import CGuard.AwsMain
import CGuard.Lib.Machine

/-!
# The HomeKit channel

How the HomeKit channel is switched on and off (`AWSMain.c`, `CGuard.c`, `HomeKitMain.c`, `HAPPlatformRunLoop.c` and
`HAPAccessoryServer.c`). The AWS thread handles `H` and `h` commands, each `H` that passes its test creates a thread that runs
`CS_EnableChannel`, and an `h` that passes its test sends a stop request through the self-pipe of the run loop. A step is one access to
what the threads share, but for `HAPPlatformRunLoopCreate`, which is one step from its precondition to its end, and for the server engine,
of which there is whether it is installed and when it has finished a stop. A run is one interleaving of the steps.
-/

namespace CGuard

/-- (HAPAccessoryServer.h) `HAPAccessoryServerState`. -/
inductive HAPAccessoryServerState where
  | idle | running | stopping
  deriving DecidableEq

/-- (HAPPlatformRunLoop.c) `HAPPlatformRunLoopState`. -/
inductive HAPPlatformRunLoopState where
  | idle | running | stopping
  deriving DecidableEq

/-- Where a HomeKit thread is, named by what it does next in `CS_EnableChannel` and `HomekitMainFunction`. -/
inductive HomeKitPc where
  | notCreated
  | prepare
  | setEnabled
  | clearReset
  | callMain
  | runLoopCreate
  | serverCreate
  | serverStart
  | runLoopRun
  | runLoop
  | serverStop
  | serverRelease
  | runLoopRelease
  | deregister
  | mainReturn
  | returned
  deriving DecidableEq

/-- The thread has been created and has not returned. -/
def HomeKitPc.live : HomeKitPc → Bool
  | .notCreated | .returned => false
  | _ => true

/-- The thread has been created and has not created the run loop yet. -/
def HomeKitPc.waiting : HomeKitPc → Bool
  | .prepare | .setEnabled | .clearReset | .callMain | .runLoopCreate => true
  | _ => false

/-- The thread has entered `HomekitMainFunction` and has not returned from it. -/
def HomeKitPc.inMain : HomeKitPc → Bool
  | .notCreated | .prepare | .setEnabled | .clearReset | .callMain | .returned => false
  | _ => true

/-- The thread has the run loop: it has created it and has not closed its self-pipe. -/
def HomeKitPc.holding : HomeKitPc → Bool
  | .serverCreate | .serverStart | .runLoopRun | .runLoop | .serverStop | .serverRelease | .runLoopRelease => true
  | _ => false

/-- The thread has created its run loop and has not returned. -/
def HomeKitPc.leaving : HomeKitPc → Bool
  | .deregister | .mainReturn => true
  | pc => pc.holding

/-- Where the AWS thread is, named by what it does next in `iot_subscribe_callback_handler`; `idle` between two messages. -/
inductive AwsPc where
  | idle
  | createThread
  | setEnabled
  | scheduleStop
  | clearEnabled
  | exited
  deriving DecidableEq

/-- What the threads share, and where each of them is. `selfPipe` is `none` while the descriptors are -1, else the number of stop
requests in the pipe, and `selfPipeFileHandle` is whether the run loop looks at it. `serverEngine` is whether the engine is installed. The
threads created so far are those below `created`. -/
structure Channel where
  gisHomeKitEnabled : Bool
  gHAPrequestedFactoryReset : Bool
  selfPipe : Option Nat
  selfPipeFileHandle : Bool
  runLoop : HAPPlatformRunLoopState
  serverEngine : Bool
  gHAPaccessoryServer : HAPAccessoryServerState
  aws : AwsPc
  created : Nat
  thread : Nat → HomeKitPc

/-- The process before the first message. -/
def Channel.start : Channel where
  gisHomeKitEnabled := false
  gHAPrequestedFactoryReset := false
  selfPipe := none
  selfPipeFileHandle := false
  runLoop := .idle
  serverEngine := false
  gHAPaccessoryServer := .idle
  aws := .idle
  created := 0
  thread := fun _ => .notCreated

/-- The commands that switch the channel. -/
inductive ChannelCommand where
  | enable | disable
  deriving DecidableEq

/-- A step: the AWS thread starts on a command or goes on with it, when `pthread_create` would answer `threadCreated`; a HomeKit
thread goes on; its server does not start, since the firmware is older than one that has run before; or in its run loop the callback of a
stop request starts, or the server engine has finished a stop. -/
inductive ChannelAct where
  | command (c : ChannelCommand)
  | aws (threadCreated : Bool)
  | homeKit (i : Nat)
  | downgrade (i : Nat)
  | stopRequest (i : Nat)
  | stopComplete (i : Nat)
  deriving DecidableEq

/-- The step is one of a HomeKit thread. -/
def ChannelAct.ofHomeKit : ChannelAct → Bool
  | .command _ | .aws _ => false
  | _ => true

/-- Why a step is not taken: its thread is elsewhere, or an `HAPPrecondition` or an `HAPAssert` fails, which ends the process. -/
inductive ChannelError where
  | notEnabled | precondition
  deriving DecidableEq

/-- A thread goes on to the next thing it does. -/
def Channel.move (s : Channel) (i : Nat) (pc : HomeKitPc) : Channel := { s with thread := Function.update s.thread i pc }

/-- (AWSMain.c) The tests of `gisHomeKitEnabled` in the cases `H` and `h` of the handler. -/
def channelCommand (c : ChannelCommand) (s : Channel) : Except ChannelError Channel :=
  match s.aws, c with
  | .idle, .enable => .ok (if s.gisHomeKitEnabled then s else { s with aws := .createThread })
  | .idle, .disable => .ok (if !s.gisHomeKitEnabled then s else { s with aws := .scheduleStop })
  | _, _ => .error .notEnabled

/-- (AWSMain.c) The cases `H` and `h` of the handler after their tests. The return value of `CS_DisableChannel` is not used. -/
def awsStep (threadCreated : Bool) (s : Channel) : Except ChannelError Channel :=
  match s.aws with
  | .idle | .exited => .error .notEnabled
  | .createThread =>
    .ok (if threadCreated then { s.move s.created .prepare with aws := .setEnabled, created := s.created + 1 }
      else { s with aws := .exited })
  | .setEnabled => .ok { s with aws := .idle, gisHomeKitEnabled := true }
  | .scheduleStop => .ok { s with aws := .clearEnabled, selfPipe := s.selfPipe.map (· + 1) }
  | .clearEnabled => .ok { s with aws := .idle, gisHomeKitEnabled := false }

/-- (HAPAccessoryServer.c) `HAPAccessoryServerStop`: what it does to the state of the server. -/
def HAPAccessoryServerState.stop : HAPAccessoryServerState → HAPAccessoryServerState
  | .running => .stopping
  | state => state

/-- (CGuard.c) `CS_EnableChannel` and (HomeKitMain.c) `HomekitMainFunction`, one access at a time. -/
def homeKitStep (i : Nat) (s : Channel) : Except ChannelError Channel :=
  match s.thread i with
  | .notCreated | .returned => .error .notEnabled
  | .prepare => .ok (s.move i .setEnabled)
  | .setEnabled => .ok { s.move i .clearReset with gisHomeKitEnabled := true }
  | .clearReset => .ok { s.move i .callMain with gHAPrequestedFactoryReset := false }
  | .callMain => .ok (s.move i .runLoopCreate)
  | .runLoopCreate =>
    if s.selfPipe = none then
      .ok { s.move i .serverCreate with selfPipe := some 0, selfPipeFileHandle := true, runLoop := .idle }
    else .error .precondition
  -- `HAPAccessoryServerInstallServerEngine` is part of it
  | .serverCreate =>
    if s.serverEngine then .error .precondition
    else .ok { s.move i .serverStart with serverEngine := true, gHAPaccessoryServer := .idle }
  | .serverStart =>
    if s.gHAPaccessoryServer = .idle then .ok { s.move i .runLoopRun with gHAPaccessoryServer := .running }
    else .error .precondition
  | .runLoopRun =>
    if s.runLoop = .idle then .ok { s.move i .runLoop with runLoop := .running } else .error .precondition
  | .runLoop =>
    if s.runLoop = .running then .error .notEnabled
    else if s.runLoop = .stopping then .ok { s.move i .serverRelease with runLoop := .idle }
    else .error .precondition
  -- the rest of `doHAPAccessoryServerStop`, which runs inside the run loop
  | .serverStop => .ok { s.move i .runLoop with gHAPaccessoryServer := s.gHAPaccessoryServer.stop }
  | .serverRelease => .ok { s.move i .runLoopRelease with gHAPaccessoryServer := .idle }
  | .runLoopRelease => .ok { s.move i .deregister with selfPipe := none }
  -- the rest of `HAPPlatformRunLoopRelease`, which takes the file handle that there is
  | .deregister => .ok { s.move i .mainReturn with selfPipeFileHandle := false, runLoop := .idle }
  | .mainReturn => .ok { s.move i .returned with serverEngine := false }

/-- (HAPAccessoryServer.c) `HAPAccessoryServerStart` when `HAPAccessoryServerPrepareStart` finds that the firmware has been downgraded:
the server stays idle, and the thread goes on. -/
def startDowngraded (i : Nat) (s : Channel) : Except ChannelError Channel :=
  match s.thread i with
  | .serverStart =>
    if s.gHAPaccessoryServer = .idle then .ok { s.move i .runLoopRun with gHAPaccessoryServer := .idle } else .error .precondition
  | _ => .error .notEnabled

/-- (CGuard.c) `doHAPAccessoryServerStop`, called for a request in the self-pipe: up to `HAPAccessoryServerStop`. -/
def stopRequest (i : Nat) (s : Channel) : Except ChannelError Channel :=
  match s.thread i, s.selfPipe, s.selfPipeFileHandle with
  | .runLoop, some (n + 1), true => .ok { s.move i .serverStop with selfPipe := some n, gHAPrequestedFactoryReset := true }
  | _, _, _ => .error .notEnabled

/-- (HAPPlatformRunLoop.c) `HAPPlatformRunLoopStop`. -/
def HAPPlatformRunLoopState.stop : HAPPlatformRunLoopState → HAPPlatformRunLoopState
  | .running => .stopping
  | state => state

/-- (HAPAccessoryServer.c) `CompleteShutdown` and (HomeKitMain.c) `HandleUpdatedState`: the run loop stops if a reset is requested. -/
def stopComplete (i : Nat) (s : Channel) : Except ChannelError Channel :=
  match s.thread i, s.gHAPaccessoryServer with
  | .runLoop, .stopping =>
    .ok (if s.gHAPrequestedFactoryReset then
        { s with gHAPaccessoryServer := .idle, gHAPrequestedFactoryReset := false, runLoop := s.runLoop.stop }
      else { s with gHAPaccessoryServer := .idle })
  | _, _ => .error .notEnabled

/-- One step of the threads. -/
def channelStep : Machine.Step Channel ChannelAct Unit ChannelError
  | s, a =>
    match a with
    | .command c => (channelCommand c s).map (·, ())
    | .aws threadCreated => (awsStep threadCreated s).map (·, ())
    | .homeKit i => (homeKitStep i s).map (·, ())
    | .downgrade i => (startDowngraded i s).map (·, ())
    | .stopRequest i => (stopRequest i s).map (·, ())
    | .stopComplete i => (stopComplete i s).map (·, ())

/-! ## What a step can do -/

section Move

variable (s : Channel) (i j : Nat) (pc : HomeKitPc)

@[simp] theorem Channel.move_self : (s.move i pc).thread i = pc := by
  simp [Channel.move]

@[simp] theorem Channel.move_other (h : j ≠ i) : (s.move i pc).thread j = s.thread j := by
  simp [Channel.move, h]

end Move

/-- What a step of the AWS thread does. -/
inductive AwsMove (s : Channel) : ChannelAct → Channel → Prop where
  | enableIgnored : s.aws = .idle → s.gisHomeKitEnabled = true → AwsMove s (.command .enable) s
  | enable : s.aws = .idle → s.gisHomeKitEnabled = false → AwsMove s (.command .enable) { s with aws := .createThread }
  | disableIgnored : s.aws = .idle → s.gisHomeKitEnabled = false → AwsMove s (.command .disable) s
  | disable : s.aws = .idle → s.gisHomeKitEnabled = true → AwsMove s (.command .disable) { s with aws := .scheduleStop }
  | createThread : s.aws = .createThread →
      AwsMove s (.aws true) { s.move s.created .prepare with aws := .setEnabled, created := s.created + 1 }
  | createFailed : s.aws = .createThread → AwsMove s (.aws false) { s with aws := .exited }
  | setEnabled (b : Bool) : s.aws = .setEnabled → AwsMove s (.aws b) { s with aws := .idle, gisHomeKitEnabled := true }
  | scheduleStop (b : Bool) : s.aws = .scheduleStop →
      AwsMove s (.aws b) { s with aws := .clearEnabled, selfPipe := s.selfPipe.map (· + 1) }
  | clearEnabled (b : Bool) : s.aws = .clearEnabled → AwsMove s (.aws b) { s with aws := .idle, gisHomeKitEnabled := false }

/-- What a step of the HomeKit thread `i` does. -/
inductive HomeKitMove (s : Channel) (i : Nat) : ChannelAct → Channel → Prop where
  | prepare : s.thread i = .prepare → HomeKitMove s i (.homeKit i) (s.move i .setEnabled)
  | setEnabled : s.thread i = .setEnabled → HomeKitMove s i (.homeKit i) { s.move i .clearReset with gisHomeKitEnabled := true }
  | clearReset : s.thread i = .clearReset →
      HomeKitMove s i (.homeKit i) { s.move i .callMain with gHAPrequestedFactoryReset := false }
  | callMain : s.thread i = .callMain → HomeKitMove s i (.homeKit i) (s.move i .runLoopCreate)
  | runLoopCreate : s.thread i = .runLoopCreate → s.selfPipe = none →
      HomeKitMove s i (.homeKit i) { s.move i .serverCreate with selfPipe := some 0, selfPipeFileHandle := true, runLoop := .idle }
  | serverCreate : s.thread i = .serverCreate → s.serverEngine = false →
      HomeKitMove s i (.homeKit i) { s.move i .serverStart with serverEngine := true, gHAPaccessoryServer := .idle }
  | serverStart : s.thread i = .serverStart → s.gHAPaccessoryServer = .idle →
      HomeKitMove s i (.homeKit i) { s.move i .runLoopRun with gHAPaccessoryServer := .running }
  | downgrade : s.thread i = .serverStart → s.gHAPaccessoryServer = .idle →
      HomeKitMove s i (.downgrade i) { s.move i .runLoopRun with gHAPaccessoryServer := .idle }
  | runLoopRun : s.thread i = .runLoopRun → s.runLoop = .idle →
      HomeKitMove s i (.homeKit i) { s.move i .runLoop with runLoop := .running }
  | stopRequest (n : Nat) : s.thread i = .runLoop → s.selfPipe = some (n + 1) → s.selfPipeFileHandle = true →
      HomeKitMove s i (.stopRequest i) { s.move i .serverStop with selfPipe := some n, gHAPrequestedFactoryReset := true }
  | serverStop : s.thread i = .serverStop →
      HomeKitMove s i (.homeKit i) { s.move i .runLoop with gHAPaccessoryServer := s.gHAPaccessoryServer.stop }
  | stopReset : s.thread i = .runLoop → s.gHAPaccessoryServer = .stopping → s.gHAPrequestedFactoryReset = true →
      HomeKitMove s i (.stopComplete i)
        { s with gHAPaccessoryServer := .idle, gHAPrequestedFactoryReset := false, runLoop := s.runLoop.stop }
  | stopLost : s.thread i = .runLoop → s.gHAPaccessoryServer = .stopping → s.gHAPrequestedFactoryReset = false →
      HomeKitMove s i (.stopComplete i) { s with gHAPaccessoryServer := .idle }
  | runLoop : s.thread i = .runLoop → s.runLoop = .stopping →
      HomeKitMove s i (.homeKit i) { s.move i .serverRelease with runLoop := .idle }
  | serverRelease : s.thread i = .serverRelease →
      HomeKitMove s i (.homeKit i) { s.move i .runLoopRelease with gHAPaccessoryServer := .idle }
  | runLoopRelease : s.thread i = .runLoopRelease → HomeKitMove s i (.homeKit i) { s.move i .deregister with selfPipe := none }
  | deregister : s.thread i = .deregister →
      HomeKitMove s i (.homeKit i) { s.move i .mainReturn with selfPipeFileHandle := false, runLoop := .idle }
  | mainReturn : s.thread i = .mainReturn → HomeKitMove s i (.homeKit i) { s.move i .returned with serverEngine := false }

variable {s s' : Channel} {a : ChannelAct}

/-- A command of the channel is a step of the AWS thread. -/
theorem channelCommand_ok {c : ChannelCommand} (h : channelCommand c s = .ok s') : AwsMove s (.command c) s' := by
  unfold channelCommand at h
  split at h
  · rename_i haws
    split_ifs at h with hflag
    · cases h
      exact .enableIgnored haws hflag
    · cases h
      exact .enable haws (Bool.eq_false_iff.mpr hflag)
  · rename_i haws
    split_ifs at h with hflag
    · cases h
      exact .disableIgnored haws (by simpa using hflag)
    · cases h
      exact .disable haws (by simpa using hflag)
  · simp at h

/-- A step of the AWS thread is one of its moves. -/
theorem awsStep_ok {b : Bool} (h : awsStep b s = .ok s') : AwsMove s (.aws b) s' := by
  unfold awsStep at h
  split at h
  · simp at h
  · simp at h
  · rename_i haws
    cases b <;> cases h
    · exact .createFailed haws
    · exact .createThread haws
  · rename_i haws
    cases h
    exact .setEnabled b haws
  · rename_i haws
    cases h
    exact .scheduleStop b haws
  · rename_i haws
    cases h
    exact .clearEnabled b haws

/-- A step of a HomeKit thread is one of its moves. -/
theorem homeKitStep_ok {i : Nat} (h : homeKitStep i s = .ok s') : HomeKitMove s i (.homeKit i) s' := by
  unfold homeKitStep at h
  split at h
  · simp at h
  · simp at h
  · cases h; exact .prepare ‹_›
  · cases h; exact .setEnabled ‹_›
  · cases h; exact .clearReset ‹_›
  · cases h; exact .callMain ‹_›
  · split_ifs at h with hpipe
    cases h
    exact .runLoopCreate ‹_› hpipe
  · split_ifs at h with hengine
    cases h
    exact .serverCreate ‹_› (Bool.eq_false_iff.mpr hengine)
  · split_ifs at h with hidle
    cases h
    exact .serverStart ‹_› hidle
  · split_ifs at h with hidle
    cases h
    exact .runLoopRun ‹_› hidle
  · split_ifs at h with hrunning hstopping
    cases h
    exact .runLoop ‹_› hstopping
  · cases h; exact .serverStop ‹_›
  · cases h; exact .serverRelease ‹_›
  · cases h; exact .runLoopRelease ‹_›
  · cases h; exact .deregister ‹_›
  · cases h; exact .mainReturn ‹_›

/-- A start with an older firmware is a move of its thread. -/
theorem startDowngraded_ok {i : Nat} (h : startDowngraded i s = .ok s') : HomeKitMove s i (.downgrade i) s' := by
  unfold startDowngraded at h
  split at h
  · split_ifs at h with hidle
    cases h
    exact .downgrade ‹_› hidle
  · simp at h

/-- A stop request is a move of its thread. -/
theorem stopRequest_ok {i : Nat} (h : stopRequest i s = .ok s') : HomeKitMove s i (.stopRequest i) s' := by
  unfold stopRequest at h
  split at h
  · rename_i n hpc hpipe hhandle
    cases h
    exact .stopRequest n hpc hpipe hhandle
  · simp at h

/-- A completed stop is a move of its thread. -/
theorem stopComplete_ok {i : Nat} (h : stopComplete i s = .ok s') : HomeKitMove s i (.stopComplete i) s' := by
  unfold stopComplete at h
  split at h
  · rename_i hpc hserver
    split_ifs at h with hreset
    · cases h
      exact .stopReset hpc hserver hreset
    · cases h
      exact .stopLost hpc hserver (Bool.eq_false_iff.mpr hreset)
  · simp at h

/-- A step that is taken is a move of the AWS thread or of a HomeKit thread. -/
theorem channelStep_ok {o : Unit} (h : channelStep s a = .ok (s', o)) : AwsMove s a s' ∨ ∃ i, HomeKitMove s i a s' := by
  have hmap : ∀ {x : Except ChannelError Channel}, x.map (·, ()) = .ok (s', o) → x = .ok s' := by
    intro x hx
    cases x with
    | error e => cases hx
    | ok t => cases hx; rfl
  cases a with
  | command c => exact Or.inl (channelCommand_ok (hmap h))
  | aws b => exact Or.inl (awsStep_ok (hmap h))
  | homeKit i => exact Or.inr ⟨i, homeKitStep_ok (hmap h)⟩
  | downgrade i => exact Or.inr ⟨i, startDowngraded_ok (hmap h)⟩
  | stopRequest i => exact Or.inr ⟨i, stopRequest_ok (hmap h)⟩
  | stopComplete i => exact Or.inr ⟨i, stopComplete_ok (hmap h)⟩

/-! ## The handler -/

/-- The byte of the command. -/
def ChannelCommand.byte : ChannelCommand → UInt8
  | .enable => 'H'.toUInt8
  | .disable => 'h'.toUInt8

/-- The steps of the AWS thread on a command, when nothing comes in between. -/
def ChannelCommand.steps (threadCreated flag : Bool) : ChannelCommand → List ChannelAct
  | .enable => .command .enable :: if flag then [] else .aws threadCreated :: if threadCreated then [.aws true] else []
  | .disable => .command .disable :: if flag then [.aws threadCreated, .aws threadCreated] else []

/-- The case `H` of the handler. -/
theorem handler_enable (env : HandlerEnv) {payload : List UInt8} (d : Device)
    (hcmd : payload.head? = some ChannelCommand.enable.byte) :
    iotSubscribeCallbackHandler env payload d =
      if d.gisHomeKitEnabled then { device := d, calls := [], ending := .returned }
      else if env.threadCreated then
        { device := { d with gisHomeKitEnabled := true }, calls := [.csEnableChannel true], ending := .returned }
      else { device := d, calls := [.csEnableChannel false], ending := .pthreadExit } := by
  unfold iotSubscribeCallbackHandler
  rw [hcmd]
  rfl

/-- The case `h` of the handler. -/
theorem handler_disable (env : HandlerEnv) {payload : List UInt8} (d : Device)
    (hcmd : payload.head? = some ChannelCommand.disable.byte) :
    iotSubscribeCallbackHandler env payload d =
      if !d.gisHomeKitEnabled then { device := d, calls := [], ending := .returned }
      else
        { device := { d with gisHomeKitEnabled := false }, calls := [.csDisableChannel (csDisableChannel env)],
          ending := .returned } := by
  unfold iotSubscribeCallbackHandler
  rw [hcmd]
  rfl

/-- The steps of the AWS thread on a command are the handler: they leave the flag as it does, and end the thread when it does. -/
theorem handler_channel (env : HandlerEnv) {payload : List UInt8} (d : Device) {c : ChannelCommand}
    (hcmd : payload.head? = some c.byte) (hidle : s.aws = .idle) (hflag : s.gisHomeKitEnabled = d.gisHomeKitEnabled) :
    ∃ s' os, Machine.run channelStep s (c.steps env.threadCreated d.gisHomeKitEnabled) = .ok (s', os) ∧
      s'.gisHomeKitEnabled = (iotSubscribeCallbackHandler env payload d).device.gisHomeKitEnabled ∧
      s'.aws = if (iotSubscribeCallbackHandler env payload d).ending = .pthreadExit then .exited else .idle := by
  cases c with
  | enable =>
    rw [handler_enable env d hcmd]
    by_cases hon : d.gisHomeKitEnabled = true
    · refine ⟨s, [()], ?_, ?_⟩ <;>
        simp [ChannelCommand.steps, Machine.run, channelStep, channelCommand, hidle, hflag, hon, Except.map]
    · cases env.threadCreated with
      | true =>
        refine ⟨{ s.move s.created .prepare with created := s.created + 1, aws := .idle, gisHomeKitEnabled := true },
          [(), (), ()], ?_, ?_⟩ <;>
          simp [ChannelCommand.steps, Machine.run, channelStep, channelCommand, awsStep, hidle, hflag, hon, Except.map, Channel.move]
      | false =>
        refine ⟨{ s with aws := .exited }, [(), ()], ?_, ?_⟩ <;>
          simp [ChannelCommand.steps, Machine.run, channelStep, channelCommand, awsStep, hidle, hflag, hon, Except.map]
  | disable =>
    rw [handler_disable env d hcmd]
    by_cases hon : d.gisHomeKitEnabled = true
    · refine ⟨{ s with aws := .idle, gisHomeKitEnabled := false, selfPipe := s.selfPipe.map (· + 1) }, [(), (), ()], ?_, ?_⟩ <;>
        simp [ChannelCommand.steps, Machine.run, channelStep, channelCommand, awsStep, hidle, hflag, hon, Except.map]
    · refine ⟨s, [()], ?_, ?_⟩ <;>
        simp [ChannelCommand.steps, Machine.run, channelStep, channelCommand, hidle, hflag, hon, Except.map]

end CGuard
