import CGuard.HapServer
import CGuard.Lib.Machine

/-!
# Enabling and disabling HomeKit

The whole of a HomeKit thread (`CS_EnableChannel` and `HomekitMainFunction`) with the AWS thread beside it, cycle after cycle. A run
follows one HomeKit thread at a time: an `H` that would create a second one is not a step of it. Inside the run loop a step is one
callback: of a pending timer, which may expire in any order, of the self-pipe, of the listener or of the stream of a session.
-/

namespace CGuard

/-- The global objects, where the AWS thread is, and where the HomeKit thread is. -/
structure Lifecycle where
  homeKit : HomeKit
  aws : AwsPc
  thread : HomeKitPc

/-- The process before the first message. -/
def Lifecycle.start (store : Store) : Lifecycle where
  homeKit := .start store
  aws := .idle
  thread := .notCreated

/-- A step: the AWS thread starts on a command that switches the channel, or handles any other message, which may change the access
control lists and the lamp, or goes on; the HomeKit thread goes on, or in its run loop it runs a callback. -/
inductive LifecycleAct where
  | command (c : ChannelCommand)
  | message (acl : Acl) (lamp : Bool)
  | aws (threadCreated : Bool)
  | homeKit (w : Surroundings)
  | timer (w : Surroundings) (t : Nat × TimerCallback)
  | selfPipe (w : Surroundings)
  | listener (w : Surroundings)
  | session (w : Surroundings) (slot : Nat) (e : SessionEvent)

/-! ## The AWS thread -/

/-- (AWSMain.c) The tests of `gisHomeKitEnabled` in the cases `H` and `h` of the handler. -/
def lifecycleCommand (c : ChannelCommand) (s : Lifecycle) : Except HomeKitError Lifecycle :=
  match s.aws, c with
  | .idle, .enable =>
    if s.homeKit.device.gisHomeKitEnabled then .ok s
    else if s.thread.live then .error .notEnabled
    else .ok { s with aws := .createThread }
  | .idle, .disable => .ok (if !s.homeKit.device.gisHomeKitEnabled then s else { s with aws := .scheduleStop })
  | _, _ => .error .notEnabled

/-- (HAPPlatformRunLoop.c) The size of a stop request in the self-pipe: the callback, the size of its context and the context. -/
def selfPipeMessageBytes : Nat := 8 + 1 + 8

/-- (HAPPlatformRunLoop.c) The size of `selfPipeBytes`. -/
def selfPipeCapacity : Nat := 8 + 1 + 255

/-- (AWSMain.c) The cases `H` and `h` after their tests; `HAPPlatformRunLoopScheduleCallback` writes nothing while there is no pipe. -/
def lifecycleAws (threadCreated : Bool) (s : Lifecycle) : Except HomeKitError Lifecycle :=
  match s.aws with
  | .idle | .exited => .error .notEnabled
  | .createThread => .ok (if threadCreated then { s with aws := .setEnabled, thread := .prepare } else { s with aws := .exited })
  | .setEnabled => .ok { s with aws := .idle, homeKit.device.gisHomeKitEnabled := true }
  | .scheduleStop =>
    .ok { s with
      aws := .clearEnabled
      homeKit.runLoop.selfPipe := s.homeKit.runLoop.selfPipe.map (· + selfPipeMessageBytes) }
  | .clearEnabled => .ok { s with aws := .idle, homeKit.device.gisHomeKitEnabled := false }

/-! ## Callbacks of the run loop -/

/-- The `for` of `HandleSelfPipeFileHandleCallback` over the complete messages. -/
def handleStopRequests (io : Bool) : Nat → HomeKit → Except HomeKitError HomeKit
  | 0, s => .ok s
  | n + 1, s => do handleStopRequests io n (← doHAPAccessoryServerStop io s)

/-- (HAPPlatformRunLoop.c) `HandleSelfPipeFileHandleCallback`, when there are bytes in the pipe. -/
def handleSelfPipe (io : Bool) (s : HomeKit) : Except HomeKitError HomeKit :=
  match s.runLoop.selfPipe with
  | none | some 0 => .error .notEnabled
  | some bytes => do
    hapAssert (s.runLoop.numSelfPipeBytes < selfPipeCapacity)
    let n := min bytes (selfPipeCapacity - s.runLoop.numSelfPipeBytes)
    let numSelfPipeBytes := s.runLoop.numSelfPipeBytes + n
    handleStopRequests io (numSelfPipeBytes / selfPipeMessageBytes)
      { s with
        runLoop.selfPipe := some (bytes - n)
        runLoop.numSelfPipeBytes := numSelfPipeBytes % selfPipeMessageBytes }

/-- The body of `handle_server_state_transition_timer`, `handle_max_idle_time_timer`, `handle_garbage_collection_timer`,
`handle_event_notification_timer` or `CallbackTimerExpired`. -/
def TimerCallback.run (w : Surroundings) (s : HomeKit) : TimerCallback → Except HomeKitError HomeKit
  | .callbackTimerExpired => CGuard.callbackTimerExpired w.io s
  | .handleServerStateTransitionTimer => do
    hapAssert (s.server.ipState = .stopping)
    scheduleMaxIdleTimeTimer w s
  | .handleMaxIdleTimeTimer => scheduleMaxIdleTimeTimer w s
  | .handleGarbageCollectionTimer => collectGarbage s
  | .handleEventNotificationTimer => scheduleEventNotifications w s

/-- (HAPPlatformRunLoop.c) A turn of `ProcessExpiredTimers`. Every callback first compares its timer with the field of the server for
it, and clears the field. -/
def processExpiredTimer (w : Surroundings) (t : Nat × TimerCallback) (s : HomeKit) : Except HomeKitError HomeKit :=
  match s.timers.pop t with
  | none => .error .notEnabled
  | some timers => do
    hapPrecondition (timers.owner t.2 = some t.1)
    t.2.run w { s with timers := timers.disown t.2 }

/-- (HAPIPAccessoryServer.c) `HandlePendingTCPStream`, when the listener is open. -/
def handleListener (w : Surroundings) (s : HomeKit) : Except HomeKitError HomeKit :=
  if s.listener then handlePendingTCPStream w s else .error .notEnabled

/-! ## The HomeKit thread -/

/-- (CGuard.c) What `CS_EnableChannel` does to the store: `remove` and `PrepareNewSetupCode`. -/
def prepareStore (w : Surroundings) (s : HomeKit) : Except HomeKitError HomeKit :=
  match prepareNewSetupCode w.fuel w.srp w.random (removeStore s.device.store) with
  | none => .error .notEnabled
  | some (_, _, _, store) => .ok { s with device.store := store }

/-- (HAPPlatformRunLoop.c) `HAPPlatformRunLoopCreate`, after `HAPPlatformTCPStreamManagerCreate`. -/
def initializePlatform (s : HomeKit) : Except HomeKitError HomeKit := do
  let s := { s with listener := false }
  hapPrecondition (s.runLoop.selfPipe = none)
  .ok { s with runLoop.selfPipe := some 0, runLoop.state := .idle }

/-- (HAPPlatformRunLoop.c) The start of `HAPPlatformRunLoopRun`. -/
def runLoopRun (s : HomeKit) : Except HomeKitError HomeKit := do
  hapPrecondition (s.runLoop.state = .idle)
  .ok { s with runLoop.state := .running }

/-- (HAPPlatformRunLoop.c) The end of `HAPPlatformRunLoopRun`, once the state is not Running. -/
def runLoopExit (s : HomeKit) : Except HomeKitError HomeKit :=
  if s.runLoop.state = .running then .error .notEnabled
  else do
    hapAssert (s.runLoop.state = .stopping)
    .ok { s with runLoop.state := .idle, history := s.history ++ [.exitingRunLoop] }

/-- (HAPPlatformRunLoop.c) `HAPPlatformRunLoopRelease`, which `DeinitializePlatform` calls. -/
def deinitializePlatform (s : HomeKit) : HomeKit := { s with runLoop.selfPipe := none, runLoop.state := .idle }

/-- What the HomeKit thread does next to the global objects, and where it is then. -/
def homeKitThread (w : Surroundings) (s : HomeKit) : HomeKitPc → Except HomeKitError (HomeKit × HomeKitPc)
  | .notCreated | .returned | .serverStop | .deregister => .error .notEnabled
  | .prepare => (prepareStore w s).map (·, .setEnabled)
  | .setEnabled => .ok ({ s with device.gisHomeKitEnabled := true }, .clearReset)
  | .clearReset => .ok ({ s with gHAPrequestedFactoryReset := false }, .callMain)
  | .callMain => .ok ({ s with history := s.history ++ [.entered] }, .runLoopCreate)
  | .runLoopCreate => (initializePlatform s).map (·, .serverCreate)
  | .serverCreate => (hapAccessoryServerCreate s >>= (·.appCreate w.io)).map (·, .serverStart)
  | .serverStart => (hapAccessoryServerStart w s).map (·, .runLoopRun)
  | .runLoopRun => (runLoopRun s).map (·, .runLoop)
  | .runLoop => (runLoopExit s).map (·, .serverRelease)
  | .serverRelease => (hapAccessoryServerRelease w.io s).map (·, .runLoopRelease)
  | .runLoopRelease => .ok (deinitializePlatform s, .mainReturn)
  -- the server engine is uninstalled here
  | .mainReturn => .ok ({ s with serverEngine := false, history := s.history ++ [.ended] }, .returned)

/-- The callbacks that the run loop can run. -/
def callback : LifecycleAct → HomeKit → Except HomeKitError HomeKit
  | .timer w t => processExpiredTimer w t
  | .selfPipe w => handleSelfPipe w.io
  | .listener w => handleListener w
  | .session w slot e => handleTCPStreamEvent w slot e
  | _ => fun _ => .error .notEnabled

/-- One step. -/
def lifecycleStep : Machine.Step Lifecycle LifecycleAct Unit HomeKitError
  | s, .command c => (lifecycleCommand c s).map (·, ())
  | s, .message acl lamp =>
    if s.aws = .idle then
      .ok ({ s with homeKit.device.acl := acl, homeKit.device.gLightBulbState := lamp }, ())
    else .error .notEnabled
  | s, .aws threadCreated => (lifecycleAws threadCreated s).map (·, ())
  | s, .homeKit w => (homeKitThread w s.homeKit s.thread).map fun r => ({ s with homeKit := r.1, thread := r.2 }, ())
  | s, a =>
    if s.thread = .runLoop then (callback a s.homeKit).map fun homeKit => ({ s with homeKit := homeKit }, ())
    else .error .notEnabled

end CGuard
