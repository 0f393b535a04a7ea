import CGuard.App
import CGuard.Channel
import CGuard.SetupCode
import CGuard.Lib.OwnedTimers

/-!
# The accessory server and the run loop

The global objects behind `HomekitMainFunction` and the functions that use them: the run loop (`HAPPlatformRunLoop.c`), the
accessory server (`HAPAccessoryServer.c`), its IP server engine and sessions (`HAPIPAccessoryServer.c`), the listener of the TCP
stream manager, and the factory reset of `HandleUpdatedState` (`HomeKitMain.c`). What the surroundings decide (the disk, the clock, the
random source, what fits into a buffer) is an argument.
-/

namespace CGuard

/-- (HAPIPAccessoryServer.h) `HAPIPAccessoryServerState`. -/
inductive HAPIPAccessoryServerState where
  | undefined | idle | running | stopping
  deriving DecidableEq

/-- (HAPIPAccessoryServer.h) `HAPIPSessionState`. -/
inductive HAPIPSessionState where
  | idle | reading | writing
  deriving DecidableEq

/-- The timer callbacks of the server. The owner of a timer is the field of the server for it: `callbackTimer`,
`ip.stateTransitionTimer`, `ip.maxIdleTimeTimer`, `ip.garbageCollectionTimer` or `ip.eventNotificationTimer`. -/
inductive TimerCallback where
  | callbackTimerExpired
  | handleServerStateTransitionTimer
  | handleMaxIdleTimeTimer
  | handleGarbageCollectionTimer
  | handleEventNotificationTimer
  deriving DecidableEq

/-- (HAPIPAccessoryServer.h) `HAPIPSessionDescriptor`: a session in use, its place in the storage, and whether its inbound buffer is at
position 0. -/
structure HAPIPSessionDescriptor where
  slot : Nat
  state : HAPIPSessionState
  inboundEmpty : Bool
  numEventNotificationFlags : Nat
  deriving DecidableEq

/-- (HAP.h) `kHAPIPSessionStorage_DefaultNumElements`. -/
def numSessionSlots : Nat := 17

/-- (HAPAccessoryServer+Internal.h) `HAPAccessoryServer`: `transportsIP` says that `transports.ip` is set, `primaryAccessory` and
`discoverableService` that these are. The pairing session is given by its place in the storage. -/
structure HAPAccessoryServer where
  transportsIP : Bool
  state : HAPAccessoryServerState
  primaryAccessory : Bool
  sessionThatIsCurrentlyPairing : Option Nat
  ipState : HAPIPAccessoryServerState
  ipNextState : HAPIPAccessoryServerState
  numSessions : Nat
  isServiceDiscoverable : Bool
  discoverableService : Bool
  deriving DecidableEq

/-- The server object with all bytes zero. -/
def HAPAccessoryServer.zero : HAPAccessoryServer where
  transportsIP := false
  state := .idle
  primaryAccessory := false
  sessionThatIsCurrentlyPairing := none
  ipState := .undefined
  ipNextState := .undefined
  numSessions := 0
  isServiceDiscoverable := false
  discoverableService := false

/-- (HAPPlatformRunLoop.c) `runLoop`: `selfPipe` is `none` while the descriptors are -1, else the number of bytes in the pipe. -/
structure RunLoop where
  selfPipe : Option Nat
  numSelfPipeBytes : Nat
  state : HAPPlatformRunLoopState
  deriving DecidableEq

/-- What the program reports about a cycle: "EnableChannel", "Start factory reset.", "Exiting run loop." and "HomeKit Thread ENDED". -/
inductive CycleEvent where
  | entered | factoryReset | exitingRunLoop | ended
  deriving DecidableEq

/-- The global objects. `listener` says that the listener of the TCP stream manager is open, `sessions` are the sessions of the storage
that are in use, and `history` is what has been reported. -/
structure HomeKit where
  device : Device
  gHAPrequestedFactoryReset : Bool
  runLoop : RunLoop
  timers : OwnedTimers TimerCallback
  serverEngine : Bool
  server : HAPAccessoryServer
  listener : Bool
  sessions : List HAPIPSessionDescriptor
  history : List CycleEvent

/-- The objects at the start of the process, on a disk that holds `store`. -/
def HomeKit.start (store : Store) : HomeKit where
  device := Device.start store
  gHAPrequestedFactoryReset := false
  runLoop := ⟨none, 0, .idle⟩
  timers := .start
  serverEngine := false
  server := .zero
  listener := false
  sessions := []
  history := []

/-- Why a step is not taken: it is not one of this state, or an `HAPPrecondition` or an `HAPAssert` fails, or a timer to deregister is
not found, or the store answers with an error or holds what cannot be used. All but the first end the process. -/
inductive HomeKitError where
  | notEnabled | precondition | assertion | fatalError | storeFailed
  deriving DecidableEq

/-- `HAPPrecondition`. -/
def hapPrecondition (p : Prop) [Decidable p] : Except HomeKitError Unit := if p then .ok () else .error .precondition

/-- `HAPAssert`. -/
def hapAssert (p : Prop) [Decidable p] : Except HomeKitError Unit := if p then .ok () else .error .assertion

/-- What the surroundings answer during a step: the disk, the random source and the verifier function, whether the enumeration of the
pairings finds an administrator (no answer if it finds a malformed pairing first), and for the session of each place whether it has been
idle for too long, its last notification is old enough, and a notification fits into its buffers. -/
structure Surroundings where
  io : Bool
  fuel : Nat
  srp : SrpVerifier
  random : Stream' UInt8
  adminFound : Option Bool
  idleTooLong : Nat → Bool
  notificationDue : Nat → Bool
  notificationFits : Nat → Bool

/-! ## Timers -/

/-- `HAPPlatformTimerRegister` for a field of the server. -/
def HomeKit.register (k : TimerCallback) (s : HomeKit) : HomeKit := { s with timers := s.timers.register k }

/-- `HAPPlatformTimerDeregister` of the timer of a field, if it is set, and the field is cleared. -/
def HomeKit.deregister (k : TimerCallback) (s : HomeKit) : Except HomeKitError HomeKit :=
  match s.timers.deregister k with
  | some timers => .ok { s with timers := timers }
  | none => .error .fatalError

/-- (HAPAccessoryServer.c) `HAPAccessoryServerDelegateScheduleHandleUpdatedState`. -/
def hapAccessoryServerDelegateScheduleHandleUpdatedState (s : HomeKit) : HomeKit :=
  if (s.timers.owner .callbackTimerExpired).isSome then s else s.register .callbackTimerExpired

/-! ## The store -/

/-- An error of the store ends the process. -/
def ofStore {α : Type} : Except HAPError α → Except HomeKitError α
  | .ok a => .ok a
  | .error _ => .error .storeFailed

/-- A fault of the application ends the process. -/
def ofFault {α : Type} : Except Fault α → Except HomeKitError α
  | .ok a => .ok a
  | .error .fatalError => .error .storeFailed
  | .error _ => .error .precondition

/-- `HAPPlatformKeyValueStoreSet`, where an error ends the process, whatever the write has left. -/
def storeSet (io : Bool) (s : Store) (domain key : UInt8) (bytes : List UInt8) : Except HomeKitError Store :=
  match hapPlatformKeyValueStoreSet io (.unchanged false) s domain key bytes with
  | (.none, s) => .ok s
  | _ => .error .storeFailed

/-- (HAP+KeyValueStoreDomains.h) `kHAPKeyValueStoreDomain_Configuration`. -/
def kHAPKeyValueStoreDomainConfiguration : UInt8 := 0x90

/-- (HAP+KeyValueStoreDomains.h) `kHAPKeyValueStoreDomain_Pairings`. -/
def kHAPKeyValueStoreDomainPairings : UInt8 := 0xA0

/-- (HAPAccessoryServer+Reset.c) `domainsToPurge`: the configuration, the configuration of the characteristics and the pairings. -/
def domainsToPurge : List UInt8 := [0x90, 0x92, 0xA0]

/-- (HAPAccessoryServer+Reset.c) `HAPRestoreFactorySettings`. -/
def hapRestoreFactorySettings (io : Bool) (s : Store) : Except HAPError Store :=
  domainsToPurge.foldlM (hapPlatformKeyValueStorePurgeDomain io) s

/-- A value of the configuration is loaded, and if there is none it is made and stored, after `missing`. -/
def loadOrStore (io : Bool) (key : UInt8) (fresh : List UInt8) (missing : Store → Except HomeKitError Store) (s : Store) :
    Except HomeKitError Store := do
  match ← ofStore (hapPlatformKeyValueStoreGet io s kHAPKeyValueStoreDomainConfiguration key fresh.length) with
  | some bytes => if bytes.length = fresh.length then .ok s else .error .storeFailed
  | none => storeSet io (← missing s) kHAPKeyValueStoreDomainConfiguration key fresh

/-- (HAPAccessoryServer.c) `HAPAccessoryServerLoadLTSK`: without a key the pairings are purged. -/
def hapAccessoryServerLoadLTSK (w : Surroundings) (s : Store) : Except HomeKitError Store :=
  loadOrStore w.io 0x21 (w.random.take 32)
    (fun s => ofStore (hapPlatformKeyValueStorePurgeDomain w.io s kHAPKeyValueStoreDomainPairings)) s

/-- (HAPAccessoryServer.c) `HAPAccessoryServerGetCN`. -/
def hapAccessoryServerGetCN (io : Bool) (s : Store) : Except HomeKitError Store := loadOrStore io 0x20 [1, 0, 0, 0] .ok s

/-- (HAPDeviceID.c) `HAPDeviceIDGet`. -/
def hapDeviceIDGet (w : Surroundings) (s : Store) : Except HomeKitError Store := loadOrStore w.io 0x00 (w.random.take 6) .ok s

/-- `HAPReadLittleUInt32`. -/
def hapReadLittleUInt32 (bytes : List UInt8) : Nat := (bytes.take 4).foldr (fun b n => b.toNat + 256 * n) 0

/-- `HAPWriteLittleUInt32`. -/
def hapWriteLittleUInt32 (n : Nat) : List UInt8 := (List.range 4).map fun i => UInt8.ofNat (n / 256 ^ i)

/-- (HAPAccessoryServer.c) `HAPAccessoryServerIncrementCN`: the number is 1 if there is none, and it goes from the largest to 1. -/
def hapAccessoryServerIncrementCN (io : Bool) (s : Store) : Except HomeKitError Store := do
  let found ← ofStore (hapPlatformKeyValueStoreGet io s kHAPKeyValueStoreDomainConfiguration 0x20 4)
  let cn := hapReadLittleUInt32 (found.getD (hapWriteLittleUInt32 1))
  storeSet io s kHAPKeyValueStoreDomainConfiguration 0x20 (hapWriteLittleUInt32 (if cn = 2 ^ 32 - 1 then 1 else cn + 1))

/-- There is a file of the domain. -/
def Store.hasDomain (s : Store) (domain : UInt8) : Bool :=
  match s with
  | none => false
  | some files => decide (∃ name ∈ files.keys, name.1 = domain)

/-- (App.c) `firmwareVersion` of the accessory, "1", as major, minor and revision. -/
def firmwareVersion : List Nat := [1, 0, 0]

/-- The firmware version check of `HAPAccessoryServerPrepareStart`: no store if the firmware must not start. -/
def firmwareVersionCheck (io : Bool) (s : Store) : Except HomeKitError (Option Store) := do
  let save (s : Store) := storeSet io s kHAPKeyValueStoreDomainConfiguration 0x10 (firmwareVersion.flatMap hapWriteLittleUInt32)
  match ← ofStore (hapPlatformKeyValueStoreGet io s kHAPKeyValueStoreDomainConfiguration 0x10 12) with
  | none => return some (← save s)
  | some bytes =>
    if bytes.length ≠ 12 then .error .storeFailed
    else
      let previous := [0, 4, 8].map fun i => hapReadLittleUInt32 (bytes.drop i)
      if firmwareVersion = previous then .ok (some s)
      else if firmwareVersion < previous then .ok none
      else return some (← save (← hapAccessoryServerIncrementCN io s))

/-! ## The state of the server -/

/-- A server engine is installed, and the server has its transport. -/
def HomeKit.hasEngine (s : HomeKit) : Bool := s.server.transportsIP && s.serverEngine

/-- (HAPAccessoryServer.c) `HAPAccessoryServerGetState`, and (HAPIPAccessoryServer.c) `engine_get_state`. -/
def hapAccessoryServerGetState (s : HomeKit) : Except HomeKitError HAPAccessoryServerState :=
  if s.hasEngine then
    match s.server.ipState with
    | .undefined => .error .precondition
    | .idle => .ok .idle
    | .running => .ok .running
    | .stopping =>
      if s.server.ipNextState = .running then .ok .running
      else do
        hapAssert (s.server.ipNextState = .idle)
        .ok .stopping
  else .ok s.server.state

/-- (App.c) `AppCreate`. -/
def HomeKit.appCreate (io : Bool) (s : HomeKit) : Except HomeKitError HomeKit := do
  let device ← ofFault (CGuard.appCreate io s.device)
  .ok { s with device := device }

/-- The factory reset of `HandleUpdatedState`: the state of the application and of HomeKit is purged, and the run loop is stopped. -/
def factoryReset (io : Bool) (s : HomeKit) : Except HomeKitError HomeKit := do
  let store ← ofStore (hapPlatformKeyValueStorePurgeDomain io s.device.store kAppKeyValueStoreDomainConfiguration)
  let store ← ofStore (hapRestoreFactorySettings io store)
  let s := { s with device.store := store, gHAPrequestedFactoryReset := false }
  let s ← s.appCreate io
  .ok { s with runLoop.state := s.runLoop.state.stop, history := s.history ++ [.factoryReset] }

/-- (HomeKitMain.c) `HandleUpdatedState`. Nothing sets `clearPairings`, and `AccessoryServerHandleUpdatedState` only reports the state. -/
def handleUpdatedState (io : Bool) (s : HomeKit) : Except HomeKitError HomeKit := do
  let state ← hapAccessoryServerGetState s
  if state = .idle ∧ s.gHAPrequestedFactoryReset = true then factoryReset io s else .ok s

/-- (HAPAccessoryServer.c) `CompleteShutdown`. -/
def completeShutdown (io : Bool) (s : HomeKit) : Except HomeKitError HomeKit := do
  hapAssert (s.server.sessionThatIsCurrentlyPairing = none)
  hapAssert (s.server.discoverableService = false)
  handleUpdatedState io { s with server.primaryAccessory := false, server.state := .idle }

/-- (HAPAccessoryServer.c) `CallbackTimerExpired`, when its timer has been compared and cleared. -/
def callbackTimerExpired (io : Bool) (s : HomeKit) : Except HomeKitError HomeKit := do
  if s.hasEngine then
    if (← hapAccessoryServerGetState s) = .idle then completeShutdown io s else handleUpdatedState io s
  else handleUpdatedState io s

/-! ## Sessions -/

/-- (HAPIPAccessoryServer.c) `CloseSession` of each session that is chosen. -/
def closeSessions (chosen : HAPIPSessionDescriptor → Bool) (s : HomeKit) : Except HomeKitError HomeKit := do
  hapAssert (∀ x ∈ s.sessions, chosen x = true → x.state ≠ .idle)
  let closing := s.sessions.filter chosen
  let s := { s with
    sessions := s.sessions.map fun x => if chosen x then { x with state := .idle, numEventNotificationFlags := 0 } else x
    server.sessionThatIsCurrentlyPairing :=
      s.server.sessionThatIsCurrentlyPairing.filter fun slot => !(closing.map (·.slot)).contains slot }
  .ok (if !closing.isEmpty ∧ s.timers.owner .handleGarbageCollectionTimer = none then s.register .handleGarbageCollectionTimer else s)

/-- A session that has an end because it is open too long: the storage is full or the server is stopping. -/
def HomeKit.limitsIdleTime (s : HomeKit) : Bool :=
  s.server.numSessions = numSessionSlots || s.server.ipState = .stopping

/-- The first branch of the loop of `schedule_max_idle_time_timer`. -/
def HomeKit.closesAtOnce (s : HomeKit) (x : HAPIPSessionDescriptor) : Bool :=
  x.state = .reading && x.inboundEmpty && s.server.ipState = .stopping

/-- (HAPIPAccessoryServer.c) `schedule_max_idle_time_timer`. -/
def scheduleMaxIdleTimeTimer (w : Surroundings) (s : HomeKit) : Except HomeKitError HomeKit := do
  let s ← s.deregister .handleMaxIdleTimeTimer
  let s := { s with listener := s.listener && s.server.ipState ≠ .stopping }
  let limited (x : HAPIPSessionDescriptor) := !s.closesAtOnce x && x.state ≠ .idle && s.limitsIdleTime
  let s' ← closeSessions (fun x => s.closesAtOnce x || (limited x && w.idleTooLong x.slot)) s
  let s' := if s.sessions.any fun x => limited x && !w.idleTooLong x.slot then s'.register .handleMaxIdleTimeTimer else s'
  .ok (if s'.timers.owner .handleGarbageCollectionTimer = none then s'.register .handleGarbageCollectionTimer else s')

/-- The end of `collect_garbage`, when there is no session and the listener is closed. -/
def completeStateTransition (s : HomeKit) : Except HomeKitError HomeKit := do
  hapAssert (s.server.ipState = .stopping)
  let s ← s.deregister .handleServerStateTransitionTimer
  let s ← s.deregister .handleMaxIdleTimeTimer
  if s.server.ipNextState = .running then
    .ok (hapAccessoryServerDelegateScheduleHandleUpdatedState
      { s with server.ipState := .running, server.ipNextState := .undefined })
  else
    hapAssert (s.server.ipNextState = .idle)
    -- `HAPIPServiceDiscoveryStop`, which is called while there is a service
    .ok (hapAccessoryServerDelegateScheduleHandleUpdatedState
      { s with
        server.ipState := .idle
        server.ipNextState := .undefined
        server.isServiceDiscoverable := false
        server.discoverableService := false })

/-- (HAPIPAccessoryServer.c) `collect_garbage`. -/
def collectGarbage (s : HomeKit) : Except HomeKitError HomeKit := do
  let s ← s.deregister .handleGarbageCollectionTimer
  let closed := s.sessions.filter (·.state = .idle)
  hapAssert (closed.length ≤ s.server.numSessions)
  let s := { s with
    sessions := s.sessions.filter (·.state ≠ .idle)
    server.numSessions := s.server.numSessions - closed.length }
  hapAssert (s.sessions.length = s.server.numSessions)
  if s.listener = true ∨ s.server.numSessions ≠ 0 then .ok s else completeStateTransition s

/-- A session that waits for its event notifications. -/
def HAPIPSessionDescriptor.awaitsNotification (x : HAPIPSessionDescriptor) : Bool :=
  x.state = .reading && x.inboundEmpty && 0 < x.numEventNotificationFlags

/-- (HAPIPAccessoryServer.c) `write_event_notifications`: a session is told at most once a second. -/
def writeEventNotifications (w : Surroundings) (x : HAPIPSessionDescriptor) : HAPIPSessionDescriptor :=
  if w.notificationDue x.slot then
    { x with numEventNotificationFlags := 0, state := if w.notificationFits x.slot then .writing else .reading }
  else x

/-- (HAPIPAccessoryServer.c) `schedule_event_notifications`: the value that is sent is read with the handler of the characteristic. -/
def scheduleEventNotifications (w : Surroundings) (s : HomeKit) : Except HomeKitError HomeKit := do
  let s ← s.deregister .handleEventNotificationTimer
  let reads := s.sessions.any fun (x : HAPIPSessionDescriptor) => x.awaitsNotification && w.notificationDue x.slot
  let s := { s with
    device := if reads then (handleLightBulbOnRead s.device).2.2 else s.device
    sessions := s.sessions.map fun (x : HAPIPSessionDescriptor) => if x.awaitsNotification then writeEventNotifications w x else x }
  .ok (if s.sessions.any (·.awaitsNotification) then s.register .handleEventNotificationTimer else s)

/-- (HAPIPAccessoryServer.c) `engine_raise_event_on_session_`: the sessions of these places get a flag that they did not have. -/
def raiseEvent (slots : List Nat) (s : HomeKit) : Except HomeKitError HomeKit := do
  let raised (x : HAPIPSessionDescriptor) := x.state ≠ .idle && slots.contains x.slot
  let s := { s with
    sessions := s.sessions.map fun x =>
      if raised x then { x with numEventNotificationFlags := x.numEventNotificationFlags + 1 } else x }
  if s.sessions.any raised then
    let s ← s.deregister .handleEventNotificationTimer
    .ok (s.register .handleEventNotificationTimer)
  else .ok s

/-- (HAPIPAccessoryServer.c) `HandlePendingTCPStream`: a free session of the storage is used, if there is one. -/
def handlePendingTCPStream (w : Surroundings) (s : HomeKit) : Except HomeKitError HomeKit :=
  match (List.range numSessionSlots).find? fun slot => !(s.sessions.map (·.slot)).contains slot with
  | none => .ok s
  | some slot => do
    let s := { s with sessions := ⟨slot, .reading, true, 0⟩ :: s.sessions }
    -- `RegisterSession`
    hapPrecondition (s.server.numSessions < numSessionSlots)
    let s := { s with server.numSessions := s.server.numSessions + 1 }
    if s.server.numSessions = numSessionSlots then scheduleMaxIdleTimeTimer w s else .ok s

/-! ## Requests of the controllers -/

/-- A file that a request stores, or removes. -/
structure StoreWrite where
  name : FileName
  bytes : Option (List UInt8)

/-- `HAPPlatformKeyValueStoreSet` or `HAPPlatformKeyValueStoreRemove`. -/
def StoreWrite.apply (x : StoreWrite) (s : Store) : Store :=
  match x.bytes with
  | some bytes => some ((s.getD ∅).insert x.name bytes)
  | none => s.map fun files => files.erase x.name

/-- A request for the light bulb: a read, or a write that is allowed. -/
inductive BulbRequest where
  | read
  | write (value : Bool)

/-- (App.c) `HandleLightBulbOnRead`, or `HandleLightBulbOnWrite` after its check. -/
def BulbRequest.handle (io : Bool) (d : Device) : BulbRequest → Except Fault Device
  | .read => .ok (handleLightBulbOnRead d).2.2
  | .write value =>
    if d.accessoryConfiguration.lightBulbOn ≠ boolByte value then
      saveAccessoryState io (operateDevice value { d with accessoryConfiguration.lightBulbOn := boolByte value })
    else .ok d

/-- What a session does when its stream has bytes or space: the files its request stores (pairings, counters), a request for the bulb,
the places of the sessions that its events are for, whether it starts or ends a pair setup, whether it has the state of the server
reported, and how it is afterwards: closed, or in which state. -/
structure SessionEvent where
  writes : List StoreWrite
  bulb : Option BulbRequest
  raises : List Nat
  pairing : Option Bool
  reportsState : Bool
  closes : Bool
  writing : Bool
  inboundEmpty : Bool
  numEventNotificationFlags : Nat

/-- The request of a session: what it does to the store, the device and the server. -/
def handleRequest (w : Surroundings) (slot : Nat) (e : SessionEvent) (s : HomeKit) : Except HomeKitError HomeKit := do
  let s := { s with device.store := e.writes.foldl (fun (store : Store) (x : StoreWrite) => x.apply store) s.device.store }
  let s ←
    match e.bulb with
    | none => .ok s
    | some request => do
      let device ← ofFault (request.handle w.io s.device)
      .ok { s with device := device }
  let s := { s with
    server.sessionThatIsCurrentlyPairing :=
      match e.pairing with
      | none => s.server.sessionThatIsCurrentlyPairing
      | some starts => if starts then some slot else none }
  .ok (if e.reportsState then hapAccessoryServerDelegateScheduleHandleUpdatedState s else s)

/-- (HAPIPAccessoryServer.c) `handle_io_progression`. -/
def handleIoProgression (w : Surroundings) (slot : Nat) (s : HomeKit) : Except HomeKitError HomeKit := do
  let s ←
    if s.sessions.any fun x => x.slot = slot && x.state = .reading && x.inboundEmpty then
      if s.server.ipState = .stopping then closeSessions (·.slot = slot) s
      else do
        hapAssert (s.server.ipState = .running)
        if s.sessions.any fun x => x.slot = slot && 0 < x.numEventNotificationFlags then scheduleEventNotifications w s else .ok s
    else .ok s
  -- a session whose stream is closed waits for the garbage collection
  if s.sessions.any fun x => x.slot = slot && x.state ≠ .idle then .ok s
  else do
    hapAssert ((s.timers.owner .handleGarbageCollectionTimer).isSome = true)
    .ok s

/-- (HAPIPAccessoryServer.c) `HandleTCPStreamEvent` of an open session. -/
def handleTCPStreamEvent (w : Surroundings) (slot : Nat) (e : SessionEvent) (s : HomeKit) : Except HomeKitError HomeKit := do
  if !s.sessions.any fun x => x.slot = slot && x.state ≠ .idle then .error .notEnabled
  let s ← handleRequest w slot e s
  let s := { s with
    sessions := s.sessions.map fun x =>
      if x.slot = slot then
        ⟨slot, if e.writing then .writing else .reading, e.inboundEmpty, e.numEventNotificationFlags⟩
      else x }
  let s ← raiseEvent e.raises s
  let s ← if e.closes then closeSessions (·.slot = slot) s else .ok s
  handleIoProgression w slot s

/-! ## Start and stop -/

/-- (HAPAccessoryServer.c) `HAPAccessoryServerCleanupPairings`: without an administrator the pairings are purged. That the parameters of
BLE broadcasts are removed from the store, too, is left out here. -/
def hapAccessoryServerCleanupPairings (w : Surroundings) (s : HomeKit) : Except HomeKitError HomeKit :=
  match w.adminFound with
  | none => .error .storeFailed
  | some adminFound =>
    if !adminFound && s.device.store.hasDomain kHAPKeyValueStoreDomainPairings then do
      let s := hapAccessoryServerDelegateScheduleHandleUpdatedState s
      let store ← ofStore (hapPlatformKeyValueStorePurgeDomain w.io s.device.store kHAPKeyValueStoreDomainPairings)
      .ok { s with device.store := store }
    else .ok s

/-- (HAPAccessoryServer.c) `HAPAccessoryServerPrepareStart`. -/
def hapAccessoryServerPrepareStart (w : Surroundings) (s : HomeKit) : Except HomeKitError HomeKit := do
  hapPrecondition (s.server.state = .idle)
  hapPrecondition (s.server.primaryAccessory = false)
  let s := hapAccessoryServerDelegateScheduleHandleUpdatedState { s with server.state := .running }
  let s := { s with sessions := [] }
  match ← firmwareVersionCheck w.io s.device.store with
  | none => .ok { s with server.state := .idle }
  | some store =>
    let store ← hapAccessoryServerLoadLTSK w store
    hapAccessoryServerCleanupPairings w { s with server.primaryAccessory := true, device.store := store }

/-- (HAPIPAccessoryServer.c) `publish_homeKit_service`. -/
def publishHomeKitService (w : Surroundings) (s : HomeKit) : Except HomeKitError HomeKit := do
  hapAssert (s.server.isServiceDiscoverable = false)
  hapAssert (s.listener = true)
  -- `HAPIPServiceDiscoverySetHAPService`
  let store ← hapAccessoryServerGetCN w.io s.device.store
  let store ← hapDeviceIDGet w store
  .ok { s with device.store := store, server.discoverableService := true, server.isServiceDiscoverable := true }

/-- (HAPIPAccessoryServer.c) `engine_start`. -/
def engineStart (w : Surroundings) (s : HomeKit) : Except HomeKitError HomeKit := do
  hapAssert (s.server.ipState = .idle)
  let s := hapAccessoryServerDelegateScheduleHandleUpdatedState { s with server.ipState := .running }
  hapAssert (s.listener = false)
  publishHomeKitService w { s with listener := true }

/-- (HAPAccessoryServer.c) `HAPAccessoryServerStart`. -/
def hapAccessoryServerStart (w : Surroundings) (s : HomeKit) : Except HomeKitError HomeKit := do
  let s ← hapAccessoryServerPrepareStart w s
  if s.server.state ≠ .running then do
    hapAssert (s.server.state = .idle)
    .ok s
  else if s.hasEngine then engineStart w s else .ok s

/-- (HAPIPAccessoryServer.c) `engine_stop`. -/
def engineStop (s : HomeKit) : Except HomeKitError HomeKit :=
  match s.server.ipState with
  | .running => do
    hapAssert (s.server.ipNextState = .undefined)
    let s := { s with server.ipState := .stopping, server.ipNextState := .idle }
    let s := hapAccessoryServerDelegateScheduleHandleUpdatedState s
    -- `schedule_server_state_transition`
    .ok (if s.timers.owner .handleServerStateTransitionTimer = none then s.register .handleServerStateTransitionTimer else s)
  | .stopping =>
    if s.server.ipNextState = .running then .ok { s with server.ipNextState := .idle }
    else do
      hapAssert (s.server.ipNextState = .idle)
      .ok s
  | _ => .ok s

/-- (HAPAccessoryServer.c) `HAPAccessoryServerStop`. -/
def hapAccessoryServerStop (io : Bool) (s : HomeKit) : Except HomeKitError HomeKit :=
  if s.server.state = .idle then .ok s
  else do
    let s ←
      if s.server.state ≠ .stopping then do
        hapAssert (s.server.state = .running)
        let s := { s with server.state := .stopping }
        if s.hasEngine then .ok s else handleUpdatedState io s
      else .ok s
    if s.hasEngine then engineStop s else completeShutdown io s

/-- (CGuard.c) `doHAPAccessoryServerStop`. -/
def doHAPAccessoryServerStop (io : Bool) (s : HomeKit) : Except HomeKitError HomeKit :=
  hapAccessoryServerStop io { s with gHAPrequestedFactoryReset := true }

/-- (HAPAccessoryServer.c) `HAPAccessoryServerCreate`: the server is zeroed, the transport zeroes the storage and installs the server
engine, and `engine_init` follows. -/
def hapAccessoryServerCreate (s : HomeKit) : Except HomeKitError HomeKit := do
  let s := { s with server := { HAPAccessoryServer.zero with transportsIP := true }, timers := s.timers.disownAll, sessions := [] }
  hapPrecondition (s.serverEngine = false)
  let s := { s with serverEngine := true }
  hapAssert (s.server.ipState = .undefined)
  .ok { s with server.ipState := .idle, server.ipNextState := .undefined }

/-- (HAPAccessoryServer.c) `HAPAccessoryServerRelease`: the server is zeroed before its transport is asked to uninstall the engine. -/
def hapAccessoryServerRelease (io : Bool) (s : HomeKit) : Except HomeKitError HomeKit := do
  let s ← hapAccessoryServerStop io s
  let s ← s.deregister .callbackTimerExpired
  -- `engine_deinit`
  if s.hasEngine = true then hapAssert (s.server.ipState = .idle)
  let s := { s with server := .zero, timers := s.timers.disownAll }
  .ok (if s.server.transportsIP then { s with serverEngine := false } else s)

end CGuard
