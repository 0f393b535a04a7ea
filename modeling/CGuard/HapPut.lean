import CGuard.HapRequest

/-!
# PUT /characteristics

The part of `HAPIPAccessoryServer.c` that answers a request with a list of writes to the light bulb's On characteristic: each write has
a status, and the answer is 204 No Content, or 207 Multi-Status with all of them. What the characteristic allows is in `DB.c`: it is
writable, supports events, and needs neither a timed write nor an admin, and there is no write response.
-/

namespace CGuard

/-- (HAPIPAccessoryServer.c) The status code of a response that was asked for where there is none. -/
def kHAPIPAccessoryServerStatusCodeReadFromWriteOnlyCharacteristic : Int := -70405

/-- (HAPIPAccessoryProtocol.h) `HAPIPWriteValueType`, with the value where the write of a Bool looks at it. -/
inductive HAPIPWriteValue where
  | none | int | uInt (value : Nat) | float | string
  deriving DecidableEq

/-- (HAPIPAccessoryProtocol.h) `HAPIPEventNotificationState`. -/
inductive HAPIPEventNotificationState where
  | undefined | disabled | enabled
  deriving DecidableEq

/-- An entry of the list of a request: a write context of any type, with the text of its authorization data in the receive buffer,
and what the disk answers when the new state is saved. -/
structure HAPIPWriteEntry where
  value : HAPIPWriteValue
  ev : HAPIPEventNotificationState
  response : Bool
  authorizationData : Option (List UInt8)
  following : Memory
  io : Bool

/-- The session a request comes from: the characteristics it is subscribed to, by accessory and characteristic, and its timed write. -/
structure HAPIPSession where
  eventNotifications : List (Nat × Nat)
  maxEventNotifications : Nat
  timedWriteExpirationTime : Nat
  timedWritePID : Nat

/-- What a request names: the characteristic, its service and its accessory. -/
structure HAPIPTarget where
  characteristic : Nat
  service : Nat
  accessory : Nat

/-- The event part of `handle_characteristic_write_request`: the status, and the session after it. An entry that asks for nothing has
the status of an invalid value. -/
def handleEventNotification (target : HAPIPTarget) (ev : HAPIPEventNotificationState) (session : HAPIPSession) :
    Int × HAPIPSession :=
  let name := (target.accessory, target.characteristic)
  let subscribed := name ∈ session.eventNotifications
  match ev with
  | .undefined => (kHAPIPAccessoryServerStatusCodeInvalidValueInWrite, session)
  | .disabled => (kHAPIPAccessoryServerStatusCodeSuccess, { session with eventNotifications := session.eventNotifications.erase name })
  | .enabled =>
    if subscribed then (kHAPIPAccessoryServerStatusCodeSuccess, session)
    else if session.eventNotifications.length = session.maxEventNotifications then
      (kHAPIPAccessoryServerStatusCodeOutOfResources, session)
    else (kHAPIPAccessoryServerStatusCodeSuccess, { session with eventNotifications := session.eventNotifications ++ [name] })

/-- (HAPIPAccessoryServer.c) `handle_characteristic_write_request`: a subscription and a write, of which an entry has at least one. The
status of the write replaces that of the subscription. -/
def handleWriteEntry (target : HAPIPTarget) (entry : HAPIPWriteEntry) (session : HAPIPSession) (d : Device) :
    Except Fault (Int × List Event × HAPIPSession × Device) :=
  let subscribed := handleEventNotification target entry.ev session
  match entry.value with
  | .none => .ok (subscribed.1, [], subscribed.2, d)
  | .uInt value => do
    let context := { unsignedIntValue := value, authorizationData := entry.authorizationData, following := entry.following }
    let (status, events, d) ← handleCharacteristicWriteRequest entry.io target.characteristic target.service target.accessory
      context d
    if status = kHAPIPAccessoryServerStatusCodeSuccess ∧ entry.response then
      .ok (kHAPIPAccessoryServerStatusCodeReadFromWriteOnlyCharacteristic, events, subscribed.2, d)
    else .ok (status, events, subscribed.2, d)
  | _ => .ok (kHAPIPAccessoryServerStatusCodeInvalidValueInWrite, [], subscribed.2, d)

/-- (HAPIPAccessoryServer.c) `handle_characteristic_write_requests`: its return value, the statuses, and the events raised. -/
def handleCharacteristicWriteRequests (target : HAPIPTarget) :
    List HAPIPWriteEntry → HAPIPSession → Device → Except Fault (Int × List Int × List Event × HAPIPSession × Device)
  | [], session, d => .ok (0, [], [], session, d)
  | entry :: entries, session, d => do
    let (status, events, session, d) ← handleWriteEntry target entry session d
    let (r, statuses, more, session, d) ← handleCharacteristicWriteRequests target entries session d
    let r := if status ≠ kHAPIPAccessoryServerStatusCodeSuccess ∨ entry.response then -1 else r
    .ok (r, status :: statuses, events ++ more, session, d)

/-- The answer to a request. -/
inductive HAPIPResponse where
  | noContent
  | multiStatus (statuses : List Int)
  | outOfResources
  deriving DecidableEq

/-- A request after it has been parsed: its entries and its PID, with the session it comes from, the time it is received, and whether
the outbound buffer has room for a body. -/
structure HAPIPPut where
  target : HAPIPTarget
  entries : List HAPIPWriteEntry
  pid : Option Nat
  session : HAPIPSession
  now : Nat
  fits : List Int → Bool

/-- The request executes a timed write that has expired or was not prepared. -/
def HAPIPPut.rejected (put : HAPIPPut) : Bool :=
  match put.pid with
  | some pid =>
    put.session.timedWriteExpirationTime = 0 || put.session.timedWriteExpirationTime < put.now ||
      put.session.timedWritePID ≠ pid
  | none => false

/-- (HAPIPAccessoryServer.c) `write_characteristic_write_response`: the body is sent if it fits. -/
def writeCharacteristicWriteResponse (put : HAPIPPut) (statuses : List Int) : HAPIPResponse :=
  if put.fits statuses then .multiStatus statuses else .outOfResources

/-- The answer of `put_characteristics`, with the events raised, and the session and the device after it. -/
def HAPIPPut.answer (put : HAPIPPut) (d : Device) : Except Fault (HAPIPResponse × List Event × HAPIPSession × Device) :=
  if put.rejected then
    let statuses := put.entries.map fun _ => kHAPIPAccessoryServerStatusCodeInvalidValueInWrite
    .ok (writeCharacteristicWriteResponse put statuses, [], put.session, d)
  else if put.entries = [] then .ok (.noContent, [], put.session, d)
  else do
    let (r, statuses, out) ← handleCharacteristicWriteRequests put.target put.entries put.session d
    .ok (if r = 0 then .noContent else writeCharacteristicWriteResponse put statuses, out)

/-- (HAPIPAccessoryServer.c) `put_characteristics`: the answer, then the timed write is reset that the request was to execute. -/
def putCharacteristics (put : HAPIPPut) (d : Device) : Except Fault (HAPIPResponse × List Event × HAPIPSession × Device) := do
  let (response, events, session, d) ← put.answer d
  if session.timedWriteExpirationTime ≠ 0 ∧ put.pid ≠ none then
    .ok (response, events, { session with timedWriteExpirationTime := 0, timedWritePID := 0 }, d)
  else .ok (response, events, session, d)

end CGuard
