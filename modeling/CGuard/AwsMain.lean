import CGuard.App
import CGuard.Base64
import CGuard.Lib.CString

/-!
# The manufacturer's channel

`AWSMain.c`: what the subscription handler does with the payload of a message, and `CM_GetChannelStatus` of `CGuard.c`. The
payload is the memory from its first byte on: the handler is never given a length. What the handler calls is recorded in order, and
what it leaves in its local buffers, what the allocators answer and whether a thread could be created are part of its environment.
-/

namespace CGuard

open CString

/-- The characters of a text, as bytes. -/
def ascii (s : String) : List UInt8 := s.toList.map fun c => UInt8.ofNat c.toNat

/-- A call the handler makes, with what it is called with and what it returns; `none` for a call that does not return. -/
inductive Call where
  | operateDevice (value : Bool)
  | readDeviceStatus (value : Bool)
  | cmGetChannelStatus (text : Option (List UInt8))
  | csEnableChannel (created : Bool)
  | csDisableChannel (ret : Int)
  | ccAppendACL (ad : TypeAuthorizationData) (right : TypeRight) (ret : Option Int)
  | ccDeleteACL (ad : TypeAuthorizationData) (right : TypeRight) (ret : Option Int)
  deriving DecidableEq

/-- How a call of the handler ends: it returns, ends the process with `exit`, ends its thread, or goes wrong. -/
inductive Ending where
  | returned
  | exit (status : Int)
  | pthreadExit
  | fault (f : Fault)
  deriving DecidableEq

/-- What a call of the handler leaves: the device, the calls it made and how it ended. -/
structure Outcome where
  device : Device
  calls : List Call
  ending : Ending

/-- What the handler does not determine: the bytes on the stack where `ad` lies, the usable size of the block that `malloc` gives
for a number of bytes, the address it gives each new record, whether `pthread_create` succeeds, and whether the run loop takes a
callback. -/
structure HandlerEnv where
  ad : TypeAuthorizationData
  rightBlock : Int → Option Nat
  rightBlock_ge : ∀ n k, rightBlock n = some k → n ≤ k
  node : Nat → Option LinkedHeap.Addr
  threadCreated : Bool
  scheduled : Bool

/-- An environment in which nothing fails: records lie from the address `base` on, and `ad` holds NULs. -/
def HandlerEnv.plain (base : Nat) : HandlerEnv where
  ad := .uniform 0
  rightBlock n := some (2 * n.toNat)
  rightBlock_ge n k h := by cases h; omega
  node i := some (base + i)
  threadCreated := true
  scheduled := true

/-- The text of an `A` or `a` command, with its NUL. -/
def aclPayload (cmd : String) (base64ad : List UInt8) (rights : String) : List UInt8 :=
  ascii cmd ++ ascii " ad: " ++ base64ad ++ ascii " rights: " ++ ascii rights ++ [0]

/-! ## The status listing -/

/-- The `while (p1 != NULL)` of `CM_GetChannelStatus`: each record on a line of its own. -/
def listingLoop (h : LinkedHeap.Heap ACLListNode) : Nat → Option LinkedHeap.Addr → Except Fault (List UInt8)
  | _, none => .ok []
  | 0, some _ => .error .endless
  | fuel + 1, some p => do
    let (_, n) ← load h (some p)
    let rest ← listingLoop h fuel n.next
    .ok (ascii "\t" ++ n.ad.bytes ++ ascii "\n" ++ rest)

/-- (CGuard.c) `CM_GetChannelStatus`: the text it prints. -/
def cmGetChannelStatus (d : Device) : Except Fault (List UInt8) := do
  let lists ← (List.finRange rightNum).mapM fun i => do
    let lines ← listingLoop d.acl.heap d.acl.heap.keys.card (d.acl.gACL i)
    .ok (ascii "AADs granted Right " ++ ascii (toString i.val) ++ ascii " :\n" ++ lines)
  .ok (ascii (if d.gisHomeKitEnabled then "[CGuard] HomeKit is enabled!\n" else "[CGuard] HomeKit is disabled!\n")
    ++ lists.flatten)

/-! ## The rights list -/

/-- The delimiters of the rights list. -/
def rightDelimiter (b : UInt8) : Bool := b ∈ ascii " ,{}"

/-- Where the credential starts: the length of "* ad: ". -/
def adOffset : Nat := (ascii "* ad: ").length

/-- Where the rights list starts. -/
def rightsOffset : Nat := adOffset + base64AuthorizationDataLength + (ascii " rights: ").length

/-- The `int` that `atoi` reads, stored in an entry of `rightArray`. -/
def rightOfToken (token : List UInt8) : TypeRight := UInt16.ofInt (atoi token)

/-- The `for` of `get_ad_rightArray`: entry `i` is read from the token at hand, then the next token is split off. -/
def rightLoop (block : Option Nat) : (n i : Nat) → Option (List UInt8) → List UInt8 → Except Fault (List TypeRight)
  | 0, _, _, _ => .ok []
  | n + 1, i, rightSplit, text =>
    match rightSplit, block with
    | some token, some size =>
      if 2 * (i + 1) ≤ size then do
        let next := strtok rightDelimiter text
        let rights ← rightLoop block n (i + 1) next.1 next.2
        .ok (rightOfToken token :: rights)
      else .error .outOfBounds
    | _, _ => .error .nullDereference

/-- A buffer after a decoder has written to it from its start: what is written, then what was there before. -/
def TypeAuthorizationData.overwrite (prior : TypeAuthorizationData) (written : List UInt8) : TypeAuthorizationData where
  bytes := (written ++ prior.bytes.drop written.length).take authorizationDataLength
  length_eq := by
    have := prior.length_eq
    simp only [List.length_take, List.length_append, List.length_drop]
    omega

/-- A read past the end of the readable memory. -/
def inBounds {α : Type} : Option α → Except Fault α
  | some a => .ok a
  | none => .error .outOfBounds

/-- (AWSMain.c) `get_ad_rightArray`: the credential and the rights. An error of the decoder is printed and otherwise ignored. -/
def getAdRightArray (env : HandlerEnv) (payload : List UInt8) (numberofRights : Int) :
    Except Fault (TypeAuthorizationData × List TypeRight) := do
  let base64ad ← inBounds (strncpy base64AuthorizationDataLength (payload.drop adOffset))
  let ad := env.ad.overwrite (mbedtlsBase64Decode authorizationDataLength base64ad).written
  let text ← inBounds (cstring (payload.drop rightsOffset))
  let count := strtok rightDelimiter text
  let first := strtok rightDelimiter count.2
  let rights ← rightLoop (env.rightBlock numberofRights) numberofRights.toNat 0 first.1 first.2
  .ok (ad, rights)

/-! ## Changing the access control list -/

/-- The `for` of `add_ACL_records` and `remove_ACL_records`: a call that fails ends the process. -/
def recordsLoop (call : Nat → TypeRight → Acl → Except Fault (Int × Acl)) (record : TypeRight → Option Int → Call) :
    Nat → List TypeRight → Acl → Acl × List Call × Ending
  | _, [], s => (s, [], .returned)
  | i, right :: rights, s =>
    match call i right s with
    | .error f => (s, [record right none], .fault f)
    | .ok (ret, s') =>
      if ret ≠ 0 then (s', [record right (some ret)], .exit (-1))
      else
        let out := recordsLoop call record (i + 1) rights s'
        (out.1, record right (some ret) :: out.2.1, out.2.2)

/-- (AWSMain.c) `add_ACL_records`. -/
def addAclRecords (env : HandlerEnv) (ad : TypeAuthorizationData) (rightArray : List TypeRight) (s : Acl) :
    Acl × List Call × Ending :=
  recordsLoop (fun i right s => .ok (ccAppendACL (env.node i) (some ad) right s)) (Call.ccAppendACL ad) 0 rightArray s

/-- (AWSMain.c) `remove_ACL_records`. -/
def removeAclRecords (ad : TypeAuthorizationData) (rightArray : List TypeRight) (s : Acl) : Acl × List Call × Ending :=
  recordsLoop (fun _ right s => ccDeleteACL (some ad) right s) (Call.ccDeleteACL ad) 0 rightArray s

/-- What the cases `A` and `a` of the handler read before they change a list: the count, then the credential and the rights. -/
def aclArguments (env : HandlerEnv) (payload : List UInt8) : Except Fault (TypeAuthorizationData × List TypeRight) := do
  let text ← inBounds (cstring (payload.drop rightsOffset))
  let numberofRights := (sscanfInt text).getD 0
  getAdRightArray env payload numberofRights

/-- The cases `A` and `a` of the handler: `records` is called with what was read. -/
def aclCommand (env : HandlerEnv) (payload : List UInt8)
    (records : TypeAuthorizationData → List TypeRight → Acl → Acl × List Call × Ending) (d : Device) : Outcome :=
  match aclArguments env payload with
  | .error f => { device := d, calls := [], ending := .fault f }
  | .ok (ad, rightArray) =>
    let out := records ad rightArray d.acl
    { device := { d with acl := out.1 }, calls := out.2.1, ending := out.2.2 }

/-! ## The handler -/

/-- (CGuard.c) `CS_DisableChannel` of the HomeKit channel: its return value. -/
def csDisableChannel (env : HandlerEnv) : Int := if env.scheduled then 0 else -1

/-- (AWSMain.c) `iot_subscribe_callback_handler`. -/
def iotSubscribeCallbackHandler (env : HandlerEnv) (payload : List UInt8) (d : Device) : Outcome :=
  match payload.head? with
  | none => { device := d, calls := [], ending := .fault .outOfBounds }
  | some cmd =>
    if cmd = 'n'.toUInt8 then
      { device := operateDevice true d, calls := [.operateDevice true], ending := .returned }
    else if cmd = 'f'.toUInt8 then
      { device := operateDevice false d, calls := [.operateDevice false], ending := .returned }
    else if cmd = 'q'.toUInt8 then
      { device := d, calls := [.readDeviceStatus (readDeviceStatus d)], ending := .returned }
    else if cmd = 'm'.toUInt8 then
      match cmGetChannelStatus d with
      | .ok text => { device := d, calls := [.cmGetChannelStatus (some text)], ending := .returned }
      | .error f => { device := d, calls := [.cmGetChannelStatus none], ending := .fault f }
    else if cmd = 'e'.toUInt8 then { device := d, calls := [], ending := .pthreadExit }
    else if cmd = 'H'.toUInt8 then
      if d.gisHomeKitEnabled then { device := d, calls := [], ending := .returned }
      else if env.threadCreated then
        { device := { d with gisHomeKitEnabled := true }, calls := [.csEnableChannel true], ending := .returned }
      else { device := d, calls := [.csEnableChannel false], ending := .pthreadExit }
    else if cmd = 'h'.toUInt8 then
      if !d.gisHomeKitEnabled then { device := d, calls := [], ending := .returned }
      else
        { device := { d with gisHomeKitEnabled := false }, calls := [.csDisableChannel (csDisableChannel env)],
          ending := .returned }
    else if cmd = 'A'.toUInt8 then aclCommand env payload (addAclRecords env) d
    else if cmd = 'a'.toUInt8 then aclCommand env payload removeAclRecords d
    else { device := d, calls := [], ending := .returned }

end CGuard
