import CGuard.HapServer
import CGuard.Lemmas.Tlv

/-!
# The pairings of the accessory

`HAPPairing.c`, `HAPPairingPairings.c` and `HAPAccessoryServerCleanupPairings`: each pairing is a file of the domain of the pairings, whose
key is the slot of the pairing, and an administrator adds, removes and lists pairings with requests over its session. What the disk
answers, and in which order it lists a directory, is an argument.
-/

namespace CGuard

/-! ## The directory of the store -/

/-- The enumerations of the pairings that a request can make. -/
inductive Enumeration where
  | findPairing | findAdminPairing | purgeDomain | listPairings
  deriving DecidableEq

/-- The accesses to the disk that a request can make; an enumeration opens the directory and then uses files. -/
inductive DiskAccess where
  | ownPairing (again : Bool)
  | directory (e : Enumeration)
  | file (e : Enumeration) (key : UInt8)
  | slot (key : UInt8)
  | set
  | remove
  | bleBroadcastParameters
  deriving DecidableEq

/-- The order in which a directory lists the keys of a domain. -/
abbrev DirectoryOrder : Type := { keys : List UInt8 // keys.Nodup ∧ ∀ key, key ∈ keys }

/-- What the disk answers during a request, and what it has left if it does not answer the write of a record. -/
structure Disk where
  answers : DiskAccess → Bool
  order : Enumeration → DirectoryOrder
  failedSet : FailedWrite

/-- (HAPPlatformKeyValueStore.c) `HAPPlatformKeyValueStoreRemove`: a file that is absent is no error. -/
def hapPlatformKeyValueStoreRemove (io : Bool) (s : Store) (domain key : UInt8) : HAPError × Store :=
  if io then (.none, s.map fun files => files.erase (domain, key)) else (.unknown, s)

/-- The loop of `enumdir` over the files of a domain: the callback answers whether to go on. -/
def enumdir {γ : Type} (callback : γ → UInt8 → Except HomeKitError (HAPError × γ × Bool)) :
    γ → List UInt8 → Except HomeKitError (HAPError × γ)
  | c, [] => .ok (.none, c)
  | c, key :: keys =>
    match callback c key with
    | .error e => .error e
    | .ok (.none, c, true) => enumdir callback c keys
    | .ok (err, c, _) => .ok (err, c)

/-- The keys of the files of a domain, in the order of the directory. -/
def Store.keysOf (s : Store) (domain : UInt8) (order : DirectoryOrder) : List UInt8 :=
  order.1.filter fun key => (s.file (domain, key)).isSome

/-- (HAPPlatformKeyValueStore.c) `HAPPlatformKeyValueStoreEnumerate` of the pairings. -/
def enumeratePairings {γ : Type} (w : Disk) (e : Enumeration) (s : Store)
    (callback : γ → UInt8 → Except HomeKitError (HAPError × γ × Bool)) (c : γ) : Except HomeKitError (HAPError × γ) :=
  if w.answers (.directory e) then enumdir callback c (s.keysOf kHAPKeyValueStoreDomainPairings (w.order e)) else .ok (.unknown, c)

/-- (HAPPlatformKeyValueStore.c) `HAPPlatformKeyValueStorePurgeDomain` of the pairings: a failure leaves the files that have not been
removed yet. -/
def purgePairings (w : Disk) (s : Store) : Except HomeKitError (HAPError × Store) :=
  enumeratePairings w .purgeDomain s (fun s key =>
    let r := hapPlatformKeyValueStoreRemove (w.answers (.file .purgeDomain key)) s kHAPKeyValueStoreDomainPairings key
    .ok (r.1, r.2, true)) s

/-! ## Records -/

/-- (HAPPairing.h) `HAPPairing`: the identifier has 36 bytes, of which `numIdentifierBytes` count, and the public key has 32. -/
structure HAPPairing where
  identifier : List UInt8
  numIdentifierBytes : UInt8
  publicKey : List UInt8
  permissions : UInt8
  deriving DecidableEq

/-- `sizeof pairingBytes`. -/
def numPairingBytes : Nat := 70

/-- Bytes that are copied to the start of a zeroed buffer. -/
def zeroPadded (n : Nat) (bytes : List UInt8) : List UInt8 := bytes ++ List.replicate (n - bytes.length) 0

/-- The record of a pairing, `pairingBytes`. -/
def HAPPairing.pairingBytes (pairing : HAPPairing) : List UInt8 :=
  zeroPadded 36 (pairing.identifier.take pairing.numIdentifierBytes.toNat) ++
    pairing.numIdentifierBytes :: (pairing.publicKey ++ [pairing.permissions])

/-- The pairing of a record. -/
def HAPPairing.ofBytes (pairingBytes : List UInt8) : HAPPairing where
  identifier := pairingBytes.take 36
  numIdentifierBytes := pairingBytes.getD 36 0
  publicKey := (pairingBytes.drop 37).take 32
  permissions := pairingBytes.getD 69 0

/-- A pairing with these values. -/
def HAPPairing.ofValues (identifier publicKey : List UInt8) (permissions : UInt8) : HAPPairing where
  identifier := zeroPadded 36 identifier
  numIdentifierBytes := UInt8.ofNat identifier.length
  publicKey := publicKey
  permissions := permissions

/-- The record of a slot as the functions load it, if there is one; it must have the size of a record. -/
def loadPairing (io : Bool) (s : Store) (key : UInt8) : Except HAPError (Option HAPPairing) :=
  match hapPlatformKeyValueStoreGet io s kHAPKeyValueStoreDomainPairings key numPairingBytes with
  | .error err => .error err
  | .ok none => .ok none
  | .ok (some bytes) => if bytes.length ≠ numPairingBytes then .error .unknown else .ok (some (.ofBytes bytes))

/-- (HAPPairing.c) `FindPairingEnumerateCallback`. -/
def findPairingEnumerateCallback (w : Disk) (s : Store) (identifier : List UInt8) (found : Option (UInt8 × HAPPairing)) (key : UInt8) :
    Except HomeKitError (HAPError × Option (UInt8 × HAPPairing) × Bool) :=
  match loadPairing (w.answers (.file .findPairing key)) s key with
  | .error err => .ok (err, found, true)
  | .ok none => .error .assertion
  | .ok (some pairing) =>
    if pairing.numIdentifierBytes ≠ UInt8.ofNat identifier.length then .ok (.none, found, true)
    else if pairing.identifier.take pairing.numIdentifierBytes.toNat ≠
        (zeroPadded 36 identifier).take pairing.numIdentifierBytes.toNat then
      .ok (.none, found, true)
    else .ok (.none, some (key, pairing), false)

/-- (HAPPairing.c) `HAPPairingFind`: the slot and the pairing of an identifier of at most 36 bytes. -/
def hapPairingFind (w : Disk) (s : Store) (identifier : List UInt8) :
    Except HomeKitError (HAPError × Option (UInt8 × HAPPairing)) :=
  enumeratePairings w .findPairing s (findPairingEnumerateCallback w s identifier) none

/-- (HAPAccessoryServer.c) `FindAdminPairingEnumerateContext`. -/
structure FindAdminPairingEnumerateContext where
  hasPairings : Bool
  adminFound : Bool

/-- The permission bit of an administrator. -/
def HAPPairing.isAdmin (pairing : HAPPairing) : Bool := pairing.permissions &&& 1 ≠ 0

/-- (HAPAccessoryServer.c) `FindAdminPairingEnumerateCallback`. -/
def findAdminPairingEnumerateCallback (w : Disk) (s : Store) (c : FindAdminPairingEnumerateContext) (key : UInt8) :
    Except HomeKitError (HAPError × FindAdminPairingEnumerateContext × Bool) :=
  match loadPairing (w.answers (.file .findAdminPairing key)) s key with
  | .error err => .ok (err, c, true)
  | .ok none => .error .assertion
  | .ok (some pairing) =>
    if pairing.isAdmin then .ok (.none, ⟨true, true⟩, false) else .ok (.none, ⟨true, c.adminFound⟩, true)

/-- (HAPAccessoryServer.c) `HAPAccessoryServerCleanupPairings`, with what it does on the disk: if there is no administrator, all pairings
are removed, and the parameters of the broadcasts. -/
def cleanupPairings (w : Disk) (s : Store) : Except HomeKitError (HAPError × Store) := do
  let (err, c) ← enumeratePairings w .findAdminPairing s (findAdminPairingEnumerateCallback w s) ⟨false, false⟩
  if err ≠ .none then .ok (err, s)
  else if c.adminFound then .ok (.none, s)
  else do
    let (err, s) ← if c.hasPairings then purgePairings w s else .ok (.none, s)
    if err ≠ .none then .ok (err, s)
    else .ok (hapPlatformKeyValueStoreRemove (w.answers .bleBroadcastParameters) s kHAPKeyValueStoreDomainConfiguration 0x41)

/-! ## Requests -/

/-- (HAPPairing.h) `HAPPairingMethod`, the methods of the pairings. -/
def kHAPPairingMethodAddPairing : UInt8 := 0x03
def kHAPPairingMethodRemovePairing : UInt8 := 0x04
def kHAPPairingMethodListPairings : UInt8 := 0x05

/-- (HAPPairing.h) `HAPPairingError`, the errors of the pairings. -/
def kHAPPairingErrorUnknown : UInt8 := 0x01
def kHAPPairingErrorAuthentication : UInt8 := 0x02
def kHAPPairingErrorMaxPeers : UInt8 := 0x04

/-- (HAPPairing.h) `HAPPairingTLVType`, the types of the pairings. -/
def kHAPPairingTLVTypeMethod : UInt8 := 0x00
def kHAPPairingTLVTypeIdentifier : UInt8 := 0x01
def kHAPPairingTLVTypePublicKey : UInt8 := 0x03
def kHAPPairingTLVTypeState : UInt8 := 0x06
def kHAPPairingTLVTypeError : UInt8 := 0x07
def kHAPPairingTLVTypePermissions : UInt8 := 0x0B
def kHAPPairingTLVTypeSeparator : UInt8 := 0xFF

/-- (HAPSession.h) `state.pairings`; the identifier of the pairing to remove by its first `removedPairingIDLength` bytes. -/
structure PairingsState where
  state : UInt8
  method : UInt8
  error : UInt8
  removedPairingID : List UInt8
  deriving DecidableEq

/-- (HAPSession.h) `HAPSession`, what the requests for the pairings use of it: `hap.active`, `hap.pairingID`, which is negative without a
pairing, and `state.pairings`. -/
structure HAPSession where
  active : Bool
  pairingID : Option UInt8
  pairings : PairingsState
  deriving DecidableEq

/-- (HAPPairingPairings.c) `HAPPairingPairingsReset`. -/
def hapPairingPairingsReset (session : HAPSession) : HAPSession := { session with pairings := ⟨0, 0, 0, []⟩ }

/-- The values of the TLVs of a request. -/
structure PairingTLVs where
  method : Option (List UInt8)
  identifier : Option (List UInt8)
  publicKey : Option (List UInt8)
  state : Option (List UInt8)
  permissions : Option (List UInt8)

/-- The types that `HAPPairingPairingsHandleWrite` asks for. -/
def pairingTLVTypes : RequestedTypes :=
  ⟨[kHAPPairingTLVTypeMethod, kHAPPairingTLVTypeIdentifier, kHAPPairingTLVTypePublicKey, kHAPPairingTLVTypeState,
    kHAPPairingTLVTypePermissions], by decide⟩

/-- The value of the item of a type, which is NULL if it has not been found. -/
def itemValue (m : Mem) (items : List HAPTLV) (type : UInt8) : Option (List UInt8) :=
  (items.find? fun item => item.type = type).bind fun item => item.bytes.map fun p => ByteMemory.slice m p item.numBytes

/-- The values that `HAPTLVReaderGetAll` has found. -/
def PairingTLVs.ofItems (m : Mem) (items : List HAPTLV) : PairingTLVs where
  method := itemValue m items kHAPPairingTLVTypeMethod
  identifier := itemValue m items kHAPPairingTLVTypeIdentifier
  publicKey := itemValue m items kHAPPairingTLVTypePublicKey
  state := itemValue m items kHAPPairingTLVTypeState
  permissions := itemValue m items kHAPPairingTLVTypePermissions

/-- A value of one byte that is one of the valid ones. -/
def validateByte (valid : UInt8 → Bool) : Option (List UInt8) → Except HAPError UInt8
  | some [b] => if valid b then .ok b else .error .invalidData
  | _ => .error .invalidData

/-- "Validate kTLVType_Identifier." -/
def validateIdentifier : Option (List UInt8) → Except HAPError (List UInt8)
  | some identifier => if 36 < identifier.length then .error .invalidData else .ok identifier
  | none => .error .invalidData

/-- "Validate kTLVType_PublicKey." -/
def validatePublicKey : Option (List UInt8) → Except HAPError (List UInt8)
  | some publicKey => if publicKey.length ≠ 32 then .error .invalidData else .ok publicKey
  | none => .error .invalidData

/-- The state and the method of a request M1. -/
def validateM1 (method : UInt8) (tlvs : PairingTLVs) : Except HAPError Unit := do
  let _ ← validateByte (· == 1) tlvs.state
  let _ ← validateByte (· == method) tlvs.method
  .ok ()

/-- The slots that a pairing can be added to. -/
def pairingSlots (maxPairings : UInt8) : List UInt8 := (List.range maxPairings.toNat).map UInt8.ofNat

/-- "Look for free pairing slot." -/
def findFreeSlot (w : Disk) (s : Store) : List UInt8 → Except HAPError (Option UInt8)
  | [] => .ok none
  | key :: keys =>
    match loadPairing (w.answers (.slot key)) s key with
    | .error err => .error err
    | .ok none => .ok (some key)
    | .ok (some _) => findFreeSlot w s keys

/-- The part of `HAPPairingPairingsAddPairingProcessM1` after the validation: the error of the function, the store, and the error that
the session answers with, which is 0 if there is none. -/
def addPairing (w : Disk) (maxPairings : UInt8) (s : Store) (identifier publicKey : List UInt8) (permissions : UInt8) :
    Except HomeKitError (HAPError × Store × UInt8) := do
  let (err, found) ← hapPairingFind w s identifier
  if err ≠ .none then .ok (err, s, 0)
  else
    match found with
    | some (key, pairing) =>
      if pairing.publicKey ≠ publicKey then .ok (.none, s, kHAPPairingErrorUnknown)
      else
        match hapPlatformKeyValueStoreSet (w.answers .set) w.failedSet s kHAPKeyValueStoreDomainPairings key
          { pairing with permissions := permissions }.pairingBytes with
        | (.none, s) => do
          let (err, s) ← cleanupPairings w s
          .ok (.none, s, if err ≠ .none then kHAPPairingErrorUnknown else 0)
        | (err, s) => .ok (err, s, 0)
    | none =>
      match findFreeSlot w s (pairingSlots maxPairings) with
      | .error err => .ok (err, s, 0)
      | .ok none => .ok (.none, s, kHAPPairingErrorMaxPeers)
      | .ok (some key) =>
        match hapPlatformKeyValueStoreSet (w.answers .set) w.failedSet s kHAPKeyValueStoreDomainPairings key
          (HAPPairing.ofValues identifier publicKey permissions).pairingBytes with
        | (.none, s) => .ok (.none, s, 0)
        | (_, s) => .ok (.none, s, kHAPPairingErrorUnknown)

/-- The validation of `HAPPairingPairingsAddPairingProcessM1`: the identifier, the public key and the permissions. -/
def validateAddPairingM1 (tlvs : PairingTLVs) : Except HAPError (List UInt8 × List UInt8 × UInt8) := do
  validateM1 kHAPPairingMethodAddPairing tlvs
  let identifier ← validateIdentifier tlvs.identifier
  let publicKey ← validatePublicKey tlvs.publicKey
  let permissions ← validateByte (· &&& ~~~1 == 0) tlvs.permissions
  .ok (identifier, publicKey, permissions)

/-- (HAPPairingPairings.c) `HAPPairingPairingsAddPairingProcessM1`. -/
def hapPairingPairingsAddPairingProcessM1 (w : Disk) (maxPairings : UInt8) (s : Store) (session : HAPSession) (tlvs : PairingTLVs) :
    Except HomeKitError (HAPError × Store × HAPSession) :=
  match validateAddPairingM1 tlvs with
  | .error err => .ok (err, s, session)
  | .ok (identifier, publicKey, permissions) => do
    let (err, s, error) ← addPairing w maxPairings s identifier publicKey permissions
    .ok (err, s, { session with pairings.error := error })

/-- The validation of `HAPPairingPairingsRemovePairingProcessM1`: the identifier. -/
def validateRemovePairingM1 (tlvs : PairingTLVs) : Except HAPError (List UInt8) := do
  validateM1 kHAPPairingMethodRemovePairing tlvs
  validateIdentifier tlvs.identifier

/-- (HAPPairingPairings.c) `HAPPairingPairingsRemovePairingProcessM1`. -/
def hapPairingPairingsRemovePairingProcessM1 (session : HAPSession) (tlvs : PairingTLVs) : HAPError × HAPSession :=
  match validateRemovePairingM1 tlvs with
  | .error err => (err, session)
  | .ok identifier => (.none, { session with pairings.removedPairingID := identifier })

/-- (HAPPairingPairings.c) `HAPPairingPairingsListPairingsProcessM1`. -/
def hapPairingPairingsListPairingsProcessM1 (tlvs : PairingTLVs) : HAPError :=
  match validateM1 kHAPPairingMethodListPairings tlvs with
  | .error err => err
  | .ok _ => .none

/-- "Admin access only.": whether the controller of the session is an administrator. -/
def adminAccessOnly (io : Bool) (s : Store) (session : HAPSession) : Except HomeKitError (Except HAPError Bool) :=
  if session.active then
    match session.pairingID with
    | none => .error .assertion
    | some key =>
      match loadPairing io s key with
      | .error err => .ok (.error err)
      | .ok none => .ok (.error .unknown)
      | .ok (some pairing) => .ok (.ok pairing.isAdmin)
  else .ok (.ok false)

/-- The request M1 by its method. -/
def processM1 (w : Disk) (maxPairings : UInt8) (s : Store) (session : HAPSession) (tlvs : PairingTLVs) :
    Except HomeKitError (HAPError × Store × HAPSession) := do
  let (err, s, session) ←
    if session.pairings.method = kHAPPairingMethodAddPairing then hapPairingPairingsAddPairingProcessM1 w maxPairings s session tlvs
    else if session.pairings.method = kHAPPairingMethodRemovePairing then
      let (err, session) := hapPairingPairingsRemovePairingProcessM1 session tlvs
      .ok (err, s, session)
    else .ok (hapPairingPairingsListPairingsProcessM1 tlvs, s, session)
  hapAssert (err = .none ∨ err = .invalidData)
  .ok (err, s, session)

/-- The method of a request, which must be one of the pairings. -/
def validateMethod (tlvs : PairingTLVs) : Except HAPError UInt8 :=
  validateByte (fun method => method == kHAPPairingMethodAddPairing || method == kHAPPairingMethodRemovePairing ||
    method == kHAPPairingMethodListPairings) tlvs.method

/-- The first state of `HAPPairingPairingsHandleWrite`. -/
def handleWriteM1 (w : Disk) (maxPairings : UInt8) (s : Store) (session : HAPSession) (tlvs : PairingTLVs) :
    Except HomeKitError (HAPError × Store × HAPSession) :=
  let session := { session with pairings.state := session.pairings.state + 1 }
  match validateMethod tlvs with
  | .error err => .ok (err, s, session)
  | .ok method => do
    let session := { session with pairings.method := method }
    match ← adminAccessOnly (w.answers (.ownPairing false)) s session with
    | .error err => .ok (err, s, session)
    | .ok false => .ok (.none, s, { session with pairings.error := kHAPPairingErrorAuthentication })
    | .ok true => processM1 w maxPairings s session tlvs

/-- (HAPPairingPairings.c) `HAPPairingPairingsHandleWrite`. -/
def hapPairingPairingsHandleWrite (w : Disk) (maxPairings : UInt8) (s : Store) (session : HAPSession) (m : Mem) (requestReader : HAPTLVReader) :
    Except HomeKitError (HAPError × Store × HAPSession) :=
  match hapTLVReaderGetAll m requestReader pairingTLVTypes with
  | .error err => do
    hapAssert (err = .invalidData)
    .ok (err, s, hapPairingPairingsReset session)
  | .ok (items, m, _) => do
    let (err, s, session) ←
      if session.pairings.state = 0 then handleWriteM1 w maxPairings s session (.ofItems m items) else .ok (.invalidState, s, session)
    .ok (err, s, if err ≠ .none then hapPairingPairingsReset session else session)

/-! ## Responses -/

/-- A `HAPTLVWriter` by the room that it has and the TLVs that it has written, whose text is in its buffer. -/
structure WrittenTLVs where
  maxBytes : Nat
  tlvs : List (UInt8 × List UInt8)

/-- `HAPTLVWriterAppend`, one TLV after the other, up to the first that does not fit. -/
def WrittenTLVs.append (writer : WrittenTLVs) : List (UInt8 × List UInt8) → HAPError × WrittenTLVs
  | [] => (.none, writer)
  | tlv :: tlvs =>
    if (encodeTLVs (writer.tlvs ++ [tlv])).length ≤ writer.maxBytes then
      WrittenTLVs.append { writer with tlvs := writer.tlvs ++ [tlv] } tlvs
    else (.outOfResources, writer)

/-- The TLV of the state of the session. -/
def stateTLV (session : HAPSession) : UInt8 × List UInt8 := (kHAPPairingTLVTypeState, [session.pairings.state])

/-- (HAPPairingPairings.c) `HAPPairingPairingsAddPairingGetM2`. -/
def hapPairingPairingsAddPairingGetM2 (session : HAPSession) (responseWriter : WrittenTLVs) : HAPError × HAPSession × WrittenTLVs :=
  match responseWriter.append [stateTLV session] with
  | (.none, responseWriter) => (.none, hapPairingPairingsReset session, responseWriter)
  | (err, responseWriter) => (err, session, responseWriter)

/-- (HAPPairingPairings.c) `HAPPairingPairingsRemovePairingGetM2`: a pairing that does not exist is no error. -/
def hapPairingPairingsRemovePairingGetM2 (w : Disk) (s : Store) (session : HAPSession) (responseWriter : WrittenTLVs) :
    Except HomeKitError (HAPError × Store × HAPSession × WrittenTLVs) := do
  let (err, found) ← hapPairingFind w s session.pairings.removedPairingID
  if err ≠ .none then .ok (err, s, session, responseWriter)
  else do
    let (error, s) ←
      match found with
      | none => .ok (0, s)
      | some (key, _) =>
        match hapPlatformKeyValueStoreRemove (w.answers .remove) s kHAPKeyValueStoreDomainPairings key with
        | (.none, s) => do
          let (err, s) ← cleanupPairings w s
          .ok (if err ≠ .none then kHAPPairingErrorUnknown else 0, s)
        | (_, s) => .ok (kHAPPairingErrorUnknown, s)
    if error ≠ 0 then .ok (.none, s, { session with pairings.error := error }, responseWriter)
    else
      match responseWriter.append [stateTLV session] with
      | (.none, responseWriter) => .ok (.none, s, hapPairingPairingsReset session, responseWriter)
      | (err, responseWriter) => .ok (err, s, session, responseWriter)

/-- (HAPPairingPairings.c) `ListPairingsEnumerateContext`. -/
structure ListPairingsEnumerateContext where
  responseWriter : WrittenTLVs
  needsSeparator : Bool
  err : HAPError

/-- The TLVs of a pairing that is listed. -/
def HAPPairing.tlvs (pairing : HAPPairing) : List (UInt8 × List UInt8) :=
  [(kHAPPairingTLVTypeIdentifier, pairing.identifier.take pairing.numIdentifierBytes.toNat),
    (kHAPPairingTLVTypePublicKey, pairing.publicKey), (kHAPPairingTLVTypePermissions, [pairing.permissions])]

/-- (HAPPairingPairings.c) `ListPairingsEnumerateCallback`. -/
def listPairingsEnumerateCallback (w : Disk) (s : Store) (c : ListPairingsEnumerateContext) (key : UInt8) :
    Except HomeKitError (HAPError × ListPairingsEnumerateContext × Bool) :=
  match loadPairing (w.answers (.file .listPairings key)) s key with
  | .error err => .ok (err, c, true)
  | .ok none => .error .assertion
  | .ok (some pairing) =>
    if 36 < pairing.numIdentifierBytes.toNat then .ok (.unknown, c, true)
    else
      let separator := if c.needsSeparator then [(kHAPPairingTLVTypeSeparator, [])] else []
      let (err, responseWriter) := c.responseWriter.append (separator ++ pairing.tlvs)
      .ok (.none, ⟨responseWriter, true, err⟩, err = .none)

/-- (HAPPairingPairings.c) `HAPPairingPairingsListPairingsGetM2`. -/
def hapPairingPairingsListPairingsGetM2 (w : Disk) (s : Store) (session : HAPSession) (responseWriter : WrittenTLVs) :
    Except HomeKitError (HAPError × HAPSession × WrittenTLVs) :=
  match responseWriter.append [stateTLV session] with
  | (.none, responseWriter) => do
    let (err, c) ← enumeratePairings w .listPairings s (listPairingsEnumerateCallback w s) ⟨responseWriter, false, .none⟩
    if err ≠ .none then .ok (err, session, c.responseWriter)
    else if c.err ≠ .none then .ok (c.err, session, c.responseWriter)
    else .ok (.none, hapPairingPairingsReset session, c.responseWriter)
  | (err, responseWriter) => .ok (err, session, responseWriter)

/-- (HAPPairingPairings.c) `HAPPairingPairingsGetErrorResponse`, and the reset of the session. -/
def errorResponse (s : Store) (session : HAPSession) (responseWriter : WrittenTLVs) : HAPError × Store × HAPSession × WrittenTLVs :=
  let r := responseWriter.append [stateTLV session, (kHAPPairingTLVTypeError, [session.pairings.error])]
  (r.1, s, hapPairingPairingsReset session, r.2)

/-- The response M2 by the method. -/
def getM2 (w : Disk) (s : Store) (session : HAPSession) (responseWriter : WrittenTLVs) :
    Except HomeKitError (HAPError × Store × HAPSession × WrittenTLVs) := do
  let (err, s, session, responseWriter) ←
    if session.pairings.method = kHAPPairingMethodAddPairing then
      let (err, session, responseWriter) := hapPairingPairingsAddPairingGetM2 session responseWriter
      .ok (err, s, session, responseWriter)
    else if session.pairings.method = kHAPPairingMethodRemovePairing then hapPairingPairingsRemovePairingGetM2 w s session responseWriter
    else do
      let (err, session, responseWriter) ← hapPairingPairingsListPairingsGetM2 w s session responseWriter
      .ok (err, s, session, responseWriter)
  hapAssert (err = .none ∨ err = .outOfResources)
  .ok (err, s, session, responseWriter)

/-- The second state of `HAPPairingPairingsHandleRead`. -/
def handleReadM2 (w : Disk) (s : Store) (session : HAPSession) (responseWriter : WrittenTLVs) :
    Except HomeKitError (HAPError × Store × HAPSession × WrittenTLVs) := do
  let session := { session with pairings.state := session.pairings.state + 1 }
  match ← adminAccessOnly (w.answers (.ownPairing true)) s session with
  | .error err => .ok (err, s, session, responseWriter)
  | .ok false => .ok (.none, s, { session with pairings.error := kHAPPairingErrorAuthentication }, responseWriter)
  | .ok true => getM2 w s session responseWriter

/-- (HAPPairingPairings.c) `HAPPairingPairingsHandleRead`. -/
def hapPairingPairingsHandleRead (w : Disk) (s : Store) (session : HAPSession) (responseWriter : WrittenTLVs) :
    Except HomeKitError (HAPError × Store × HAPSession × WrittenTLVs) :=
  if session.pairings.error ≠ 0 then
    .ok (errorResponse s { session with pairings.state := session.pairings.state + 1 } responseWriter)
  else do
    let (err, s, session, responseWriter) ←
      if session.pairings.state = 1 then handleReadM2 w s session responseWriter else .ok (.invalidState, s, session, responseWriter)
    if err ≠ .none then .ok (err, s, hapPairingPairingsReset session, responseWriter)
    else if session.pairings.error ≠ 0 then .ok (errorResponse s session responseWriter)
    else .ok (.none, s, session, responseWriter)

/-! ## A request over a session -/

/-- What `handle_pairing_data` answers with: the TLVs of the response, or a status. -/
inductive PairingsResponse where
  | ok (tlvs : List (UInt8 × List UInt8))
  | badRequest
  | internalServerError
  deriving DecidableEq

/-- The content of a request: the scratch buffer that it has been copied to, which has `maxScratchBufferBytes` bytes, and its length. -/
structure PairingsContent where
  scratch : Mem
  scratchBuffer : Nat
  maxScratchBufferBytes : Nat
  numBytes : Nat

/-- (HAPSession.c) `HAPSessionHandlePairingsRead`, and what `handle_pairing_data` answers with it. -/
def readPairings (w : Disk) (s : Store) (session : HAPSession) (maxScratchBufferBytes : Nat) :
    Except HomeKitError (PairingsResponse × Store × HAPSession) := do
  let (err, s, session, responseWriter) ← hapPairingPairingsHandleRead w s session ⟨maxScratchBufferBytes, []⟩
  if err ≠ .none then do
    hapAssert (err = .invalidState ∨ err = .outOfResources)
    .ok (.internalServerError, s, session)
  else .ok (.ok responseWriter.tlvs, s, session)

/-- (HAPIPAccessoryServer.c) `handle_pairing_data` of a request for the pairings: `HAPSessionHandlePairingsWrite` (HAPSession.c), and if it
returns, `HAPSessionHandlePairingsRead`. The content has a length and fits into the scratch buffer, and the response fits into the
outbound buffer of the session: the checks of these are left out. So is that other sessions whose pairing has been removed are closed. -/
def handlePairings (w : Disk) (maxPairings : UInt8) (s : Store) (session : HAPSession) (content : PairingsContent) :
    Except HomeKitError (PairingsResponse × Store × HAPSession) := do
  let (err, s, session) ← hapPairingPairingsHandleWrite w maxPairings s session content.scratch
    ⟨content.scratchBuffer, content.numBytes, content.maxScratchBufferBytes⟩
  if err ≠ .none then do
    hapAssert (err = .invalidState ∨ err = .invalidData)
    .ok (.badRequest, s, session)
  else readPairings w s session content.maxScratchBufferBytes

end CGuard
