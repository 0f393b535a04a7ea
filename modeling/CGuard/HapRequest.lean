import CGuard.App

/-!
# A HomeKit write on its way to the handler

`util_base64.c` and the write of a Bool characteristic in `HAPIPAccessoryServer.c`: the authorization data arrives as base64 text in
the receive buffer of the session, is decoded in place, and is passed on as a pointer into that buffer with its length.
-/

namespace CGuard

/-! ## Decoding base64 -/

/-- (util_base64.c) `GTE_MASK` and the sum it selects: `v` if the character is at or after `index`, as a `uint8_t`. -/
def gteMask (group6 index : UInt8) (v : Int) : UInt8 := if index ≤ group6 then UInt8.ofInt v else 0

/-- The character of the alphabet: its value, or nothing for an illegal character. -/
def alphabetIndex (group6 : UInt8) : Option UInt8 :=
  if group6 &&& 0x80 ≠ 0 then none
  else
    let offset : UInt8 := 64 + gteMask group6 43 (62 - 64 - 43) + gteMask group6 44 (64 - 62 - 1)
      + gteMask group6 47 (63 - 64 - 47 + 43 + 1) + gteMask group6 48 (52 - 63 - 48 + 47)
      + gteMask group6 58 (64 - 52 - 57 - 1 + 48) + gteMask group6 65 (0 - 64 - 65 + 57 + 1)
      + gteMask group6 91 (64 - 0 - 90 - 1 + 65) + gteMask group6 97 (26 - 64 - 97 + 90 + 1)
      + gteMask group6 123 (64 - 26 - 122 - 1 + 97)
    let group6 := group6 + offset
    if group6 &&& 0xC0 ≠ 0 then none else some group6

/-- The inner `for` of `util_base64_decode`: `i` characters more for this group. It answers the 24 bits, the number of paddings and
the text after them, or nothing when the group is incomplete or malformed. -/
def readGroup : (i : Nat) → List UInt8 → (group24 : UInt32) → (padding : Nat) → Option (UInt32 × Nat × List UInt8)
  | 0, text, group24, padding => some (group24, padding, text)
  | _ + 1, [], _, _ => none
  | i + 1, b :: text, group24, padding =>
    if b = 61 then if padding + 1 > 2 then none else readGroup i text (group24 <<< 6) (padding + 1)
    else if padding ≠ 0 then none
    else
      match alphabetIndex b with
      | none => none
      | some group6 => readGroup i text ((group24 <<< 6) ||| group6.toUInt32) padding

/-- The `while (encoded_len)` of `util_base64_decode`, group after group: the error, and the bytes written. -/
def decodeGroups : (fuel : Nat) → List UInt8 → (capacity : Nat) → HAPError × List UInt8
  | _, [], _ => (.none, [])
  | 0, _ :: _, _ => (.invalidData, [])
  | fuel + 1, text, capacity =>
    match readGroup 4 text 0 0 with
    | none => (.invalidData, [])
    | some (group24, padding, rest) =>
      let bytes := [(group24 >>> 16).toUInt8, (group24 >>> 8).toUInt8, group24.toUInt8].take (3 - padding)
      if capacity < bytes.length then (.outOfResources, bytes.take capacity)
      else if padding ≠ 0 ∧ rest ≠ [] then (.invalidData, bytes)
      else
        let (err, more) := decodeGroups fuel rest (capacity - bytes.length)
        (err, bytes ++ more)

/-- (util_base64.c) `util_base64_decode`: the error, and the bytes written to the buffer. -/
def utilBase64Decode (text : List UInt8) (capacity : Nat) : HAPError × List UInt8 := decodeGroups text.length text capacity

/-! ## The request -/

/-- (HAPIPAccessoryServer.c) The status codes of a write. -/
def kHAPIPAccessoryServerStatusCodeSuccess : Int := 0
def kHAPIPAccessoryServerStatusCodeUnableToPerformOperation : Int := -70402
def kHAPIPAccessoryServerStatusCodeResourceIsBusy : Int := -70403
def kHAPIPAccessoryServerStatusCodeOutOfResources : Int := -70407
def kHAPIPAccessoryServerStatusCodeInvalidValueInWrite : Int := -70410
def kHAPIPAccessoryServerStatusCodeInsufficientAuthorization : Int := -70411

/-- (HAPIPAccessoryServer.c) `ConvertCharacteristicWriteErrorToStatusCode`. -/
def convertCharacteristicWriteErrorToStatusCode : HAPError → Int
  | .none => kHAPIPAccessoryServerStatusCodeSuccess
  | .unknown | .invalidState => kHAPIPAccessoryServerStatusCodeUnableToPerformOperation
  | .invalidData => kHAPIPAccessoryServerStatusCodeInvalidValueInWrite
  | .outOfResources => kHAPIPAccessoryServerStatusCodeOutOfResources
  | .notAuthorized => kHAPIPAccessoryServerStatusCodeInsufficientAuthorization
  | .busy => kHAPIPAccessoryServerStatusCodeResourceIsBusy

/-- (HAPIPAccessoryServer.c) What a write context of an unsigned value holds: the value, and the text of the authorization data, if
the request has one, in the receive buffer that goes on with `following`. -/
structure HAPIPWriteContext where
  unsignedIntValue : Nat
  authorizationData : Option (List UInt8)
  following : Memory

/-- Authorization data that lies in a buffer: its own bytes, and what the buffer holds after them. -/
def AuthorizationData.inBuffer (own : Option (List UInt8)) (following : Memory) : AuthorizationData where
  bytes := own.map fun bytes => Stream'.appendStream' bytes following
  numBytes := (own.map List.length).getD 0

/-- (HAPIPAccessoryServer.c) `handle_characteristic_write_request` for a write of an unsigned value to the light bulb's On
characteristic: its status, the events raised and the device after it. The text is decoded in place, so that the bytes after the
credential are the rest of the text and then the rest of the buffer. -/
def handleCharacteristicWriteRequest (io : Bool) (characteristic service accessory : Nat) (context : HAPIPWriteContext)
    (d : Device) : Except Fault (Int × List Event × Device) :=
  let decoded := (context.authorizationData.getD []).length |> utilBase64Decode (context.authorizationData.getD [])
  if decoded.1 ≠ .none then .ok (kHAPIPAccessoryServerStatusCodeInvalidValueInWrite, [], d)
  else if context.unsignedIntValue ≤ 1 then
    let rest := (context.authorizationData.getD []).drop decoded.2.length
    let request : HAPBoolCharacteristicWriteRequest :=
      { characteristic := characteristic, service := service, accessory := accessory
        authorizationData := .inBuffer (context.authorizationData.map fun _ => decoded.2) (Stream'.appendStream' rest context.following) }
    (handleLightBulbOnWrite io request (context.unsignedIntValue = 1) d).map fun r =>
      (convertCharacteristicWriteErrorToStatusCode r.1, r.2)
  else .ok (kHAPIPAccessoryServerStatusCodeInvalidValueInWrite, [], d)

end CGuard
