import CGuard.AwsMain

/-!
# Delivering a message

`aws_iot_mqtt_internal_deserialize_publish` and its helpers (the AWS IoT device SDK), and the receive buffer it works in. The
buffer is memory from its first byte on; the payload that is handed to the handler is a pointer into it, with the length beside it.
-/

namespace CGuard

/-- (aws_iot_error.h) The errors of the functions here. -/
inductive IoTError where
  | failure | mqttRxBufferTooShort | mqttDecodeRemainingLength
  deriving DecidableEq

/-- (aws_iot_mqtt_client_interface.h) `IoT_Publish_Message_Params` and the topic: the flags of the fixed header, the packet
identifier if there is one, the topic, the memory the payload pointer names, and the length of the payload. -/
structure PublishMessage where
  isDup : Bool
  qos : UInt8
  isRetained : Bool
  id : Option UInt16
  topicName : List UInt8
  payload : List UInt8
  payloadLen : Nat

/-- `PUBLISH`, the packet type. -/
def publishType : UInt8 := 3

/-- `MAX_NO_OF_REMAINING_LENGTH_BYTES`. -/
def maxNoOfRemainingLengthBytes : Nat := 4

/-- (aws_iot_mqtt_client_common_internal.c) `aws_iot_mqtt_internal_read_char`: the byte, and the memory after it. -/
def readChar : List UInt8 → Except IoTError (UInt8 × List UInt8)
  | [] => .error .failure
  | b :: bs => .ok (b, bs)

/-- (aws_iot_mqtt_client_common_internal.c) `aws_iot_mqtt_internal_read_uint16_t`. -/
def readUint16 (mem : List UInt8) : Except IoTError (UInt16 × List UInt8) := do
  let (firstByte, mem) ← readChar mem
  let (secondByte, mem) ← readChar mem
  .ok (secondByte.toUInt16 + 256 * firstByte.toUInt16, mem)

/-- (aws_iot_mqtt_client_common_internal.c) `aws_iot_mqtt_internal_decode_remaining_length_from_buffer`, with the bytes it may
still read and the multiplier of the next one. -/
def decodeRemainingLength : (bytes : Nat) → (multiplier decodedLen : Nat) → List UInt8 → Except IoTError (Nat × List UInt8)
  | 0, _, _, _ => .error .mqttDecodeRemainingLength
  | bytes + 1, multiplier, decodedLen, mem => do
    let (encodedByte, mem) ← readChar mem
    let decodedLen := decodedLen + (encodedByte &&& 127).toNat * multiplier
    if encodedByte &&& 128 ≠ 0 then decodeRemainingLength bytes (multiplier * 128) decodedLen mem else .ok (decodedLen, mem)

/-- (aws_iot_mqtt_client_publish.c) `_aws_iot_mqtt_read_string_with_len`, when `left` bytes of the packet are left: the string, the
bytes left after it and the memory after it. -/
def readStringWithLen (left : Nat) (mem : List UInt8) : Except IoTError (List UInt8 × Nat × List UInt8) := do
  if left > 1 then
    let (stringLen, mem) ← readUint16 mem
    if stringLen.toNat ≤ left - 2 ∧ stringLen.toNat ≤ mem.length then
      .ok (mem.take stringLen.toNat, left - 2 - stringLen.toNat, mem.drop stringLen.toNat)
    else .error .failure
  else .error .failure

/-- The packet identifier, which a message of quality of service 0 does not have, and the bytes of the packet left after it: a pointer
difference stored as a `size_t`. -/
def readPacketId (qos : UInt8) (left : Nat) (mem : List UInt8) : Except IoTError (Option UInt16 × Nat × List UInt8) := do
  if qos ≠ 0 then
    let (id, mem) ← readUint16 mem
    .ok (some id, (((left : Int) - 2) % 2 ^ 64).toNat, mem)
  else .ok (none, left, mem)

/-- (aws_iot_mqtt_client_publish.c) `aws_iot_mqtt_internal_deserialize_publish` of a receive buffer of `rxBufLen` bytes. -/
def deserializePublish (rxBufLen : Nat) (rxBuf : List UInt8) : Except IoTError PublishMessage := do
  if rxBufLen < 4 then .error .mqttRxBufferTooShort
  else
    let (header, mem) ← readChar rxBuf
    if (header >>> 4) &&& 0x0F ≠ publishType then .error .failure
    else
      let (decodedLen, mem) ← decodeRemainingLength maxNoOfRemainingLengthBytes 1 0 mem
      let (topicName, left, mem) ← readStringWithLen decodedLen mem
      let qos := (header &&& 6) >>> 1
      let (id, left, mem) ← readPacketId qos left mem
      .ok { isDup := header &&& 8 ≠ 0, qos := qos, isRetained := header &&& 1 ≠ 0, id := id, topicName := topicName,
            payload := mem, payloadLen := left }

/-- The receive buffer after a packet has been read into it: the rest is left over from earlier. -/
def receiveBuffer (packet before : List UInt8) : List UInt8 := packet ++ before.drop packet.length

/-- (aws_iot_mqtt_client_common_internal.c) `_aws_iot_mqtt_internal_handle_publish` for a subscription whose filter matches the
topics of `subscribed`: the handler is called with the payload pointer. -/
def handlePublish (subscribed : List UInt8 → Bool) (env : HandlerEnv) (rxBufLen : Nat) (rxBuf : List UInt8) (d : Device) :
    Option Outcome :=
  match deserializePublish rxBufLen rxBuf with
  | .error _ => none
  | .ok msg => if subscribed msg.topicName then some (iotSubscribeCallbackHandler env msg.payload d) else none

/-! ## Deserializing sees the packet only -/

/-- A function that reads from memory and leaves the rest of it reads the same from longer memory. -/
theorem readChar_append {mem mem' : List UInt8} {b : UInt8} (h : readChar mem = .ok (b, mem')) (t : List UInt8) :
    readChar (mem ++ t) = .ok (b, mem' ++ t) := by
  cases mem with
  | nil => cases h
  | cons c mem =>
    cases h
    rfl

theorem readUint16_append {mem mem' : List UInt8} {v : UInt16} (h : readUint16 mem = .ok (v, mem')) (t : List UInt8) :
    readUint16 (mem ++ t) = .ok (v, mem' ++ t) := by
  unfold readUint16 at *
  cases mem with
  | nil => cases h
  | cons a mem =>
    cases mem with
    | nil => cases h
    | cons b mem =>
      cases h
      rfl

theorem decodeRemainingLength_append (t : List UInt8) :
    ∀ {bytes multiplier decodedLen n : Nat} {mem mem' : List UInt8},
      decodeRemainingLength bytes multiplier decodedLen mem = .ok (n, mem') →
      decodeRemainingLength bytes multiplier decodedLen (mem ++ t) = .ok (n, mem' ++ t) := by
  intro bytes
  induction bytes with
  | zero => intro _ _ _ _ _ h; cases h
  | succ bytes ih =>
    intro multiplier decodedLen n mem mem' h
    cases mem with
    | nil => cases h
    | cons b mem =>
      simp only [decodeRemainingLength, List.cons_append, readChar, bind, Except.bind] at h ⊢
      split_ifs at h ⊢
      · exact ih h
      · cases h
        rfl

theorem readStringWithLen_append {left left' : Nat} {mem mem' topic : List UInt8}
    (h : readStringWithLen left mem = .ok (topic, left', mem')) (t : List UInt8) :
    readStringWithLen left (mem ++ t) = .ok (topic, left', mem' ++ t) := by
  unfold readStringWithLen at *
  split_ifs at h ⊢
  cases hr : readUint16 mem with
  | error e => rw [hr] at h; cases h
  | ok r =>
    obtain ⟨stringLen, mem₁⟩ := r
    rw [hr] at h
    rw [readUint16_append hr t]
    simp only [bind, Except.bind] at h ⊢
    split_ifs at h with hlen
    cases h
    have hlen' : stringLen.toNat ≤ left - 2 ∧ stringLen.toNat ≤ (mem₁ ++ t).length :=
      ⟨hlen.1, by rw [List.length_append]; omega⟩
    rw [if_pos hlen', List.take_append_of_le_length hlen.2, List.drop_append_of_le_length hlen.2]

theorem readPacketId_append {qos : UInt8} {left left' : Nat} {mem mem' : List UInt8} {id : Option UInt16}
    (h : readPacketId qos left mem = .ok (id, left', mem')) (t : List UInt8) :
    readPacketId qos left (mem ++ t) = .ok (id, left', mem' ++ t) := by
  unfold readPacketId at *
  split_ifs at h ⊢
  · cases hu : readUint16 mem with
    | error e => rw [hu] at h; cases h
    | ok r =>
      obtain ⟨v, mem₁⟩ := r
      rw [hu] at h
      rw [readUint16_append hu t]
      cases h
      rfl
  · cases h
    rfl

/-- A packet that deserializes in one buffer deserializes in one that is larger, or has room for the smallest packet. -/
theorem deserializePublish_size {n m : Nat} {packet : List UInt8} {msg : PublishMessage}
    (h : deserializePublish n packet = .ok msg) (hm : 4 ≤ m ∨ n ≤ m) : deserializePublish m packet = .ok msg := by
  unfold deserializePublish at *
  split_ifs at h with hn
  rw [if_neg (by omega)]
  exact h

/-- A packet that deserializes by itself deserializes the same in a buffer with other bytes after it, with those bytes after its
payload. -/
theorem deserializePublish_append {rxBufLen : Nat} {packet : List UInt8} {msg : PublishMessage}
    (h : deserializePublish rxBufLen packet = .ok msg) (t : List UInt8) :
    deserializePublish rxBufLen (packet ++ t) = .ok { msg with payload := msg.payload ++ t } := by
  unfold deserializePublish at *
  split_ifs at h ⊢
  cases hc : readChar packet with
  | error e => rw [hc] at h; cases h
  | ok r =>
    obtain ⟨header, mem⟩ := r
    rw [hc] at h
    rw [readChar_append hc t]
    simp only [bind, Except.bind] at h ⊢
    split_ifs at h ⊢
    cases hd : decodeRemainingLength maxNoOfRemainingLengthBytes 1 0 mem with
    | error e => rw [hd] at h; simp at h
    | ok r =>
      obtain ⟨decodedLen, mem₁⟩ := r
      rw [hd] at h
      rw [decodeRemainingLength_append t hd]
      simp only at h ⊢
      cases hs : readStringWithLen decodedLen mem₁ with
      | error e => rw [hs] at h; simp at h
      | ok r =>
        obtain ⟨topic, left, mem₂⟩ := r
        rw [hs] at h
        rw [readStringWithLen_append hs t]
        simp only at h ⊢
        cases hp : readPacketId ((header &&& 6) >>> 1) left mem₂ with
        | error e => rw [hp] at h; simp at h
        | ok r =>
          obtain ⟨id, left', mem₃⟩ := r
          rw [hp] at h
          rw [readPacketId_append hp t]
          cases h
          rfl

end CGuard
