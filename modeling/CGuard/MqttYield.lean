import CGuard.Lib.Machine
import CGuard.Mqtt

/-!
# The receive loop

`AWSMainFunction` calls `aws_iot_mqtt_yield` until it returns a code that the guard of its loop does not list. A yield reads packet after
packet of the connection until its timer has expired. All of its reads share that timer, so what they get is a number of bytes: the ones
that arrive before the timer is found to have expired. Whether a timer has expired, what a write returns and what a reconnection returns
are part of the environment.
-/

namespace CGuard

open Machine

/-- (aws_iot_error.h) `IoT_Error_t`, the codes of the functions here. -/
inductive IoTReturn where
  | success | networkAttemptingReconnect | networkReconnected | mqttNothingToRead | failure | networkSslWriteError
  | networkSslWriteTimeout | networkSslReadError | networkSslReadTimeout | networkDisconnected | networkReconnectTimedOut
  | networkSslNothingToRead | mqttTxBufferTooShort | mqttRxMessagePacketTypeInvalid | mqttRxBufferTooShort
  | mqttDecodeRemainingLength
  deriving DecidableEq, Repr

/-- The code of an error of `aws_iot_mqtt_internal_deserialize_publish`. -/
def IoTError.code : IoTError → IoTReturn
  | .failure => .failure
  | .mqttRxBufferTooShort => .mqttRxBufferTooShort
  | .mqttDecodeRemainingLength => .mqttDecodeRemainingLength

/-- (AWSMain.h) `AWS_IOT_MQTT_RX_BUF_LEN`, the size of the receive buffer. -/
def awsIotMqttRxBufLen : Nat := 512

/-- The receive buffer with the index of its next free byte, the bytes of the connection that have not been read, and how many of them
arrive before the timer has expired. -/
structure Reader where
  readBuf : List UInt8
  readBufIndex : Nat
  incoming : List UInt8
  arrived : Nat

/-- (network_mbedtls_wrapper.c) `iot_tls_read` of `len` bytes to the position `pos` of the buffer. On a timeout the bytes that came are in
the buffer and the caller is not told their number. -/
def iotTlsRead (pos len : Nat) (r : Reader) : IoTReturn × Reader :=
  let got := r.incoming.take (min len r.arrived)
  (if got.length = len then .success else if got.length = 0 then .networkSslNothingToRead else .networkSslReadTimeout,
    { r with
      readBuf := r.readBuf.take pos ++ got ++ r.readBuf.drop (pos + got.length)
      incoming := r.incoming.drop got.length
      arrived := r.arrived - got.length })

/-- (aws_iot_mqtt_client_common_internal.c) `_aws_iot_mqtt_internal_readWrapper`: the code, `read_len`, and the buffer. -/
def readWrapper (offset size : Nat) (r : Reader) : IoTReturn × Int × Reader :=
  let byteToRead := offset + size - r.readBufIndex
  if 0 < byteToRead then
    let (rc, r) := iotTlsRead r.readBufIndex byteToRead r
    let r := { r with readBufIndex := r.readBufIndex + if rc = .success then byteToRead else 0 }
    (rc, (size : Int) - ((offset + size : Int) - r.readBufIndex), r)
  else (.success, size, r)

/-- (aws_iot_mqtt_client_common_internal.c) `_aws_iot_mqtt_internal_decode_packet_remaining_len`, with the bytes it may still read, the
position of the next one and its multiplier: where the rest of the packet starts, and its length. -/
def decodePacketRemainingLen : (bytes : Nat) → (len multiplier remLen : Nat) → Reader → Except IoTReturn (Nat × Nat) × Reader
  | 0, _, _, _, r => (.error .mqttDecodeRemainingLength, r)
  | bytes + 1, len, multiplier, remLen, r =>
    let (rc, _, r) := readWrapper len 1 r
    if rc ≠ .success then (.error rc, r)
    else
      let b := r.readBuf.getD len 0
      let remLen := remLen + (b &&& 127).toNat * multiplier
      if b &&& 128 ≠ 0 then decodePacketRemainingLen bytes (len + 1) (multiplier * 128) remLen r else (.ok (len + 1, remLen), r)

/-- The `do` loop that reads a packet which is too long for the buffer, with a bound on its reads: the code, and the bytes read. -/
def drainLoop : (fuel : Nat) → (remLen total bytes : Nat) → Reader → IoTReturn × Nat × Reader
  | 0, _, total, _, r => (.failure, total, r)
  | fuel + 1, remLen, total, bytes, r =>
    let (rc, r) := iotTlsRead 0 bytes r
    if rc ≠ .success then (rc, total, r)
    else
      let total := total + bytes
      if total < remLen then
        drainLoop fuel remLen total (if awsIotMqttRxBufLen ≤ remLen - total then awsIotMqttRxBufLen else remLen - total) r
      else (.success, total, r)

/-- (aws_iot_mqtt_client_common_internal.c) `_aws_iot_mqtt_internal_read_packet`: the packet type, or `none` where the function returns
`SUCCESS` without storing it. -/
def readPacket (r : Reader) : Except IoTReturn (Option UInt8) × Reader :=
  let (rc, _, r) := readWrapper 0 1 r
  if rc = .networkSslNothingToRead then (.error .mqttNothingToRead, r)
  else if rc ≠ .success then (.error rc, r)
  else
    match decodePacketRemainingLen maxNoOfRemainingLengthBytes 1 1 0 r with
    | (.error rc, r) => (.error rc, r)
    | (.ok (offset, remLen), r) =>
      if awsIotMqttRxBufLen ≤ remLen + offset then
        let (rc, total, r) := drainLoop (remLen + 1) remLen 0 awsIotMqttRxBufLen r
        if total = remLen then (.error .mqttRxBufferTooShort, { r with readBufIndex := 0 })
        else if rc ≠ .success then (.error rc, r)
        else (.ok none, r)
      else
        let (rc, readLen, r) := if 0 < remLen then readWrapper offset remLen r else (.success, 0, r)
        if rc ≠ .success ∨ readLen ≠ remLen then (.error .failure, r)
        else (.ok (some ((r.readBuf.getD 0 0 >>> 4) &&& 0x0F)), { r with readBufIndex := 0 })

/-- The client, the connection and the device. The connection is lost when the client is waiting to reconnect. -/
structure MqttClient where
  reader : Reader
  isPingOutstanding : Bool
  connected : Bool
  device : Device

/-- What one cycle of a yield does not determine: how many bytes arrive, what the handler finds, the memory after the receive buffer, the
codes of the writes of a PUBACK and of a PINGREQ, whether the ping timer has expired, and the code of a reconnection. -/
structure CycleEnv where
  arrived : Nat
  handler : HandlerEnv
  beyond : List UInt8
  puback : IoTReturn
  pingreq : IoTReturn
  pingDue : Bool
  reconnect : IoTReturn

/-- (aws_iot_mqtt_client_common_internal.c) `_aws_iot_mqtt_internal_handle_publish`, with its code and the payload that the handler was
called with. The NULs that `strtok` writes into the payload of a command, which lies in `readBuf`, are not modelled. -/
def handlePublishCode (subscribed : List UInt8 → Bool) (e : CycleEnv) (rxBuf : List UInt8) (d : Device) :
    Except Ending (IoTReturn × Option (List UInt8) × Device) :=
  match deserializePublish awsIotMqttRxBufLen (rxBuf ++ e.beyond) with
  | .error err => .ok (err.code, none, d)
  | .ok msg =>
    let rc := if msg.qos = 0 then .success else e.puback
    match handlePublish subscribed e.handler awsIotMqttRxBufLen (rxBuf ++ e.beyond) d with
    | none => .ok (rc, none, d)
    | some out =>
      if out.ending = .returned then .ok (rc, some (msg.payload.take msg.payloadLen), out.device) else .error out.ending

/-- (aws_iot_mqtt_client_common_internal.c) `aws_iot_mqtt_internal_cycle_read`: the code, the payload that the handler was called with,
the packet type and the client. The bytes of `readBuf` are those that were read: the NULs of `strtok` in it are not modelled. -/
def cycleRead (subscribed : List UInt8 → Bool) (e : CycleEnv) (packetType : UInt8) (c : MqttClient) :
    Except Ending (IoTReturn × Option (List UInt8) × UInt8 × MqttClient) :=
  match readPacket { c.reader with arrived := e.arrived } with
  | (.error rc, r) => .ok (if rc = .mqttNothingToRead then .success else rc, none, packetType, { c with reader := r })
  | (.ok t, r) =>
    let packetType := t.getD packetType
    let c := { c with reader := r }
    if packetType ∈ [2, 4, 9, 11, 5, 7] then .ok (.success, none, packetType, c)
    else if packetType = publishType then
      (handlePublishCode subscribed e r.readBuf c.device).map fun x => (x.1, x.2.1, packetType, { c with device := x.2.2 })
    else if packetType = 13 then .ok (.success, none, packetType, { c with isPingOutstanding := false })
    else .ok (.mqttRxMessagePacketTypeInvalid, none, packetType, c)

/-- (aws_iot_mqtt_client_yield.c) `_aws_iot_mqtt_keep_alive`. -/
def keepAlive (e : CycleEnv) (c : MqttClient) : IoTReturn × MqttClient :=
  if !e.pingDue then (.success, c)
  else if c.isPingOutstanding then (.networkDisconnected, c)
  else if e.pingreq ≠ .success then (.networkDisconnected, c)
  else (.success, { c with isPingOutstanding := true })

/-- One pass of the `do` loop of `_aws_iot_mqtt_internal_yield`: its code, what the handler was called with, the packet type and the
client. Automatic reconnection is enabled. -/
def yieldCycle (subscribed : List UInt8 → Bool) (e : CycleEnv) (packetType : UInt8) (c : MqttClient) :
    Except Ending (IoTReturn × Option (List UInt8) × UInt8 × MqttClient) :=
  if !c.connected then .ok (e.reconnect, none, packetType, c)
  else
    (cycleRead subscribed e packetType c).map fun (rc, handled, packetType, c) =>
      let (rc, c) :=
        if rc = .success then keepAlive e c
        else if rc ∈ [.networkSslReadError, .networkSslWriteError, .networkSslWriteTimeout] then (.networkDisconnected, c)
        else (rc, c)
      if rc = .networkDisconnected then (.networkAttemptingReconnect, handled, packetType, { c with connected := false })
      else (rc, handled, packetType, c)

/-- (aws_iot_mqtt_client_yield.c) `_aws_iot_mqtt_internal_yield`: its passes, up to the one after which the timer has expired. -/
def internalYield (subscribed : List UInt8 → Bool) :
    List CycleEnv → UInt8 → MqttClient → Except Ending (IoTReturn × List (List UInt8) × MqttClient)
  | [], _, c => .ok (.success, [], c)
  | e :: es, packetType, c =>
    match yieldCycle subscribed e packetType c with
    | .error ending => .error ending
    | .ok (rc, handled, packetType, c) =>
      if es = [] ∨ (rc ≠ .success ∧ c.connected) then .ok (rc, handled.toList, c)
      else (internalYield subscribed es packetType c).map fun x => (x.1, handled.toList ++ x.2.1, x.2.2)

/-- What one call of `aws_iot_mqtt_yield` does not determine: what its variable for the packet type holds, and its passes. -/
structure YieldEnv where
  packetType : UInt8
  first : CycleEnv
  rest : List CycleEnv

/-- The passes of a yield, of which there is at least one. -/
def YieldEnv.cycles (e : YieldEnv) : List CycleEnv := e.first :: e.rest

/-- How the receive loop ends: the guard does not list the code, or the handler has ended the process. -/
inductive AwsEnd where
  | left (rc : IoTReturn)
  | ended (ending : Ending)
  deriving DecidableEq

/-- (AWSMain.c) One pass of the `while` loop of `AWSMainFunction`: the output is what the handler was called with. -/
def awsMainStep (subscribed : List UInt8 → Bool) : Step MqttClient YieldEnv (List (List UInt8)) AwsEnd
  | c, e =>
    match internalYield subscribed e.cycles e.packetType c with
    | .error ending => .error (.ended ending)
    | .ok (rc, handled, c) =>
      if rc ∈ [.networkAttemptingReconnect, .networkReconnected, .success] then .ok (c, handled) else .error (.left rc)

end CGuard
