import CGuard.Lemmas.Listing
import CGuard.Lemmas.MqttReader
import CGuard.System

/-!
# Staying in the receive loop

As long as every packet that a yield starts to read is shorter than the receive buffer and arrives whole before the timer of the yield
expires, and the pings are answered, no yield returns a code that ends the receive loop, and every command is handled in its turn. A longer
packet is read to its end and then ends the loop, and so does one of which only a part arrives in time.
-/

namespace CGuard

open LinkedHeap Machine

/-- The packet is a PUBLISH packet with this message on a subscribed topic, and ends with its payload. -/
structure IsPublishOn (subscribed : List UInt8 → Bool) (packet : List UInt8) (msg : PublishMessage) : Prop where
  isPacket : IsPacket packet
  deserialize : deserializePublish packet.length packet = .ok msg
  ends : msg.payload.length = msg.payloadLen
  topic : subscribed msg.topicName

/-- What the broker sends on the connection after the subscription: PUBLISH packets, and the answers to the pings. -/
inductive BrokerPacket where
  | publish (packet : List UInt8) (msg : PublishMessage)
  | pingresp

/-- The bytes of a packet. -/
def BrokerPacket.bytes : BrokerPacket → List UInt8
  | .publish packet _ => packet
  | .pingresp => [0xD0, 0]

/-- The payload of a PUBLISH packet. -/
def BrokerPacket.payload : BrokerPacket → Option (List UInt8)
  | .publish _ msg => some msg.payload
  | .pingresp => none

/-- A PUBLISH packet is well formed, and its topic is subscribed to. -/
def BrokerPacket.WellFormed (subscribed : List UInt8 → Bool) : BrokerPacket → Prop
  | .publish packet msg => IsPublishOn subscribed packet msg
  | .pingresp => True

/-- The command byte is unsupported, or one of `n`, `f`, `q` and `m`. -/
def Ordinary (cmd : UInt8) : Prop := cmd ∉ ascii "eHhAa"

instance : DecidablePred Ordinary := fun cmd => inferInstanceAs (Decidable (cmd ∉ ascii "eHhAa"))

/-- The first packet of the bytes that have not been read. -/
def firstPacket : List UInt8 → Option (List UInt8)
  | [] => none
  | header :: mem =>
    match decodeRemainingLength maxNoOfRemainingLengthBytes 1 0 mem with
    | .ok (n, rest) => some ((header :: mem).take (1 + (mem.length - rest.length) + n))
    | .error _ => none

/-- A pass of a yield under which the network delivers without error what it reads, however few bytes arrive in time: the command of the
packet that is next is an ordinary one, and the writes of the PUBACK and of the PINGREQ succeed. No ping is due while another is not
answered. -/
structure Delivers (e : CycleEnv) (c : MqttClient) : Prop where
  ordinary : ∀ packet msg, firstPacket c.reader.incoming = some packet → e.arrived ≠ 0 →
    deserializePublish packet.length packet = .ok msg →
    ∃ cmd, (msg.payload ++ (c.reader.readBuf.drop packet.length ++ e.beyond)).head? = some cmd ∧ Ordinary cmd
  puback : ∀ packet msg, firstPacket c.reader.incoming = some packet → e.arrived ≠ 0 →
    deserializePublish packet.length packet = .ok msg → msg.qos ≠ 0 → e.puback = .success
  pingreq : e.pingDue → c.isPingOutstanding = false ∧ e.pingreq = .success

/-- The packet that the pass starts to read, if any, is shorter than the receive buffer, and all of it arrives before the timer of the yield
has expired. -/
def ReadsWhole (e : CycleEnv) (c : MqttClient) : Prop :=
  ∀ packet, firstPacket c.reader.incoming = some packet → e.arrived ≠ 0 →
    packet.length < awsIotMqttRxBufLen ∧ packet.length ≤ e.arrived

/-- A condition on every pass of a yield, in the state that the passes before it have left. -/
def AllCycles (subscribed : List UInt8 → Bool) (P : CycleEnv → MqttClient → Prop) : List CycleEnv → UInt8 → MqttClient → Prop
  | [], _, _ => True
  | e :: es, packetType, c => P e c ∧ ∀ rc handled packetType' c',
      yieldCycle subscribed e packetType c = .ok (rc, handled, packetType', c') → AllCycles subscribed P es packetType' c'

/-- The condition on every pass of the yields of a run. -/
def YieldMeets (subscribed : List UInt8 → Bool) (P : CycleEnv → MqttClient → Prop) (c : MqttClient) (e : YieldEnv) : Prop :=
  AllCycles subscribed P e.cycles e.packetType c

/-- How many of the passes get bytes to read. -/
def arrivals (es : List CycleEnv) : Nat := es.countP fun e => e.arrived ≠ 0

/-- The client is between two packets of the connection. -/
structure AtBoundary (subscribed : List UInt8 → Bool) (c : MqttClient) (ps : List BrokerPacket) : Prop where
  incoming : c.reader.incoming = ps.flatMap BrokerPacket.bytes
  index : c.reader.readBufIndex = 0
  connected : c.connected = true
  packets : ∀ p ∈ ps, p.WellFormed subscribed
  device : c.device.WellFormed

namespace ReceiveLoopAux

/-! ### The handler -/

/-- The handler returns from an ordinary command. -/
theorem handler_ordinary (env : HandlerEnv) {payload : List UInt8} {d : Device} (hd : d.WellFormed) {cmd : UInt8}
    (hhead : payload.head? = some cmd) (hcmd : Ordinary cmd) : (iotSubscribeCallbackHandler env payload d).ending = .returned := by
  unfold iotSubscribeCallbackHandler
  simp only [Ordinary, show ascii "eHhAa" = ['e'.toUInt8, 'H'.toUInt8, 'h'.toUInt8, 'A'.toUInt8, 'a'.toUInt8] from rfl,
    List.mem_cons, List.not_mem_nil, or_false, not_or] at hcmd
  obtain ⟨he, hH, hh, hA, ha⟩ := hcmd
  simp only [hhead, cmGetChannelStatus_eq hd, if_neg he, if_neg hH, if_neg hh, if_neg hA, if_neg ha]
  split_ifs <;> rfl

/-! ### Packets -/

/-- The first packet of bytes that start with one. -/
theorem firstPacket_append {packet : List UInt8} (hp : IsPacket packet) (more : List UInt8) :
    firstPacket (packet ++ more) = some packet := by
  obtain ⟨header, mem, rest, rfl, hdec⟩ := hp
  obtain ⟨used, rfl, -⟩ := decodePacketRemainingLen_eq hdec
  simp only [firstPacket, List.cons_append, decodeRemainingLength_append more hdec, List.length_append, Option.some.injEq]
  rw [← List.cons_append, List.take_append_of_le_length (by simp only [List.length_cons, List.length_append]; omega)]
  exact List.take_of_length_le (by simp only [List.length_cons, List.length_append]; omega)

theorem isPacket_bytes {subscribed : List UInt8 → Bool} {p : BrokerPacket} (hp : p.WellFormed subscribed) : IsPacket p.bytes := by
  cases p with
  | publish packet msg => exact hp.isPacket
  | pingresp => exact ⟨0xD0, [0], [], rfl, rfl⟩

/-- The type of a packet that is deserialized. -/
theorem headD_of_deserialize {n : Nat} {packet : List UInt8} {msg : PublishMessage} (h : deserializePublish n packet = .ok msg) :
    (packet.headD 0 >>> 4) &&& 0x0F = publishType := by
  unfold deserializePublish at h
  split_ifs at h
  cases packet with
  | nil => cases h
  | cons header mem =>
    simp only [readChar, bind, Except.bind] at h
    split_ifs at h with htype
    exact not_not.mp htype

/-! ### One pass of a yield -/

/-- A pass in which nothing arrives reads nothing. -/
theorem readPacket_nothing {buf incoming : List UInt8} {a : Nat} (h : incoming = [] ∨ a = 0) :
    readPacket ⟨buf, 0, incoming, a⟩ = (.error .mqttNothingToRead, ⟨buf, 0, incoming, a⟩) := by
  have hgot : incoming.take (min 1 a) = [] := by
    rcases h with rfl | rfl
    · exact List.take_nil
    · rfl
  simp [readPacket, readWrapper, iotTlsRead, hgot]

/-- What a pass has done with the first `k` packets: they have been read, and the handler has been called with the payloads. -/
structure Handles (subscribed : List UInt8 → Bool) (ps : List BrokerPacket) (k : Nat) (handled : List (List UInt8))
    (c : MqttClient) : Prop where
  boundary : AtBoundary subscribed c (ps.drop k)
  handled : handled = (ps.take k).filterMap BrokerPacket.payload

/-- A PUBLISH packet in the receive buffer with an ordinary command: the handler returns, and so does everything around it. -/
theorem handlePublishCode_ok {subscribed : List UInt8 → Bool} {e : CycleEnv} {packet : List UInt8} (buf : List UInt8) {msg : PublishMessage}
    {d : Device} (hp : IsPublishOn subscribed packet msg) (hd : d.WellFormed)
    (hcmd : ∃ cmd, (msg.payload ++ (buf.drop packet.length ++ e.beyond)).head? = some cmd ∧ Ordinary cmd)
    (hack : msg.qos ≠ 0 → e.puback = .success) :
    ∃ d', handlePublishCode subscribed e (receiveBuffer packet buf) d = .ok (.success, some msg.payload, d') ∧ d'.WellFormed := by
  obtain ⟨cmd, hhead, hord⟩ := hcmd
  have hdes := deserializePublish_append (deserializePublish_size (m := awsIotMqttRxBufLen) hp.deserialize (Or.inl (by decide)))
    (buf.drop packet.length ++ e.beyond)
  have hret := handler_ordinary e.handler hd hhead hord
  have hcode : (if msg.qos = 0 then IoTReturn.success else e.puback) = .success := by
    split_ifs with hqos
    · rfl
    · exact hack hqos
  refine ⟨_, ?_, (handler_frame e.handler (msg.payload ++ (buf.drop packet.length ++ e.beyond)) d).wellFormed hd⟩
  simp only [handlePublishCode, handlePublish, receiveBuffer, List.append_assoc, hdes, hp.topic, if_true, hret, hcode,
    List.take_left' hp.ends]

/-- A read of the next packet. -/
theorem cycleRead_ok {subscribed : List UInt8 → Bool} {e : CycleEnv} (packetType : UInt8) {c : MqttClient} {ps : List BrokerPacket}
    (hc : AtBoundary subscribed c ps) (hd : Delivers e c) (hs : ReadsWhole e c) :
    ∃ handled packetType' c', cycleRead subscribed e packetType c = .ok (.success, handled, packetType', c') ∧
      Handles subscribed ps (if e.arrived = 0 then 0 else 1) handled.toList c' ∧
      (c'.isPingOutstanding = true → c.isPingOutstanding = true) := by
  obtain ⟨⟨buf, index, incoming, a⟩, outstanding, connected, d⟩ := c
  obtain ⟨rfl, rfl, rfl, hps, hwf⟩ := hc
  have hnothing : ps = [] ∨ e.arrived = 0 →
      cycleRead subscribed e packetType ⟨⟨buf, 0, ps.flatMap BrokerPacket.bytes, a⟩, outstanding, true, d⟩ =
        .ok (.success, none, packetType, ⟨⟨buf, 0, ps.flatMap BrokerPacket.bytes, e.arrived⟩, outstanding, true, d⟩) := by
    intro h
    simp only [cycleRead]
    rw [readPacket_nothing (h.imp (fun h => by rw [h]; rfl) id)]
    rfl
  by_cases ha : e.arrived = 0
  · refine ⟨none, packetType, _, hnothing (Or.inr ha), ⟨?_, ?_⟩, id⟩
    · rw [if_pos ha]
      exact ⟨rfl, rfl, rfl, hps, hwf⟩
    · rw [if_pos ha]
      rfl
  · rw [if_neg ha]
    cases ps with
    | nil => exact ⟨none, packetType, _, hnothing (Or.inl rfl), ⟨⟨rfl, rfl, rfl, hps, hwf⟩, rfl⟩, id⟩
    | cons p ps =>
      have hp := hps p List.mem_cons_self
      have hfirst := firstPacket_append (isPacket_bytes hp) (ps.flatMap BrokerPacket.bytes)
      have hread := readPacket_whole (isPacket_bytes hp) (hs _ hfirst ha).1 buf (ps.flatMap BrokerPacket.bytes) (hs _ hfirst ha).2
      have hrest : ∀ p ∈ ps, p.WellFormed subscribed := fun q hq => hps q (List.mem_cons_of_mem p hq)
      simp only [cycleRead, List.flatMap_cons, hread]
      cases p with
      | pingresp => exact ⟨none, _, _, rfl, ⟨⟨rfl, rfl, rfl, hrest, hwf⟩, rfl⟩, fun h => absurd h (by simp)⟩
      | publish packet msg =>
        obtain ⟨d', hcode, hwf'⟩ := handlePublishCode_ok buf hp hwf (hd.ordinary _ msg hfirst ha hp.deserialize)
          (hd.puback _ msg hfirst ha hp.deserialize)
        have hother : publishType ∉ [2, 4, 9, 11, 5, 7] := by decide
        simp only [BrokerPacket.bytes, headD_of_deserialize hp.deserialize, Option.getD_some, if_neg hother, if_true, hcode, Except.map]
        exact ⟨_, _, _, rfl, ⟨⟨rfl, rfl, rfl, hrest, hwf'⟩, rfl⟩, id⟩

/-- The keep-alive of a pass under which the pings are answered. -/
theorem keepAlive_ok {e : CycleEnv} {c : MqttClient} (h : e.pingDue → c.isPingOutstanding = false ∧ e.pingreq = .success) :
    ∃ outstanding, keepAlive e c = (IoTReturn.success, { c with isPingOutstanding := outstanding }) := by
  unfold keepAlive
  cases hdue : e.pingDue with
  | false => exact ⟨c.isPingOutstanding, rfl⟩
  | true =>
    obtain ⟨hout, hreq⟩ := h hdue
    simp only [hout, hreq]
    exact ⟨true, rfl⟩

/-- A pass of a yield. -/
theorem yieldCycle_ok {subscribed : List UInt8 → Bool} {e : CycleEnv} (packetType : UInt8) {c : MqttClient}
    {ps : List BrokerPacket} (hc : AtBoundary subscribed c ps) (hd : Delivers e c) (hs : ReadsWhole e c) :
    ∃ handled packetType' c', yieldCycle subscribed e packetType c = .ok (.success, handled, packetType', c') ∧
      Handles subscribed ps (if e.arrived = 0 then 0 else 1) handled.toList c' := by
  obtain ⟨handled, packetType', c', hread, hhandles, hping⟩ := cycleRead_ok packetType hc hd hs
  obtain ⟨outstanding, hkeep⟩ := keepAlive_ok (e := e) (c := c') fun hdue => by
    obtain ⟨hout, hreq⟩ := hd.pingreq hdue
    refine ⟨?_, hreq⟩
    by_contra hc'
    rw [Bool.not_eq_false] at hc'
    rw [hping hc'] at hout
    cases hout
  refine ⟨handled, packetType', { c' with isPingOutstanding := outstanding }, ?_, ?_⟩
  · simp [yieldCycle, hc.connected, hread, Except.map, hkeep]
  · obtain ⟨⟨h1, h2, h3, h4, h5⟩, hhandled⟩ := hhandles
    exact ⟨⟨h1, h2, h3, h4, h5⟩, hhandled⟩

/-- The packets of two runs of passes, one after the other. -/
theorem Handles.trans {subscribed : List UInt8 → Bool} {ps : List BrokerPacket} {j k : Nat} {h₁ h₂ : List (List UInt8)}
    {c c' : MqttClient} (hj : Handles subscribed ps j h₁ c) (hk : Handles subscribed (ps.drop j) k h₂ c') :
    Handles subscribed ps (j + k) (h₁ ++ h₂) c' := by
  refine ⟨?_, ?_⟩
  · rw [← List.drop_drop]
    exact hk.boundary
  · rw [hj.handled, hk.handled, ← List.filterMap_append, ← List.take_add]

/-- All the passes of a yield. -/
theorem internalYield_ok {subscribed : List UInt8 → Bool} {es : List CycleEnv} :
    ∀ {packetType : UInt8} {c : MqttClient} {ps : List BrokerPacket}, AtBoundary subscribed c ps →
      AllCycles subscribed (fun e c => Delivers e c ∧ ReadsWhole e c) es packetType c →
      ∃ handled c', internalYield subscribed es packetType c = .ok (.success, handled, c') ∧
        Handles subscribed ps (arrivals es) handled c' := by
  induction es with
  | nil => exact fun hc _ => ⟨[], _, rfl, hc, rfl⟩
  | cons e es ih =>
    intro packetType c ps hc h
    obtain ⟨handled, packetType', c', hcycle, hhandles⟩ := yieldCycle_ok packetType hc h.1.1 h.1.2
    obtain ⟨handled', c'', hrest, hhandles'⟩ := ih hhandles.boundary (h.2 _ _ _ _ hcycle)
    have hcount : arrivals (e :: es) = (if e.arrived = 0 then 0 else 1) + arrivals es := by
      simp only [arrivals, List.countP_cons, decide_not, Bool.not_eq_true', decide_eq_false_iff_not]
      split_ifs <;> omega
    have hall := hhandles.trans hhandles'
    rw [← hcount] at hall
    simp only [internalYield, hcycle, ne_eq, not_true_eq_false, false_and, or_false]
    cases es with
    | nil =>
      cases hrest
      exact ⟨handled.toList, c', rfl, by simpa using hall⟩
    | cons e' es => exact ⟨handled.toList ++ handled', c'', by rw [hrest]; rfl, hall⟩

/-- A pass of the receive loop. -/
theorem awsMainStep_ok {subscribed : List UInt8 → Bool} {e : YieldEnv} {c : MqttClient} {ps : List BrokerPacket}
    (hc : AtBoundary subscribed c ps) (h : YieldMeets subscribed (fun e c => Delivers e c ∧ ReadsWhole e c) c e) :
    ∃ handled c', awsMainStep subscribed c e = .ok (c', handled) ∧ Handles subscribed ps (arrivals e.cycles) handled c' := by
  obtain ⟨handled, c', hyield, hhandles⟩ := internalYield_ok hc h
  exact ⟨handled, c', by simp only [awsMainStep, hyield]; rfl, hhandles⟩

end ReceiveLoopAux

open ReceiveLoopAux

/-- A packet whose remaining length is at least the size of the receive buffer, once it has arrived, ends the loop. -/
theorem long_publish_leaves {subscribed : List UInt8 → Bool} {p : BrokerPacket} {ps : List BrokerPacket} {c : MqttClient}
    (hc : AtBoundary subscribed c (p :: ps)) {n : Nat} {rest : List UInt8}
    (hdec : decodeRemainingLength maxNoOfRemainingLengthBytes 1 0 p.bytes.tail = .ok (n, rest)) (hlong : awsIotMqttRxBufLen ≤ n)
    {e : YieldEnv} (ha : p.bytes.length ≤ e.first.arrived) :
    awsMainStep subscribed c e = .error (.left .mqttRxBufferTooShort) := by
  obtain ⟨⟨buf, index, incoming, a⟩, outstanding, connected, d⟩ := c
  obtain ⟨rfl, rfl, rfl, hps, -⟩ := hc
  obtain ⟨r, hread⟩ := readPacket_tooLong (isPacket_bytes (hps p List.mem_cons_self)) hdec hlong buf
    (ps.flatMap BrokerPacket.bytes) ha
  simp [awsMainStep, YieldEnv.cycles, internalYield, yieldCycle, cycleRead, List.flatMap_cons, hread, Except.map]

/-- A packet shorter than the receive buffer of which some bytes arrive in time and others do not ends the loop. -/
theorem split_publish_leaves {subscribed : List UInt8 → Bool} {p : BrokerPacket} {ps : List BrokerPacket} {c : MqttClient}
    (hc : AtBoundary subscribed c (p :: ps)) (hshort : p.bytes.length < awsIotMqttRxBufLen) {e : YieldEnv} (ha : 0 < e.first.arrived)
    (hsplit : e.first.arrived < p.bytes.length) :
    awsMainStep subscribed c e = .error (.left .failure) ∨ awsMainStep subscribed c e = .error (.left .networkSslNothingToRead) := by
  obtain ⟨⟨buf, index, incoming, a⟩, outstanding, connected, d⟩ := c
  obtain ⟨rfl, rfl, rfl, hps, -⟩ := hc
  obtain ⟨rc, r, hread, hrc⟩ := readPacket_split (isPacket_bytes (hps p List.mem_cons_self)) hshort buf
    (ps.flatMap BrokerPacket.bytes) ha hsplit
  rcases hrc with rfl | rfl
  · left
    simp [awsMainStep, YieldEnv.cycles, internalYield, yieldCycle, cycleRead, List.flatMap_cons, hread, Except.map]
  · right
    simp [awsMainStep, YieldEnv.cycles, internalYield, yieldCycle, cycleRead, List.flatMap_cons, hread, Except.map]

/-- The subscription of `AWSMainFunction`. -/
def onMyLightBulb (topicName : List UInt8) : Bool := topicName = ascii "myLightBulb"

/-- A PUBLISH packet to that topic, of quality of service 0, with the given bytes for its remaining length. -/
def lightBulbPublish (remainingLength payload : List UInt8) : BrokerPacket :=
  .publish (0x30 :: (remainingLength ++ (0 :: 11 :: (ascii "myLightBulb" ++ payload))))
    ⟨false, 0, false, none, ascii "myLightBulb", payload, payload.length⟩

/-- A client that is connected, with what the broker sends. -/
def clientOf (ps : List BrokerPacket) : MqttClient :=
  ⟨⟨List.replicate awsIotMqttRxBufLen 0, 0, ps.flatMap BrokerPacket.bytes, 0⟩, false, true, Device.start none⟩

/-- A pass in which some bytes arrive, and nothing fails. -/
def plainCycle (arrived : Nat) : CycleEnv := ⟨arrived, .plain 1, [], .success, .success, false, .success⟩

theorem length_myLightBulb : (ascii "myLightBulb").length = 11 := rfl

theorem lightBulbPublish_length (remainingLength payload : List UInt8) :
    (lightBulbPublish remainingLength payload).bytes.length = remainingLength.length + payload.length + 14 := by
  simp only [lightBulbPublish, BrokerPacket.bytes, List.length_cons, List.length_append, length_myLightBulb]
  omega

/-- The packet is well formed when the bytes for its remaining length stand for it. -/
theorem lightBulbPublish_wellFormed (remainingLength payload : List UInt8)
    (hdec : ∀ rest, decodeRemainingLength maxNoOfRemainingLengthBytes 1 0 (remainingLength ++ rest) = .ok (payload.length + 13, rest)) :
    (lightBulbPublish remainingLength payload).WellFormed onMyLightBulb := by
  have hlen : (0 :: 11 :: (ascii "myLightBulb" ++ payload)).length = payload.length + 13 := by
    simp only [List.length_cons, List.length_append, length_myLightBulb]
    omega
  refine ⟨⟨0x30, _, _, rfl, by rw [hdec, hlen]⟩, ?_, rfl, rfl⟩
  have hsize : ¬ (0x30 :: (remainingLength ++ (0 :: 11 :: (ascii "myLightBulb" ++ payload)))).length < 4 := by
    have hbytes := lightBulbPublish_length remainingLength payload
    simp only [lightBulbPublish, BrokerPacket.bytes] at hbytes
    omega
  have hstring : readStringWithLen (payload.length + 13) (0 :: 11 :: (ascii "myLightBulb" ++ payload)) =
      .ok (ascii "myLightBulb", payload.length, payload) := by
    have htopic : readUint16 (0 :: 11 :: (ascii "myLightBulb" ++ payload)) = .ok (11, ascii "myLightBulb" ++ payload) := rfl
    have heleven : (11 : UInt16).toNat = 11 := rfl
    have hfits : (11 : UInt16).toNat ≤ payload.length + 13 - 2 ∧ (11 : UInt16).toNat ≤ (ascii "myLightBulb" ++ payload).length := by
      rw [List.length_append, length_myLightBulb, heleven]
      omega
    have hleft : payload.length + 13 - 2 - (11 : UInt16).toNat = payload.length := by
      rw [heleven]
      omega
    unfold readStringWithLen
    rw [if_pos (by omega), htopic]
    simp only [bind, Except.bind, if_pos hfits, hleft]
    rfl
  unfold deserializePublish
  rw [if_neg hsize]
  simp only [readChar, bind, Except.bind, hdec, hstring]
  rfl

/-- A plain pass delivers what it reads of a packet with an ordinary command. -/
theorem plainCycle_delivers {remainingLength : List UInt8} (payload : List UInt8) {cmd : UInt8} (hcmd : Ordinary cmd) (arrived : Nat)
    (hp : (lightBulbPublish remainingLength (cmd :: payload)).WellFormed onMyLightBulb) :
    Delivers (plainCycle arrived) (clientOf [lightBulbPublish remainingLength (cmd :: payload)]) := by
  have hfirst := firstPacket_append (isPacket_bytes hp) []
  have hincoming : (clientOf [lightBulbPublish remainingLength (cmd :: payload)]).reader.incoming =
      (lightBulbPublish remainingLength (cmd :: payload)).bytes ++ [] := rfl
  refine ⟨?_, ?_, fun h => absurd h (by simp [plainCycle])⟩ <;> rw [hincoming, hfirst]
  · rintro packet msg hpacket - hmsg
    cases hpacket
    cases hmsg.symm.trans hp.deserialize
    exact ⟨cmd, rfl, hcmd⟩
  · rintro packet msg hpacket - hmsg hqos
    cases hpacket
    cases hmsg.symm.trans hp.deserialize
    exact absurd rfl hqos

/-- A run of one pass of one yield meets a condition that holds of that pass. -/
theorem guarded_plainCycle {subscribed : List UInt8 → Bool} {P : CycleEnv → MqttClient → Prop} {c : MqttClient} {arrived : Nat}
    (h : P (plainCycle arrived) c) : Guarded (awsMainStep subscribed) (YieldMeets subscribed P) c [⟨0, plainCycle arrived, []⟩] :=
  ⟨⟨h, fun _ _ _ _ _ => trivial⟩, fun _ _ _ => trivial⟩

theorem clientOf_atBoundary {p : BrokerPacket} (hp : p.WellFormed onMyLightBulb) : AtBoundary onMyLightBulb (clientOf [p]) [p] :=
  ⟨rfl, rfl, rfl, fun q hq => by rwa [List.mem_singleton.mp hq], Device.wellFormed_start none⟩

/-- The command to turn the bulb on. -/
def shortMessage : BrokerPacket := lightBulbPublish [14] (ascii "n")

theorem shortMessage_wellFormed : shortMessage.WellFormed onMyLightBulb := lightBulbPublish_wellFormed [14] (ascii "n") fun _ => rfl

/-- A message of 600 bytes that turns the bulb on. -/
def longMessage : BrokerPacket := lightBulbPublish [0xE5, 0x04] (List.replicate 600 'n'.toUInt8)

/-- The remaining length of the long message. -/
theorem decode_longMessage (rest : List UInt8) :
    decodeRemainingLength maxNoOfRemainingLengthBytes 1 0 ([0xE5, 0x04] ++ rest) = .ok (613, rest) := rfl

theorem longMessage_wellFormed : longMessage.WellFormed onMyLightBulb :=
  lightBulbPublish_wellFormed _ _ fun rest => by rw [decode_longMessage, List.length_replicate]

/-- The long message has arrived, and the loop ends. -/
theorem run_longMessage :
    run (awsMainStep onMyLightBulb) (clientOf [longMessage]) [⟨0, plainCycle 700, []⟩] = .error (.left .mqttRxBufferTooShort) := by
  have hlen : longMessage.bytes.length ≤ 700 := by
    rw [longMessage, lightBulbPublish_length, List.length_replicate]
    decide
  have hstep := long_publish_leaves (clientOf_atBoundary longMessage_wellFormed) (decode_longMessage _) (by decide)
    (e := ⟨0, plainCycle 700, []⟩) hlen
  simp only [run, hstep]

end CGuard
