import CGuard.MqttYield

/-!
# Reading a packet

A packet that has arrived whole is read whole: into the receive buffer when it is shorter than the buffer, and into the void when it is
longer. What a packet is, the deserializer decides.
-/

namespace CGuard

/-- The bytes are one packet: a fixed header whose remaining length is the number of bytes that follow it. -/
def IsPacket (packet : List UInt8) : Prop :=
  ∃ header mem rest, packet = header :: mem ∧ decodeRemainingLength maxNoOfRemainingLengthBytes 1 0 mem = .ok (rest.length, rest)

/-- The reader when it has read the bytes `done` of a packet, of the bytes that arrive in the cycle. -/
def partway (buf done incoming : List UInt8) (arrived : Nat) : Reader where
  readBuf := receiveBuffer done buf
  readBufIndex := done.length
  incoming := incoming
  arrived := arrived - done.length

/-- A read of bytes that have arrived. -/
theorem iotTlsRead_arrived {p incoming : List UInt8} {r : Reader} (pos : Nat) (hin : r.incoming = p ++ incoming)
    (ha : p.length ≤ r.arrived) :
    iotTlsRead pos p.length r =
      (IoTReturn.success, { r with
        readBuf := r.readBuf.take pos ++ p ++ r.readBuf.drop (pos + p.length)
        incoming := incoming
        arrived := r.arrived - p.length }) := by
  simp only [iotTlsRead, hin, Nat.min_eq_left ha, List.take_left', List.drop_left', if_true]

/-- The receive buffer with more of a packet in it. -/
theorem receiveBuffer_append (done p buf : List UInt8) :
    (receiveBuffer done buf).take done.length ++ p ++ (receiveBuffer done buf).drop (done.length + p.length) =
      receiveBuffer (done ++ p) buf := by
  unfold receiveBuffer
  rw [List.take_left', List.drop_append, List.drop_eq_nil_of_le (Nat.le_add_right _ _), Nat.add_sub_cancel_left, List.nil_append,
    List.drop_drop, List.length_append]
  rfl

/-- The next bytes of a packet. -/
theorem readWrapper_partway {buf done p more : List UInt8} {a : Nat} (hp : 0 < p.length) (ha : done.length + p.length ≤ a) :
    readWrapper done.length p.length (partway buf done (p ++ more) a) =
      (IoTReturn.success, (p.length : Int), partway buf (done ++ p) more a) := by
  have hread := iotTlsRead_arrived (r := partway buf done (p ++ more) a) done.length rfl (by simp only [partway]; omega)
  have hindex : (partway buf done (p ++ more) a).readBufIndex = done.length := rfl
  unfold readWrapper
  simp only [hindex, Nat.add_sub_cancel_left, if_pos hp, hread, if_true]
  simp only [partway, receiveBuffer_append, List.length_append, Prod.mk.injEq, true_and, Reader.mk.injEq]
  omega

/-- The byte that was read last. -/
theorem getD_partway (buf done incoming : List UInt8) (b : UInt8) (a : Nat) :
    (partway buf (done ++ [b]) incoming a).readBuf.getD done.length 0 = b := by
  simp [partway, receiveBuffer]

/-- Reading the remaining length agrees with decoding it from memory. -/
theorem decodePacketRemainingLen_eq {bytes : Nat} :
    ∀ {multiplier decodedLen n : Nat} {mem rest : List UInt8},
      decodeRemainingLength bytes multiplier decodedLen mem = .ok (n, rest) →
      ∃ used, mem = used ++ rest ∧ ∀ (buf done more : List UInt8) (a : Nat), done.length + used.length ≤ a →
        decodePacketRemainingLen bytes done.length multiplier decodedLen (partway buf done (mem ++ more) a) =
          (Except.ok (done.length + used.length, n), partway buf (done ++ used) (rest ++ more) a) := by
  induction bytes with
  | zero => intro _ _ _ _ _ h; cases h
  | succ bytes ih =>
    intro multiplier decodedLen n mem rest h
    cases mem with
    | nil => cases h
    | cons b mem =>
      simp only [decodeRemainingLength, readChar, bind, Except.bind] at h
      have hfirst : ∀ (buf done more : List UInt8) (a : Nat), done.length + 1 ≤ a →
          readWrapper done.length 1 (partway buf done (b :: mem ++ more) a) =
            (IoTReturn.success, 1, partway buf (done ++ [b]) (mem ++ more) a) := fun buf done more a ha =>
        @readWrapper_partway buf done [b] (mem ++ more) a Nat.one_pos ha
      split_ifs at h with hb
      · obtain ⟨used, rfl, hused⟩ := ih h
        refine ⟨b :: used, rfl, fun buf done more a ha => ?_⟩
        rw [List.length_cons] at ha
        have hrest := hused buf (done ++ [b]) more a (by rw [List.length_append, List.length_singleton]; omega)
        unfold decodePacketRemainingLen
        simp only [hfirst buf done more a (by omega), ne_eq, not_true_eq_false, if_false, getD_partway]
        rw [if_pos hb]
        have hlen : (done ++ [b]).length = done.length + 1 := by simp
        rw [hlen] at hrest
        rw [hrest, List.append_assoc, List.singleton_append, List.length_cons, Nat.add_assoc, Nat.add_comm 1]
      · cases h
        refine ⟨[b], rfl, fun buf done more a ha => ?_⟩
        unfold decodePacketRemainingLen
        simp only [hfirst buf done more a ha, ne_eq, not_true_eq_false, if_false, getD_partway]
        rw [if_neg hb]
        rfl

/-- The fixed header of a packet has been read, and the remaining length is the number of bytes that are left. -/
theorem readPacket_header {packet : List UInt8} (hp : IsPacket packet) :
    ∃ header used rest, packet = header :: (used ++ rest) ∧
      decodeRemainingLength maxNoOfRemainingLengthBytes 1 0 (used ++ rest) = .ok (rest.length, rest) ∧
      ∀ (buf more : List UInt8) (a : Nat), 1 + used.length ≤ a →
        readWrapper 0 1 ⟨buf, 0, packet ++ more, a⟩ =
          (IoTReturn.success, 1, partway buf [header] (used ++ rest ++ more) a) ∧
        decodePacketRemainingLen maxNoOfRemainingLengthBytes 1 1 0 (partway buf [header] (used ++ rest ++ more) a) =
          (Except.ok (1 + used.length, rest.length), partway buf (header :: used) (rest ++ more) a) := by
  obtain ⟨header, mem, rest, rfl, hdec⟩ := hp
  obtain ⟨used, rfl, hused⟩ := decodePacketRemainingLen_eq hdec
  refine ⟨header, used, rest, rfl, hdec, fun buf more a ha => ⟨?_, hused buf [header] more a ha⟩⟩
  exact @readWrapper_partway buf [] [header] (used ++ rest ++ more) a Nat.one_pos (by simp; omega)

/-- A packet that is shorter than the buffer and has arrived whole is in the buffer afterwards. -/
theorem readPacket_whole {packet : List UInt8} (hp : IsPacket packet) (hshort : packet.length < awsIotMqttRxBufLen)
    (buf more : List UInt8) {a : Nat} (ha : packet.length ≤ a) :
    readPacket ⟨buf, 0, packet ++ more, a⟩ =
      (Except.ok (some ((packet.headD 0 >>> 4) &&& 0x0F)), ⟨receiveBuffer packet buf, 0, more, a - packet.length⟩) := by
  obtain ⟨header, used, rest, rfl, -, hread⟩ := readPacket_header hp
  simp only [List.length_cons, List.length_append] at hshort ha
  obtain ⟨hheader, hlen⟩ := hread buf more a (by omega)
  have hfits : ¬ awsIotMqttRxBufLen ≤ rest.length + (1 + used.length) := by omega
  unfold readPacket
  simp only [hheader, hlen, reduceCtorEq, if_false, ne_eq, not_true_eq_false, if_neg hfits]
  rcases List.eq_nil_or_concat rest with rfl | ⟨_, _, hrest⟩
  · simp [partway, receiveBuffer]
  · have hpos : 0 < rest.length := by rw [hrest]; simp
    have hbody := @readWrapper_partway buf (header :: used) rest more a hpos (by rw [List.length_cons]; omega)
    rw [List.length_cons, Nat.add_comm] at hbody
    simp only [if_pos hpos, hbody, not_true_eq_false, or_self, if_false]
    simp [partway, receiveBuffer]

/-- The next bytes of a packet, of which not all have arrived. -/
theorem readWrapper_split {buf done p more : List UInt8} {a : Nat} (ha : done.length ≤ a) (hsplit : a < done.length + p.length) :
    (readWrapper done.length p.length (partway buf done (p ++ more) a)).1 ≠ .success := by
  have hgot : ((p ++ more).take (min p.length (a - done.length))).length ≠ p.length := by
    rw [List.length_take, List.length_append]
    omega
  have hbytes : 0 < p.length := by omega
  unfold readWrapper iotTlsRead
  simp only [partway, Nat.add_sub_cancel_left, if_pos hbytes, if_neg hgot]
  split_ifs <;> simp

/-- A remaining length of which not all bytes have arrived. -/
theorem decodePacketRemainingLen_split {bytes : Nat} :
    ∀ {multiplier decodedLen n : Nat} {used rest : List UInt8},
      decodeRemainingLength bytes multiplier decodedLen (used ++ rest) = .ok (n, rest) →
      ∀ (buf done more : List UInt8) {a : Nat}, done.length ≤ a → a < done.length + used.length →
        ∃ r, decodePacketRemainingLen bytes done.length multiplier decodedLen (partway buf done (used ++ rest ++ more) a) =
          (Except.error .networkSslNothingToRead, r) := by
  induction bytes with
  | zero => intro _ _ _ _ _ h; cases h
  | succ bytes ih =>
    intro multiplier decodedLen n used rest h buf done more a hle hlt
    cases used with
    | nil =>
      rw [List.length_nil] at hlt
      omega
    | cons b used =>
      unfold decodePacketRemainingLen
      rcases Nat.eq_or_lt_of_le hle with rfl | hmore
      · -- the byte has not arrived
        exact ⟨_, by simp [readWrapper, iotTlsRead, partway]; rfl⟩
      · have hfirst : readWrapper done.length 1 (partway buf done (b :: (used ++ rest ++ more)) a) =
            (IoTReturn.success, 1, partway buf (done ++ [b]) (used ++ rest ++ more) a) :=
          @readWrapper_partway buf done [b] (used ++ rest ++ more) a Nat.one_pos hmore
        have hdone : (done ++ [b]).length = done.length + 1 := by simp
        simp only [List.cons_append, decodeRemainingLength, readChar, bind, Except.bind] at h
        simp only [List.cons_append, hfirst, ne_eq, not_true_eq_false, if_false, getD_partway]
        split_ifs at h with hb
        · rw [if_pos hb, ← hdone]
          refine ih h buf (done ++ [b]) more (by omega) ?_
          rw [List.length_cons] at hlt
          omega
        · -- it is the last byte of the remaining length
          have hused : used ++ rest = rest := congrArg Prod.snd (Except.ok.inj h)
          have hnil : used = [] := List.append_left_eq_self.mp hused
          rw [hnil, List.length_singleton] at hlt
          omega

/-- A packet shorter than the buffer of which some bytes have arrived, and others have not. -/
theorem readPacket_split {packet : List UInt8} (hp : IsPacket packet) (hshort : packet.length < awsIotMqttRxBufLen)
    (buf more : List UInt8) {a : Nat} (ha : 0 < a) (hsplit : a < packet.length) :
    ∃ rc r, readPacket ⟨buf, 0, packet ++ more, a⟩ = (.error rc, r) ∧ (rc = .failure ∨ rc = .networkSslNothingToRead) := by
  obtain ⟨header, used, rest, rfl, hdec, hread⟩ := readPacket_header hp
  simp only [List.length_cons, List.length_append] at hshort hsplit
  have hheader : readWrapper 0 1 ⟨buf, 0, header :: (used ++ rest) ++ more, a⟩ =
      (IoTReturn.success, 1, partway buf [header] (used ++ rest ++ more) a) :=
    @readWrapper_partway buf [] [header] (used ++ rest ++ more) a Nat.one_pos (by simp; omega)
  unfold readPacket
  simp only [hheader, reduceCtorEq, if_false, ne_eq, not_true_eq_false]
  by_cases hused : a < 1 + used.length
  · obtain ⟨r, hlen⟩ := decodePacketRemainingLen_split hdec buf [header] more ha hused
    rw [List.length_singleton] at hlen
    simp only [hlen]
    exact ⟨_, r, rfl, Or.inr rfl⟩
  · have hlen := (hread buf more a (Nat.le_of_not_lt hused)).2
    have hfits : ¬ awsIotMqttRxBufLen ≤ rest.length + (1 + used.length) := by omega
    have hpos : 0 < rest.length := by omega
    have hbody : (readWrapper (header :: used).length rest.length (partway buf (header :: used) (rest ++ more) a)).1 ≠ .success :=
      readWrapper_split (by rw [List.length_cons]; omega) (by rw [List.length_cons]; omega)
    rw [List.length_cons, Nat.add_comm] at hbody
    simp only [hlen, if_neg hfits, if_pos hpos, hbody, not_false_eq_true, true_or, if_true]
    exact ⟨_, _, rfl, Or.inl rfl⟩

/-- Reading a packet that is too long, piece by piece. -/
theorem drainLoop_eq {remLen : Nat} {more : List UInt8} (fuel : Nat) :
    ∀ {total : Nat} {p : List UInt8} {r : Reader}, r.incoming = p ++ more → p.length ≤ r.arrived → total + p.length = remLen →
      0 < p.length → p.length ≤ fuel →
      ∃ r', drainLoop fuel remLen total (min awsIotMqttRxBufLen p.length) r = (IoTReturn.success, remLen, r') := by
  induction fuel with
  | zero => intro _ p _ _ _ _ hpos hfuel; omega
  | succ fuel ih =>
    intro total p r hin ha htotal hpos hfuel
    by_cases hlast : p.length ≤ awsIotMqttRxBufLen
    · -- the last piece
      have hread := iotTlsRead_arrived 0 hin ha
      unfold drainLoop
      simp only [Nat.min_eq_right hlast, hread, ne_eq, not_true_eq_false, if_false, htotal, Nat.lt_irrefl]
      exact ⟨_, rfl⟩
    · obtain ⟨p₁, p₂, rfl, hp₁⟩ : ∃ p₁ p₂, p = p₁ ++ p₂ ∧ p₁.length = awsIotMqttRxBufLen :=
        ⟨p.take awsIotMqttRxBufLen, p.drop awsIotMqttRxBufLen, (List.take_append_drop _ p).symm,
          List.length_take_of_le (Nat.le_of_not_le hlast)⟩
      rw [List.append_assoc] at hin
      rw [List.length_append] at *
      have hread := iotTlsRead_arrived 0 hin (Nat.le_of_add_right_le ha)
      rw [hp₁] at hread
      have hmore : total + awsIotMqttRxBufLen < remLen := by omega
      have hbytes : (if awsIotMqttRxBufLen ≤ remLen - (total + awsIotMqttRxBufLen) then awsIotMqttRxBufLen
          else remLen - (total + awsIotMqttRxBufLen)) = min awsIotMqttRxBufLen p₂.length := by
        have hleft : remLen - (total + awsIotMqttRxBufLen) = p₂.length := by omega
        rw [hleft, Nat.min_def]
      unfold drainLoop
      rw [Nat.min_eq_left (by omega)]
      simp only [hread, ne_eq, not_true_eq_false, if_false, if_pos hmore, hbytes]
      have hbuf : 0 < awsIotMqttRxBufLen := by decide
      exact ih rfl (by simp only; omega) (by omega) (by omega) (by omega)

/-- A packet whose remaining length is at least the size of the buffer is an error when it has arrived whole. -/
theorem readPacket_tooLong {packet rest : List UInt8} {n : Nat} (hp : IsPacket packet)
    (hdec : decodeRemainingLength maxNoOfRemainingLengthBytes 1 0 packet.tail = .ok (n, rest)) (hlong : awsIotMqttRxBufLen ≤ n)
    (buf more : List UInt8) {a : Nat} (ha : packet.length ≤ a) :
    ∃ r, readPacket ⟨buf, 0, packet ++ more, a⟩ = (.error .mqttRxBufferTooShort, r) := by
  obtain ⟨header, used, rest', rfl, hdec', hread⟩ := readPacket_header hp
  cases hdec.symm.trans hdec'
  simp only [List.length_cons, List.length_append] at ha
  obtain ⟨hheader, hlen⟩ := hread buf more a (by omega)
  obtain ⟨r', hdrain⟩ := @drainLoop_eq rest.length more (rest.length + 1) 0 rest (partway buf (header :: used) (rest ++ more) a) rfl
    (by simp only [partway, List.length_cons]; omega) (Nat.zero_add _)
    (Nat.lt_of_lt_of_le (by decide) hlong) (Nat.le_succ _)
  rw [Nat.min_eq_left hlong] at hdrain
  unfold readPacket
  simp only [hheader, hlen, reduceCtorEq, if_false, ne_eq, not_true_eq_false, if_pos (Nat.le_add_right_of_le hlong), hdrain, if_true]
  exact ⟨_, rfl⟩

end CGuard
