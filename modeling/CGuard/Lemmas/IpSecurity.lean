import CGuard.IpSecurity

/-!
# Frames as texts

The frames of the IP security protocol over lists of bytes (`sealFrames`, `openFrames`), what the loops of `HAPIPSecurityProtocol.c` do
in terms of them, and how opening goes on when more bytes come.
-/

namespace CGuard

open ByteMemory

variable (aead : ChaCha20Poly1305)

/-- The channel after `k` messages. -/
def HAPSessionChannelState.advance (channel : HAPSessionChannelState) (k : Nat) : HAPSessionChannelState :=
  { channel with nonce := channel.nonce + UInt64.ofNat k }

@[simp] theorem advance_zero (channel : HAPSessionChannelState) : channel.advance 0 = channel := by
  simp [HAPSessionChannelState.advance]

@[simp] theorem advance_advance (channel : HAPSessionChannelState) (j k : Nat) :
    (channel.advance j).advance k = channel.advance (j + k) := by
  simp only [HAPSessionChannelState.advance, HAPSessionChannelState.mk.injEq, true_and]
  rw [UInt64.ofNat_add, UInt64.add_assoc]

/-- A ciphertext is as long as the plaintext, with 16 bytes for the tag. -/
theorem length_encrypt (channel : HAPSessionChannelState) (m a : List UInt8) : (encrypt aead channel m a).1.length = m.length + 16 := by
  simp only [encrypt, List.length_append, aead.length_cipher, aead.length_tag]

/-- What was encrypted is decrypted with the same number, and the counters stay in step. -/
theorem decrypt_encrypt (channel : HAPSessionChannelState) (m a : List UInt8) :
    decrypt aead channel (encrypt aead channel m a).1 a = .ok (m, channel.advance 1) := by
  have hlen := length_encrypt aead channel m a
  obtain ⟨e, he⟩ : ∃ e, aead.encryptAad channel.key (hapExpandLittleUInt64 channel.nonce) a m = e := ⟨_, rfl⟩
  have hc := aead.length_cipher channel.key (hapExpandLittleUInt64 channel.nonce) a m
  have hopen := aead.decrypt_encrypt channel.key (hapExpandLittleUInt64 channel.nonce) a m
  rw [he] at hc hopen
  have htext : (encrypt aead channel m a).1 = e.1 ++ e.2 := by rw [encrypt, he]
  have hcut : m.length + 16 - 16 = e.1.length := by omega
  rw [decrypt, hlen, if_neg (by omega), htext, hcut, List.drop_left, List.take_left, hopen]
  rfl

/-- The plaintext of a message is as long as its cipher text, and the channel has moved on by one. -/
theorem decrypt_ok {channel channel' : HAPSessionChannelState} {encrypted a m : List UInt8}
    (h : decrypt aead channel encrypted a = .ok (m, channel')) : m.length + 16 = encrypted.length ∧ channel' = channel.advance 1 := by
  unfold decrypt at h
  split_ifs at h with hlen
  split at h
  · cases h
  · rename_i plaintext hm
    cases h
    have := aead.length_plain _ _ _ _ _ _ hm
    rw [List.length_take] at this
    exact ⟨by omega, rfl⟩

/-! ## Sending -/

@[simp] theorem numBytes_mk (data : Mem) (capacity position k : Nat) :
    HAPIPByteBuffer.numBytes ⟨data, capacity, position, position + k⟩ = k :=
  Nat.add_sub_cancel_left position k

@[simp] theorem bytes_mk (data : Mem) (capacity position k : Nat) :
    HAPIPByteBuffer.bytes ⟨data, capacity, position, position + k⟩ = slice data position k := by
  rw [HAPIPByteBuffer.bytes, numBytes_mk]

@[simp] theorem length_bytes (buffer : HAPIPByteBuffer) : buffer.bytes.length = buffer.numBytes := length_slice _ _ _

/-- The frames of some data: 1024 bytes each, and a last one with the rest. -/
def sealFrames (channel : HAPSessionChannelState) (data : List UInt8) : List UInt8 :=
  if data = [] then []
  else
    hapWriteLittleUInt16 (data.take maxFrameBytes).length ++
      (encrypt aead channel (data.take maxFrameBytes) (hapWriteLittleUInt16 (data.take maxFrameBytes).length)).1 ++
      sealFrames (channel.advance 1) (data.drop maxFrameBytes)
termination_by data.length
decreasing_by
  have := List.length_pos_iff.mpr ‹_›
  simp only [List.length_drop, maxFrameBytes]
  omega

/-- The frames of `n` bytes. -/
def numFrames (n : Nat) : Nat := (n + 1023) / 1024

/-- No data are no frames. -/
theorem sealFrames_nil (channel : HAPSessionChannelState) : sealFrames aead channel [] = [] := by
  rw [sealFrames, if_pos rfl]

/-- `HAPIPSecurityProtocolGetNumEncryptedBytes` counts what the frames take. -/
theorem getNumEncryptedBytes_eq (n : Nat) : hapIPSecurityProtocolGetNumEncryptedBytes n = n + 18 * numFrames n := by
  rw [hapIPSecurityProtocolGetNumEncryptedBytes]
  by_cases h : n % maxFrameBytes = 0
  · rw [if_neg (not_not.mpr h)]
    simp only [maxFrameBytes, numFrames] at h ⊢
    omega
  · rw [if_pos h]
    simp only [maxFrameBytes, numFrames] at h ⊢
    omega

/-- The memory after one frame has been made in front of the rest of the data: the frame, then the rest. -/
theorem frame_memory (data : Mem) (position limit n : Nat) (encrypted : List UInt8)
    (hlen : encrypted.length = n + 16) :
    let data' := store (store (move (move data (position + n + 2 + 16) (position + n) (limit - (position + n)))
      (position + 2) position n) position (hapWriteLittleUInt16 n)) (position + 2) encrypted
    slice data' position (n + 18) = hapWriteLittleUInt16 n ++ encrypted ∧
      slice data' (position + n + 2 + 16) (limit - (position + n)) = slice data (position + n) (limit - (position + n)) ∧
      ∀ a, a < position ∨ position + n + 2 + 16 + (limit - (position + n)) ≤ a → data' a = data a := by
  have hw : (hapWriteLittleUInt16 n).length = 2 := rfl
  refine ⟨?_, ?_, ?_⟩
  · have hsplit : n + 18 = 2 + (n + 16) := by omega
    rw [hsplit, slice_add, slice_store_of_disjoint (Or.inl (Nat.le_refl _)), ← hlen, slice_store, ← hw, slice_store]
  · rw [slice_store_of_disjoint (Or.inr (by omega)), slice_store_of_disjoint (Or.inr (by omega)),
      slice_move_of_disjoint (Or.inr (by omega)), slice_move]
  · intro a ha
    rw [store_of_not_mem (by omega), store_of_not_mem (by omega), move_of_not_mem (by omega), move_of_not_mem (by omega)]

/-- What is encrypted: the frame has moved behind its length. -/
theorem frame_plaintext (data : Mem) (position limit n : Nat) :
    let data' := store (move (move data (position + n + 2 + 16) (position + n) (limit - (position + n)))
      (position + 2) position n) position (hapWriteLittleUInt16 n)
    slice data' (position + 2) n = slice data position n ∧ slice data' position 2 = hapWriteLittleUInt16 n := by
  have hw : (hapWriteLittleUInt16 n).length = 2 := rfl
  refine ⟨?_, ?_⟩
  · rw [slice_store_of_disjoint (Or.inr (by omega)), slice_move, slice_move_of_disjoint (Or.inl (by omega))]
  · have := slice_store (move (move data (position + n + 2 + 16) (position + n) (limit - (position + n))) (position + 2) position n)
      position (hapWriteLittleUInt16 n)
    rwa [hw] at this

/-- The loop turns the data into frames in place, if they fit. -/
theorem encryptLoop_spec {capacity : Nat} {left : Nat} : ∀ {session : HAPSessionSecurity} {data : Mem} {position limit : Nat},
    limit - position = left → (0 < left → session.active = true) → position ≤ limit →
    position + (left + 18 * numFrames left) ≤ capacity →
    ∃ data', encryptLoop aead session data capacity position limit =
        .ok (data', position + (left + 18 * numFrames left),
          { session with accessoryToController := session.accessoryToController.advance (numFrames left) }) ∧
      slice data' position (left + 18 * numFrames left) = sealFrames aead session.accessoryToController (slice data position left) ∧
      ∀ a, a < position ∨ position + (left + 18 * numFrames left) ≤ a → data' a = data a := by
  induction left using Nat.strongRecOn with
  | ind left ih =>
    intro session data position limit hleft hactive hle hfit
    rw [encryptLoop]
    by_cases hpos : position < limit
    · obtain ⟨n, hn⟩ : ∃ n, min (limit - position) maxFrameBytes = n := ⟨_, rfl⟩
      have hn1 : 1 ≤ n ∧ n ≤ left ∧ (n < left → n = 1024) ∧ n ≤ 1024 := by
        simp only [maxFrameBytes] at hn
        omega
      have hcount : numFrames left = 1 + numFrames (left - n) := by
        simp only [numFrames]
        omega
      have htake : (slice data position left).take maxFrameBytes = slice data position n := by
        rw [take_slice, ← hn, ← hleft, Nat.min_comm]
      have hdrop : (slice data position left).drop maxFrameBytes = slice data (position + n) (left - n) := by
        rw [drop_slice, maxFrameBytes]
        rcases Nat.lt_or_ge n left with h | h
        · rw [hn1.2.2.1 h]
        · rw [Nat.sub_eq_zero_of_le h, Nat.sub_eq_zero_of_le (by omega), slice_zero, slice_zero]
      obtain ⟨hplain, haad⟩ := frame_plaintext data position limit n
      rw [if_pos hpos]
      simp only [hn, hplain, haad]
      rw [hapSessionEncryptControlMessageWithAAD, if_neg (by rw [hactive (by omega)]; decide)]
      obtain ⟨e, he⟩ : ∃ e, encrypt aead session.accessoryToController (slice data position n) (hapWriteLittleUInt16 n) = e := ⟨_, rfl⟩
      have helen : e.1.length = n + 16 := by rw [← he, length_encrypt, length_slice]
      have hechan : e.2 = session.accessoryToController.advance 1 := by rw [← he]; rfl
      simp only [he]
      rw [if_pos (by omega)]
      obtain ⟨hframe, hrest, hbelow⟩ := frame_memory data position limit n e.1 helen
      obtain ⟨data₁, hd₁⟩ : ∃ data₁, store (store (move (move data (position + n + 2 + 16) (position + n)
        (limit - (position + n))) (position + 2) position n) position (hapWriteLittleUInt16 n)) (position + 2) e.1 = data₁ := ⟨_, rfl⟩
      simp only [hd₁] at hframe hrest hbelow ⊢
      have hplace : position + n + 2 + 16 = position + (n + 18) := by omega
      have hremaining : limit - (position + n) = left - n := by omega
      rw [hremaining, hplace] at hrest
      rw [hplace]
      obtain ⟨data', hloop, htext, hkept⟩ := @ih (left - n) (by omega) { session with accessoryToController := e.2 } data₁
        (position + (n + 18)) (limit + 18) (by omega) (fun _ => hactive (by omega)) (by omega) (by omega)
      have hseal : sealFrames aead session.accessoryToController (slice data position left) =
          hapWriteLittleUInt16 n ++ e.1 ++ sealFrames aead e.2 (slice data (position + n) (left - n)) := by
        have hne : slice data position left ≠ [] := by
          intro h
          have := congrArg List.length h
          simp only [length_slice, List.length_nil] at this
          omega
        rw [sealFrames, if_neg hne, htake, hdrop, length_slice, he, ← hechan]
      have htotal : left + 18 * numFrames left = n + 18 + (left - n + 18 * numFrames (left - n)) := by omega
      refine ⟨data', ?_, ?_, ?_⟩
      · rw [hloop, htotal, hcount, hechan]
        simp only [advance_advance]
        rw [Nat.add_assoc position]
      · rw [htotal, slice_add, htext, hrest, hseal, ← hframe]
        congr 1
        exact slice_congr fun x _ hx => hkept x (by omega)
      · intro a ha
        rw [hkept a (by omega), hbelow a (by omega)]
    · have h0 : left = 0 := by omega
      subst h0
      have hz : numFrames 0 = 0 := rfl
      rw [if_neg hpos, hz]
      refine ⟨data, ?_, ?_, fun _ _ => rfl⟩
      · have hlimit : limit = position := by omega
        simp [hlimit]
      · simp [sealFrames_nil]

/-- If there is room, the data of the buffer becomes its frames. -/
theorem encryptData_ok {session : HAPSessionSecurity} {buffer : HAPIPByteBuffer}
    (hpre : buffer.position ≤ buffer.limit ∧ buffer.limit ≤ buffer.capacity)
    (hroom : buffer.position + hapIPSecurityProtocolGetNumEncryptedBytes buffer.numBytes ≤ buffer.capacity)
    (hactive : 0 < buffer.numBytes → session.active = true) :
    ∃ data', hapIPSecurityProtocolEncryptData aead session buffer =
        .ok ({ buffer with data := data', limit := buffer.position + hapIPSecurityProtocolGetNumEncryptedBytes buffer.numBytes },
          { session with accessoryToController := session.accessoryToController.advance (numFrames buffer.numBytes) }) ∧
      slice data' buffer.position (hapIPSecurityProtocolGetNumEncryptedBytes buffer.numBytes) =
        sealFrames aead session.accessoryToController buffer.bytes ∧
      ∀ a, a < buffer.position ∨ buffer.position + hapIPSecurityProtocolGetNumEncryptedBytes buffer.numBytes ≤ a →
        data' a = buffer.data a := by
  have hcount := getNumEncryptedBytes_eq buffer.numBytes
  rw [hcount] at hroom ⊢
  obtain ⟨data', hrun, htext, hframe⟩ := encryptLoop_spec aead rfl hactive hpre.1 hroom
  refine ⟨data', ?_, htext, hframe⟩
  have hassert : hapIPSecurityProtocolGetNumEncryptedBytes (buffer.limit - buffer.position) ≤ buffer.capacity ∧
      buffer.position ≤ buffer.capacity - hapIPSecurityProtocolGetNumEncryptedBytes (buffer.limit - buffer.position) := by
    rw [show buffer.limit - buffer.position = buffer.numBytes from rfl, hcount]
    omega
  simp only [hapIPSecurityProtocolEncryptData, hapPrecondition, if_pos hpre, hapAssert, if_pos hassert, hrun]
  rfl

/-- A buffer that is too small is not touched. -/
theorem encryptData_error {session : HAPSessionSecurity} {buffer : HAPIPByteBuffer}
    (h : ¬(buffer.position ≤ buffer.limit ∧ buffer.limit ≤ buffer.capacity) ∨
      buffer.capacity < buffer.position + hapIPSecurityProtocolGetNumEncryptedBytes buffer.numBytes ∨
      0 < buffer.numBytes ∧ session.active = false) :
    ∃ err, hapIPSecurityProtocolEncryptData aead session buffer = .error err := by
  by_cases hpre : buffer.position ≤ buffer.limit ∧ buffer.limit ≤ buffer.capacity
  · by_cases hassert : hapIPSecurityProtocolGetNumEncryptedBytes (buffer.limit - buffer.position) ≤ buffer.capacity ∧
        buffer.position ≤ buffer.capacity - hapIPSecurityProtocolGetNumEncryptedBytes (buffer.limit - buffer.position)
    · have hactive : 0 < buffer.limit - buffer.position ∧ session.active = false := by
        rcases h with h | h | h
        · exact absurd hpre h
        · simp only [HAPIPByteBuffer.numBytes] at h
          omega
        · exact h
      have hloop : encryptLoop aead session buffer.data buffer.capacity buffer.position buffer.limit = .error .assertion := by
        rw [encryptLoop, if_pos (by omega)]
        simp only [hapSessionEncryptControlMessageWithAAD, if_pos hactive.2]
      simp only [hapIPSecurityProtocolEncryptData, hapPrecondition, if_pos hpre, hapAssert, if_pos hassert, hloop]
      exact ⟨_, rfl⟩
    · simp only [hapIPSecurityProtocolEncryptData, hapPrecondition, if_pos hpre, hapAssert, if_neg hassert]
      exact ⟨_, rfl⟩
  · simp only [hapIPSecurityProtocolEncryptData, hapPrecondition, if_neg hpre]
    exact ⟨_, rfl⟩

/-! ## Receiving -/

/-- What a receiver has got out of the bytes that came: the plaintext of the frames that are complete, the bytes after them, and the
channel it goes on with. -/
structure Opened where
  plaintext : List UInt8
  rest : List UInt8
  channel : HAPSessionChannelState
  deriving DecidableEq

/-- The length that a frame begins with. -/
def frameLength (bytes : List UInt8) : Nat := (bytes[0]?.getD 0).toNat + 256 * (bytes[1]?.getD 0).toNat

/-- The frames at the start of some bytes, or nothing if one of them is too long or is not authentic. -/
def openFrames (channel : HAPSessionChannelState) (bytes : List UInt8) : Option Opened :=
  if bytes.length < 2 then some ⟨[], bytes, channel⟩
  else if maxFrameBytes < frameLength bytes then none
  else if bytes.length < frameLength bytes + 18 then some ⟨[], bytes, channel⟩
  else
    match decrypt aead channel ((bytes.drop 2).take (frameLength bytes + 16)) (bytes.take 2) with
    | .error _ => none
    | .ok (m, channel) =>
      (openFrames channel (bytes.drop (frameLength bytes + 18))).map fun o => { o with plaintext := m ++ o.plaintext }
termination_by bytes.length
decreasing_by
  rw [List.length_drop]
  omega

variable {aead}

/-- The length of a frame is in its first two bytes. -/
theorem frameLength_append {x : List UInt8} (h : 2 ≤ x.length) (y : List UInt8) : frameLength (x ++ y) = frameLength x := by
  rw [frameLength, frameLength, List.getElem?_append_left (by omega), List.getElem?_append_left (by omega)]

/-- A length that has been written is read back. -/
theorem frameLength_write {n : Nat} (h : n < 65536) (y : List UInt8) : frameLength (hapWriteLittleUInt16 n ++ y) = n := by
  simp only [frameLength, hapWriteLittleUInt16, List.cons_append, List.nil_append, List.getElem?_cons_zero, List.getElem?_cons_succ,
    Option.getD_some, UInt8.toNat_ofNat']
  omega

/-- The length of the frame at an address. -/
theorem frameLength_slice (m : Mem) (a : Nat) {k : Nat} (h : 2 ≤ k) : frameLength (slice m a k) = hapReadLittleUInt16 m a := by
  obtain ⟨j, rfl⟩ := Nat.exists_eq_add_of_le h
  rw [slice_add, frameLength_append (by simp)]
  rfl

/-- No frame is complete. -/
theorem openFrames_of_incomplete {channel : HAPSessionChannelState} {bytes : List UInt8}
    (h : bytes.length < 2 ∨ frameLength bytes ≤ maxFrameBytes ∧ bytes.length < frameLength bytes + 18) :
    openFrames aead channel bytes = some ⟨[], bytes, channel⟩ := by
  rw [openFrames]
  rcases h with h | ⟨hlen, h⟩
  · rw [if_pos h]
  · split_ifs with h2 h3
    · rfl
    · omega
    · rfl

/-- More bytes after the ones that came: opening goes on where it stopped. -/
theorem openFrames_append {channel : HAPSessionChannelState} {x : List UInt8} (y : List UInt8) :
    openFrames aead channel (x ++ y) =
      (openFrames aead channel x).bind fun o =>
        (openFrames aead o.channel (o.rest ++ y)).map fun o' => { o' with plaintext := o.plaintext ++ o'.plaintext } := by
  induction hn : x.length using Nat.strongRecOn generalizing channel x with
  | ind n ih =>
    have hstop : ∀ o : Option Opened, o.map (fun o' => { o' with plaintext := [] ++ o'.plaintext }) = o := by
      intro o
      cases o <;> rfl
    by_cases h2 : x.length < 2
    · rw [openFrames_of_incomplete (Or.inl h2)]
      exact (hstop _).symm
    · have hlength := frameLength_append (Nat.le_of_not_lt h2) y
      by_cases hmax : maxFrameBytes < frameLength x
      · have hx : openFrames aead channel x = none := by rw [openFrames, if_neg h2, if_pos hmax]
        rw [hx, openFrames, if_neg (by rw [List.length_append]; omega), hlength, if_pos hmax]
        rfl
      · by_cases hshort : x.length < frameLength x + 18
        · rw [openFrames_of_incomplete (Or.inr ⟨Nat.le_of_not_lt hmax, hshort⟩)]
          exact (hstop _).symm
        · have hbody : ((x ++ y).drop 2).take (frameLength x + 16) = (x.drop 2).take (frameLength x + 16) := by
            rw [List.drop_append_of_le_length (by omega), List.take_append_of_le_length (by rw [List.length_drop]; omega)]
          have haad : (x ++ y).take 2 = x.take 2 := List.take_append_of_le_length (by omega)
          have hrest : (x ++ y).drop (frameLength x + 18) = x.drop (frameLength x + 18) ++ y :=
            List.drop_append_of_le_length (by omega)
          have hx := openFrames.eq_def aead channel x
          rw [if_neg h2, if_neg hmax, if_neg hshort] at hx
          rw [openFrames, if_neg (by rw [List.length_append]; omega), hlength, if_neg hmax,
            if_neg (by rw [List.length_append]; omega), hbody, haad, hrest, hx]
          cases decrypt aead channel ((x.drop 2).take (frameLength x + 16)) (x.take 2) with
          | error _ => rfl
          | ok r =>
            obtain ⟨m, channel'⟩ := r
            simp only
            rw [ih (x.drop (frameLength x + 18)).length (by rw [List.length_drop]; omega) rfl]
            cases openFrames aead channel' (x.drop (frameLength x + 18)) with
            | none => rfl
            | some o => simp [Function.comp_def, List.append_assoc]

/-- Nothing that is left over can be opened without more bytes. -/
theorem openFrames_rest {channel : HAPSessionChannelState} {x : List UInt8} {o : Opened} (h : openFrames aead channel x = some o) :
    openFrames aead o.channel o.rest = some ⟨[], o.rest, o.channel⟩ := by
  have hagain := @openFrames_append aead channel x []
  rw [List.append_nil, h, Option.bind_some, List.append_nil] at hagain
  obtain ⟨o', ho', heq⟩ := Option.map_eq_some_iff.mp hagain.symm
  rw [ho']
  obtain ⟨p, r, c⟩ := o
  obtain ⟨p', r', c'⟩ := o'
  simp only [Opened.mk.injEq] at heq ⊢
  obtain ⟨hp, rfl, rfl⟩ := heq
  exact congrArg some (by rw [List.append_right_eq_self.mp hp])

/-- What was sent arrives, and the receiver's channel is where the sender's is. -/
theorem openFrames_sealFrames {channel : HAPSessionChannelState} (data : List UInt8) :
    openFrames aead channel (sealFrames aead channel data) = some ⟨data, [], channel.advance (numFrames data.length)⟩ := by
  induction hn : data.length using Nat.strongRecOn generalizing channel data with
  | ind n ih =>
    by_cases hd : data = []
    · subst hd
      subst hn
      rw [sealFrames_nil, openFrames_of_incomplete (Or.inl (by simp))]
      simp [numFrames]
    · have hpos := List.length_pos_iff.mpr hd
      obtain ⟨k, hk⟩ : ∃ k, (data.take maxFrameBytes).length = k := ⟨_, rfl⟩
      have hk1 : 1 ≤ k ∧ k ≤ 1024 ∧ numFrames n = 1 + numFrames (n - 1024) := by
        rw [List.length_take] at hk
        simp only [maxFrameBytes] at hk
        simp only [numFrames]
        omega
      have hlen := length_encrypt aead channel (data.take maxFrameBytes) (hapWriteLittleUInt16 k)
      have hopen := decrypt_encrypt aead channel (data.take maxFrameBytes) (hapWriteLittleUInt16 k)
      obtain ⟨e, he⟩ : ∃ e, (encrypt aead channel (data.take maxFrameBytes) (hapWriteLittleUInt16 k)).1 = e := ⟨_, rfl⟩
      have hseal : sealFrames aead channel data =
          (hapWriteLittleUInt16 k ++ e) ++ sealFrames aead (channel.advance 1) (data.drop maxFrameBytes) := by
        rw [sealFrames, if_neg hd, hk, he]
      rw [he, hk] at hlen
      rw [he] at hopen
      have hw : (hapWriteLittleUInt16 k).length = 2 := rfl
      have hframe : (hapWriteLittleUInt16 k ++ e).length = k + 18 := by
        rw [List.length_append, hw]
        omega
      rw [hseal, openFrames, if_neg (by rw [List.length_append]; omega), frameLength_append (by omega), frameLength_write (by omega),
        if_neg (by rw [maxFrameBytes]; omega), if_neg (by rw [List.length_append]; omega), List.drop_left' hframe,
        List.append_assoc, List.drop_left' hw, List.take_left' hlen, List.take_left' hw, hopen]
      simp only
      rw [ih (n - 1024) (by omega) (data.drop maxFrameBytes) (by rw [List.length_drop, hn]; rfl), Option.map_some, advance_advance,
        ← hk1.2.2, List.take_append_drop]

/-- What the text of a frame says about the frames that follow it. -/
theorem openFrames_frame {channel channel' : HAPSessionChannelState} {bytes m : List UInt8} (h : frameLength bytes + 18 ≤ bytes.length)
    (hmax : frameLength bytes ≤ maxFrameBytes)
    (hopen : decrypt aead channel ((bytes.drop 2).take (frameLength bytes + 16)) (bytes.take 2) = .ok (m, channel')) :
    openFrames aead channel bytes =
      (openFrames aead channel' (bytes.drop (frameLength bytes + 18))).map fun o => { o with plaintext := m ++ o.plaintext } := by
  rw [openFrames, if_neg (by omega), if_neg (by omega), if_neg (by omega), hopen]

/-- `HAPIPSecurityProtocolDecryptData` opens the frames in place. -/
theorem decryptData_spec {left : Nat} : ∀ {session : HAPSessionSecurity} {data : Mem} {position limit : Nat},
    limit - position = left → session.active = true → position ≤ limit →
    match openFrames aead session.controllerToAccessory (slice data position left) with
    | none => (hapIPSecurityProtocolDecryptData aead session data position limit).1 = .invalidData
    | some o =>
      ∃ data', hapIPSecurityProtocolDecryptData aead session data position limit =
          (.none, data', position + o.plaintext.length, position + o.plaintext.length + o.rest.length,
            { session with controllerToAccessory := o.channel }) ∧
        slice data' position o.plaintext.length = o.plaintext ∧
        slice data' (position + o.plaintext.length) o.rest.length = o.rest ∧
        o.plaintext.length + o.rest.length ≤ left ∧ ∀ a, a < position ∨ limit ≤ a → data' a = data a := by
  induction left using Nat.strongRecOn with
  | ind left ih =>
    intro session data position limit hleft hactive hle
    have hstop : position + left = limit := by omega
    by_cases h2 : left < 2
    · rw [openFrames_of_incomplete (Or.inl (by simpa using h2)), hapIPSecurityProtocolDecryptData, if_pos (by omega)]
      exact ⟨data, by simp [hstop], by simp, by simp, by simp, fun _ _ => rfl⟩
    · have hlength : frameLength (slice data position left) = hapReadLittleUInt16 data position := frameLength_slice data position (by omega)
      obtain ⟨n, hn⟩ : ∃ n, hapReadLittleUInt16 data position = n := ⟨_, rfl⟩
      rw [hn] at hlength
      rw [hapIPSecurityProtocolDecryptData, if_neg (by omega)]
      simp only [hn]
      by_cases hmax : maxFrameBytes < n
      · rw [openFrames, if_neg (by rw [length_slice]; omega), hlength, if_pos hmax, if_pos hmax]
      · rw [if_neg hmax]
        by_cases hshort : left < n + 18
        · rw [openFrames_of_incomplete (Or.inr ⟨by omega, by rw [length_slice]; omega⟩), if_pos (by omega)]
          exact ⟨data, by simp [hstop], by simp, by simp, by simp, fun _ _ => rfl⟩
        · have haad : (slice data position left).take 2 = slice data position 2 := by
            rw [take_slice, Nat.min_eq_left (by omega)]
          have hbody : ((slice data position left).drop 2).take (n + 16) = slice data (position + 2) (n + 16) := by
            rw [drop_slice, take_slice, Nat.min_eq_left (by omega)]
          have hrest : (slice data position left).drop (n + 18) = slice data (position + n + 2 + 16) (left - (n + 18)) := by
            rw [drop_slice, Nat.add_assoc, Nat.add_assoc]
          rw [if_neg (by omega), hapSessionDecryptControlMessageWithAAD, if_neg (by rw [hactive]; decide)]
          cases hd : decrypt aead session.controllerToAccessory (slice data (position + 2) (n + 16)) (slice data position 2) with
          | error err =>
            rw [openFrames, if_neg (by rw [length_slice]; omega), hlength, if_neg hmax, if_neg (by rw [length_slice]; omega), hbody,
              haad, hd]
          | ok r =>
            obtain ⟨m, channel'⟩ := r
            have hm : m.length = n := by
              have := (decrypt_ok aead hd).1
              rw [length_slice] at this
              omega
            rw [openFrames_frame (by rw [hlength, length_slice]; omega) (by omega) (by rw [hlength, hbody, haad]; exact hd), hlength, hrest]
            obtain ⟨data₁, hdata₁⟩ : ∃ data₁, move (store data position m) (position + n) (position + n + 2 + 16)
              (limit - (position + n + 2 + 16)) = data₁ := ⟨_, rfl⟩
            have hkept : ∀ a, a < position ∨ limit ≤ a → data₁ a = data a := by
              intro a ha
              rw [← hdata₁, move_of_not_mem (by omega), store_of_not_mem (by omega)]
            have hplain : slice data₁ position n = m := by
              rw [← hdata₁, slice_move_of_disjoint (Or.inl (Nat.le_refl _)), ← hm, slice_store]
            have hmoved : slice data₁ (position + n) (left - (n + 18)) = slice data (position + n + 2 + 16) (left - (n + 18)) := by
              have : limit - (position + n + 2 + 16) = left - (n + 18) := by omega
              rw [← hdata₁, this, slice_move, slice_store_of_disjoint (Or.inr (by omega))]
            have hnext := @ih (left - (n + 18)) (by omega) { session with controllerToAccessory := channel' } data₁ (position + n)
              (limit - (2 + 16)) (by omega) hactive (by omega)
            rw [hmoved] at hnext
            simp only [hdata₁]
            cases ho : openFrames aead channel' (slice data (position + n + 2 + 16) (left - (n + 18))) with
            | none =>
              rw [ho] at hnext
              exact hnext
            | some o =>
              rw [ho] at hnext
              obtain ⟨data', hrun, hp, hr, hroom, hframe⟩ := hnext
              simp only [Option.map_some, List.length_append, hm]
              refine ⟨data', ?_, ?_, ?_, by omega, ?_⟩
              · rw [hrun]
                simp only [Nat.add_assoc]
              · rw [slice_add, hp, ← hplain]
                congr 1
                exact slice_congr fun x _ hx => hframe x (Or.inl hx)
              · rw [← Nat.add_assoc]
                exact hr
              · intro a ha
                rw [hframe a (by omega), hkept a ha]

/-- What opens, opens as far as it has come. -/
theorem openFrames_prefix {channel : HAPSessionChannelState} {x y : List UInt8} {o : Opened}
    (h : openFrames aead channel (x ++ y) = some o) : ∃ o', openFrames aead channel x = some o' ∧ o'.plaintext <+: o.plaintext := by
  rw [openFrames_append] at h
  obtain ⟨o', ho', h⟩ := Option.bind_eq_some_iff.mp h
  obtain ⟨o'', -, rfl⟩ := Option.map_eq_some_iff.mp h
  exact ⟨o', ho', List.prefix_append _ _⟩

end CGuard
