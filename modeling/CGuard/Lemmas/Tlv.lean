import CGuard.Tlv

/-!
# Texts of TLVs

What a TLV is as a text (`encodeTLV`), over lists and without memory, and what the loops of the reader and of the writer do in terms of
it: each is one induction over the fragments that are left.
-/

namespace CGuard

open ByteMemory

/-- The text of a TLV: fragments of 255 bytes of the value, and a last one of at most 255. -/
def encodeTLV (type : UInt8) (value : List UInt8) : List UInt8 :=
  if value.length ≤ 255 then type :: UInt8.ofNat value.length :: value
  else type :: 255 :: (value.take 255 ++ encodeTLV type (value.drop 255))
termination_by value.length
decreasing_by simp only [List.length_drop]; omega

/-- The text of a list of TLVs. -/
def encodeTLVs (tlvs : List (UInt8 × List UInt8)) : List UInt8 := tlvs.flatMap fun tlv => encodeTLV tlv.1 tlv.2

/-- No TLV follows one of its own type. -/
def Separated (tlvs : List (UInt8 × List UInt8)) : Prop := (tlvs.map Prod.fst).IsChain (· ≠ ·)

instance (tlvs : List (UInt8 × List UInt8)) : Decidable (Separated tlvs) := inferInstanceAs (Decidable (List.IsChain _ _))

/-- The fragments of a value of `n` bytes. -/
def numFragments (n : Nat) : Nat := if n = 0 then 1 else (n + 254) / 255

/-- A short value is one fragment. -/
theorem encodeTLV_of_le {type : UInt8} {value : List UInt8} (h : value.length ≤ 255) :
    encodeTLV type value = type :: UInt8.ofNat value.length :: value := by
  rw [encodeTLV, if_pos h]

/-- A long value begins with a full fragment. -/
theorem encodeTLV_of_lt {type : UInt8} {value : List UInt8} (h : 255 < value.length) :
    encodeTLV type value = type :: 255 :: (value.take 255 ++ encodeTLV type (value.drop 255)) := by
  rw [encodeTLV, if_neg (by omega)]

/-- A TLV begins with its type. -/
theorem head_encodeTLV (type : UInt8) (value : List UInt8) : (encodeTLV type value).head? = some type := by
  rw [encodeTLV]
  split_ifs <;> rfl

/-- A TLV has a text. -/
theorem encodeTLV_ne_nil (type : UInt8) (value : List UInt8) : encodeTLV type value ≠ [] := by
  intro h
  have := head_encodeTLV type value
  rw [h] at this
  cases this

/-- A value takes its own bytes and a header for each of its fragments. -/
theorem length_encodeTLV (type : UInt8) : ∀ value : List UInt8,
    (encodeTLV type value).length = value.length + 2 * numFragments value.length := by
  intro value
  induction hn : value.length using Nat.strongRecOn generalizing value with
  | ind n ih =>
    by_cases h : value.length ≤ 255
    · rw [encodeTLV_of_le h]
      simp only [List.length_cons, numFragments, hn]
      split_ifs <;> omega
    · have hrec := ih (n - 255) (by omega) (value.drop 255) (by simp [hn])
      rw [encodeTLV_of_lt (by omega)]
      simp only [List.length_cons, List.length_append, List.length_take, hrec, numFragments]
      split_ifs <;> omega

/-- The length of a fragment fits into its byte. -/
theorem toNat_ofNat_length {value : List UInt8} (h : value.length ≤ 255) : (UInt8.ofNat value.length).toNat = value.length := by
  rw [UInt8.toNat_ofNat']
  omega

/-- The fragments after the first ones, if there are any. -/
def moreFragments (type : UInt8) (value : List UInt8) : List UInt8 := if value = [] then [] else encodeTLV type value

/-- A fragment before the others: it is full, or it is the last one. -/
theorem moreFragments_cons {type : UInt8} {value rest : List UInt8} (hv : value ≠ []) (hl : value.length ≤ 255)
    (hr : rest = [] ∨ value.length = 255) :
    moreFragments type (value ++ rest) = type :: UInt8.ofNat value.length :: (value ++ moreFragments type rest) := by
  have hne : value ++ rest ≠ [] := by simp [hv]
  rw [moreFragments, if_neg hne]
  rcases eq_or_ne rest [] with rfl | hrest
  · rw [List.append_nil, encodeTLV_of_le hl]
    simp [moreFragments]
  · have h255 : value.length = 255 := hr.resolve_left hrest
    have hpos := List.length_pos_iff.mpr hrest
    rw [encodeTLV_of_lt (by rw [List.length_append]; omega), moreFragments, if_neg hrest,
      List.take_append_of_le_length (by omega), List.drop_append_of_le_length (by omega), List.take_of_length_le hl,
      List.drop_eq_nil_of_le hl, List.nil_append, h255]
    rfl

/-- A value whose first fragment is followed by others, or not. -/
theorem encodeTLV_append {type : UInt8} {value rest : List UInt8} (hl : value.length ≤ 255)
    (hr : rest = [] ∨ value.length = 255) :
    encodeTLV type (value ++ rest) = type :: UInt8.ofNat value.length :: (value ++ moreFragments type rest) := by
  rcases eq_or_ne value [] with rfl | hv
  · have hrest : rest = [] := hr.resolve_right (by simp)
    rw [hrest, List.nil_append, encodeTLV_of_le (by simp)]
    rfl
  · rw [← moreFragments_cons hv hl hr, moreFragments, if_neg (by simp [hv])]

/-- A value cut after its first fragment. -/
theorem exists_first_fragment (value : List UInt8) :
    ∃ first rest, value = first ++ rest ∧ first.length ≤ 255 ∧ (rest = [] ∨ first.length = 255) ∧ (value ≠ [] → first ≠ []) := by
  refine ⟨value.take 255, value.drop 255, (List.take_append_drop 255 value).symm, ?_, ?_, ?_⟩
  · simp
  · by_cases h : value.length ≤ 255
    · exact Or.inl (List.drop_eq_nil_of_le h)
    · exact Or.inr (by rw [List.length_take]; omega)
  · intro hv
    simpa using hv

/-! ## Merging -/

/-- After a fragment has been merged the value is one piece, the space after it is zero, and the rest of the memory is as before. -/
theorem mergeTLVBody_spec (m : Mem) (bytes numBytes k n : Nat) :
    slice (mergeTLVBody m bytes (numBytes + 2 * k) k n) bytes (numBytes + n) =
        slice m bytes numBytes ++ slice m (bytes + (numBytes + 2 * k) + 2) n ∧
      (∀ a, bytes + (numBytes + n) ≤ a → a < bytes + (numBytes + 2 * k + n + 2) →
        mergeTLVBody m bytes (numBytes + 2 * k) k n a = 0) ∧
      ∀ a, a < bytes ∨ bytes + (numBytes + 2 * k + n + 2) ≤ a → mergeTLVBody m bytes (numBytes + 2 * k) k n a = m a := by
  have hdst : numBytes + 2 * k - 2 * k = numBytes := by omega
  have hfill : numBytes + 2 * k + n + 2 - 2 * (k + 1) = numBytes + n := by omega
  unfold mergeTLVBody
  rw [hdst, hfill]
  refine ⟨?_, ?_, ?_⟩
  · rw [slice_fill_of_disjoint (Or.inl (by omega)), slice_add, slice_move_of_disjoint (Or.inl (Nat.le_refl _)), slice_move]
  · intro a h1 h2
    exact if_pos ⟨h1, by omega⟩
  · intro a h
    rw [fill_of_not_mem (by omega), move_of_not_mem (by omega)]

/-! ## Reading on -/

/-- What the loop over the further fragments has done when it returns: it has read the fragments of `w`, the value has grown by `w`, the
space after it is zero, nothing else has changed, and what is left does not start with the type. -/
structure ReadOn (type : UInt8) (bytes : Nat) (m : Mem) (o maxBytes k numBytes : Nat) (m' : Mem) (o' numBytes' : Nat)
    (w : List UInt8) : Prop where
  full : w = [] ∨ numBytes = k * 255
  offset : o' = o + (moreFragments type w).length
  room : o' ≤ o + maxBytes
  text : slice m (bytes + o) maxBytes = moreFragments type w ++ slice m (bytes + o') (o + maxBytes - o')
  next : (slice m (bytes + o') (o + maxBytes - o')).head? ≠ some type
  length : numBytes' = numBytes + w.length
  value : slice m' bytes numBytes' = slice m bytes numBytes ++ w
  zeros : (∀ a, bytes + numBytes ≤ a → a < bytes + o → m a = 0) → ∀ a, bytes + numBytes' ≤ a → a < bytes + o' → m' a = 0
  frame : ∀ a, a < bytes ∨ bytes + o' ≤ a → m' a = m a

/-- One header and its fragment, and what is after them. -/
theorem slice_fragment (m : Mem) (a n maxBytes : Nat) (h : n + 2 ≤ maxBytes) :
    slice m a maxBytes = m a :: m (a + 1) :: (slice m (a + 2) n ++ slice m (a + 2 + n) (maxBytes - 2 - n)) := by
  obtain ⟨rest, rfl⟩ : ∃ rest, maxBytes = n + rest + 1 + 1 := ⟨maxBytes - n - 2, by omega⟩
  have hrest : n + rest + 1 + 1 - 2 - n = rest := by omega
  rw [slice_succ, slice_succ, slice_add, hrest]

/-- The loop reads the fragments of a value, and stops before something else. -/
theorem readAdditionalChunks_ok {type : UInt8} {bytes maxBytes : Nat} :
    ∀ {m m' : Mem} {o k numBytes o' numBytes' : Nat}, o = numBytes + 2 * k →
      readAdditionalChunks type bytes m o maxBytes k numBytes = .ok (m', o', numBytes') →
      ∃ w, ReadOn type bytes m o maxBytes k numBytes m' o' numBytes' w := by
  induction maxBytes using Nat.strongRecOn with
  | ind maxBytes ih =>
    intro m m' o k numBytes o' numBytes' ho h
    rw [readAdditionalChunks] at h
    simp only at h
    split_ifs at h with hc h2 hn h0 hl
    · subst ho
      obtain ⟨w, hw⟩ := ih _ (by omega) (by omega) h
      have hcell : m (bytes + (numBytes + 2 * k)) = type := hc.2
      obtain ⟨n, hnum⟩ : ∃ n, (m (bytes + (numBytes + 2 * k) + 1)).toNat = n := ⟨_, rfl⟩
      rw [hnum] at hw h0 hl
      have hn255 : n ≤ 255 := by
        have := (m (bytes + (numBytes + 2 * k) + 1)).toNat_lt
        omega
      have hcell' : m (bytes + (numBytes + 2 * k) + 1) = UInt8.ofNat n := by rw [← hnum, UInt8.ofNat_toNat]
      obtain ⟨hvalue, hzero, hframe⟩ := mergeTLVBody_spec m bytes numBytes k n
      have hpiece : (slice m (bytes + (numBytes + 2 * k) + 2) n).length = n := length_slice _ _ _
      have hne : slice m (bytes + (numBytes + 2 * k) + 2) n ≠ [] := by
        intro h
        rw [h] at hpiece
        exact h0 hpiece.symm
      have hfull : w = [] ∨ (slice m (bytes + (numBytes + 2 * k) + 2) n).length = 255 :=
        hw.full.imp id fun h => by rw [hpiece]; omega
      have hmore := @moreFragments_cons type _ _ hne (by omega) hfull
      have hoff := hw.offset
      have hroom := hw.room
      have hunread : ∀ a c, bytes + (numBytes + 2 * k + n + 2) ≤ a →
          slice (mergeTLVBody m bytes (numBytes + 2 * k) k n) a c = slice m a c :=
        fun a c ha => slice_congr fun x hx _ => hframe x (Or.inr (by omega))
      have hleft : numBytes + 2 * k + n + 2 + (maxBytes - 2 - n) - o' = numBytes + 2 * k + maxBytes - o' := by omega
      have htext := hw.text
      have hnext := hw.next
      rw [hleft, hunread _ _ (by omega)] at hnext
      rw [hleft, hunread _ _ (by omega), hunread _ _ (by omega)] at htext
      refine ⟨slice m (bytes + (numBytes + 2 * k) + 2) n ++ w, ?_⟩
      constructor
      · exact Or.inr (not_not.mp hn)
      · rw [hmore]
        simp only [List.length_cons, List.length_append, hpiece]
        omega
      · omega
      · have hassoc : bytes + (numBytes + 2 * k) + 2 + n = bytes + (numBytes + 2 * k + n + 2) := by omega
        rw [slice_fragment m _ n maxBytes (by omega), hmore, hcell, hcell', hpiece, hassoc, htext]
        simp
      · exact hnext
      · rw [hw.length, List.length_append, hpiece]
        omega
      · rw [hw.value, hvalue, List.append_assoc]
      · intro _
        exact hw.zeros hzero
      · intro a ha
        rw [hw.frame a (by omega), hframe a (by omega)]
    · cases h
      refine ⟨[], Or.inl rfl, rfl, by omega, ?_, ?_, by simp, by simp, id, fun _ _ => rfl⟩
      · rw [moreFragments, if_pos rfl, List.nil_append, Nat.add_sub_cancel_left]
      · rw [Nat.add_sub_cancel_left]
        cases maxBytes with
        | zero => simp
        | succ n =>
          rw [slice_succ]
          intro hh
          exact hc ⟨by omega, by simpa using hh⟩

/-- The loop reads every well-formed rest of a value. -/
theorem readAdditionalChunks_of_text {type : UInt8} {bytes maxBytes : Nat} :
    ∀ {m : Mem} {o k numBytes : Nat} {w rest : List UInt8}, o = numBytes + 2 * k → (w = [] ∨ numBytes = k * 255) →
      slice m (bytes + o) maxBytes = moreFragments type w ++ rest → rest.head? ≠ some type →
      ∃ r, readAdditionalChunks type bytes m o maxBytes k numBytes = .ok r := by
  induction maxBytes using Nat.strongRecOn with
  | ind maxBytes ih =>
    intro m o k numBytes w rest ho hw htext hrest
    rw [readAdditionalChunks]
    by_cases hc : maxBytes ≠ 0 ∧ m (bytes + o) = type
    · rw [if_pos hc]
      have hhead : (slice m (bytes + o) maxBytes).head? = some type := by
        obtain ⟨n, rfl⟩ := Nat.exists_eq_succ_of_ne_zero hc.1
        rw [slice_succ, hc.2]
        rfl
      have hwne : w ≠ [] := by
        rintro rfl
        rw [htext] at hhead
        exact hrest hhead
      have hfull : numBytes = k * 255 := hw.resolve_left hwne
      obtain ⟨first, w', rfl, hl, hr, hfirst⟩ := exists_first_fragment w
      have hf := hfirst hwne
      rw [moreFragments_cons hf hl hr] at htext
      have hlen := congrArg List.length htext
      simp only [length_slice, List.length_cons, List.length_append] at hlen
      have hfirstpos := List.length_pos_iff.mpr hf
      rw [slice_fragment m _ first.length maxBytes (by omega)] at htext
      simp only [List.cons_append, List.append_assoc, List.cons.injEq] at htext
      obtain ⟨-, hcount, hbody⟩ := htext
      have hnum : (m (bytes + o + 1)).toNat = first.length := by rw [hcount, toNat_ofNat_length hl]
      simp only [hnum]
      have hafter := (List.append_inj hbody (length_slice _ _ _)).2
      rw [if_neg (by omega), if_neg (by omega), if_neg (by omega), if_neg (by omega)]
      refine ih _ (by omega) (by omega) (hr.imp id fun h => by omega) ?_ hrest
      rw [← hafter, ho]
      have hassoc : bytes + (numBytes + 2 * k + first.length + 2) = bytes + (numBytes + 2 * k) + 2 + first.length := by omega
      rw [hassoc]
      exact slice_congr fun x hx _ => (mergeTLVBody_spec m bytes numBytes k first.length).2.2 x (Or.inr (by omega))
    · rw [if_neg hc]
      exact ⟨_, rfl⟩

/-! ## The next TLV -/

/-- What `HAPTLVReaderGetNext` has done when it returns a TLV: the reader has passed its text, its value is in one piece at the place of
the text and has only zeros after it, and nothing else has changed. -/
structure NextTLV (m : Mem) (reader : HAPTLVReader) (tlv : HAPTLV) (m' : Mem) (reader' : HAPTLVReader) (value : List UInt8) :
    Prop where
  bytes : tlv.bytes = some reader.bytes
  numBytes : tlv.numBytes = value.length
  place : reader'.bytes = reader.bytes + (encodeTLV tlv.type value).length
  ends : reader'.bytes + reader'.numBytes = reader.bytes + reader.numBytes
  text : slice m reader.bytes reader.numBytes = encodeTLV tlv.type value ++ slice m reader'.bytes reader'.numBytes
  next : (slice m reader'.bytes reader'.numBytes).head? ≠ some tlv.type
  merged : slice m' reader.bytes value.length = value
  zeros : ∀ a, reader.bytes + value.length ≤ a → a < reader'.bytes → m' a = 0
  frame : ∀ a, a < reader.bytes ∨ reader'.bytes ≤ a → m' a = m a

/-- A TLV that the reader returns is the next one. -/
theorem hapTLVReaderGetNext_some {m m' : Mem} {reader reader' : HAPTLVReader} {tlv : HAPTLV}
    (h : hapTLVReaderGetNext m reader = .ok (some tlv, m', reader')) : ∃ value, NextTLV m reader tlv m' reader' value := by
  unfold hapTLVReaderGetNext at h
  simp only at h
  split_ifs at h with h0 h2 hl
  · cases h
  · obtain ⟨⟨m₁, o, numBytes⟩, hr, h⟩ := bind_ok h
    cases h
    obtain ⟨n, hn⟩ : ∃ n, (m (reader.bytes + 1)).toNat = n := ⟨_, rfl⟩
    rw [hn] at hr hl
    have hn255 : n ≤ 255 := by
      have := (m (reader.bytes + 1)).toNat_lt
      omega
    obtain ⟨w, hw⟩ := readAdditionalChunks_ok (by omega) hr
    obtain ⟨hvalue, hzero, hframe⟩ := mergeTLVBody_spec m reader.bytes 0 0 n
    simp only [Nat.mul_zero, Nat.zero_add, Nat.add_zero, slice_zero, List.nil_append] at hvalue hzero hframe
    have hpiece : (slice m (reader.bytes + 2) n).length = n := length_slice _ _ _
    have hfull : w = [] ∨ (slice m (reader.bytes + 2) n).length = 255 := hw.full.imp id fun h => by rw [hpiece]; omega
    have henc := @encodeTLV_append (m reader.bytes) _ _ (by omega) hfull
    have hoff := hw.offset
    have hroom := hw.room
    have hunread : ∀ a c, reader.bytes + (n + 2) ≤ a → slice (mergeTLVBody m reader.bytes 0 0 n) a c = slice m a c :=
      fun a c ha => slice_congr fun x hx _ => hframe x (Or.inr (by omega))
    have hleft : n + 2 + (reader.numBytes - 2 - n) - o = reader.numBytes - o := by omega
    have htext := hw.text
    have hnext := hw.next
    rw [hleft, hunread _ _ (by omega)] at hnext
    rw [hleft, hunread _ _ (by omega), hunread _ _ (by omega)] at htext
    refine ⟨slice m (reader.bytes + 2) n ++ w, rfl, ?_, ?_, ?_, ?_, hnext, ?_, ?_, ?_⟩
    · show numBytes = _
      rw [hw.length, List.length_append, hpiece]
    · show reader.bytes + o = _
      rw [henc]
      simp only [List.length_cons, List.length_append, hpiece]
      omega
    · show reader.bytes + o + (reader.numBytes - o) = _
      omega
    · have hassoc : reader.bytes + 2 + n = reader.bytes + (n + 2) := by omega
      have hcell : m (reader.bytes + 1) = UInt8.ofNat n := by rw [← hn, UInt8.ofNat_toNat]
      rw [slice_fragment m _ n reader.numBytes (by omega), henc, hcell, hpiece, hassoc, htext]
      simp
    · rw [List.length_append, hpiece, ← hw.length, hw.value, hvalue]
    · intro a h1 h2
      rw [List.length_append, hpiece] at h1
      exact hw.zeros hzero a (by have := hw.length; omega) h2
    · intro a ha
      have ha' : a < reader.bytes ∨ reader.bytes + o ≤ a := ha
      show m₁ a = m a
      rw [hw.frame a ha', hframe a (by omega)]

/-- The reader returns nothing at the end of the text only. -/
theorem hapTLVReaderGetNext_none {m m' : Mem} {reader reader' : HAPTLVReader}
    (h : hapTLVReaderGetNext m reader = .ok (none, m', reader')) : reader.numBytes = 0 ∧ m' = m ∧ reader' = reader := by
  unfold hapTLVReaderGetNext at h
  simp only at h
  split_ifs at h with h0 h2 hl
  · cases h
    exact ⟨h0, rfl, rfl⟩
  · obtain ⟨⟨m₁, o, numBytes⟩, -, h⟩ := bind_ok h
    cases h

/-- The only error of the reader. -/
theorem hapTLVReaderGetNext_error {m : Mem} {reader : HAPTLVReader} {err : HAPError}
    (h : hapTLVReaderGetNext m reader = .error err) : err = .invalidData := by
  have hloop : ∀ (maxBytes : Nat) (m : Mem) (o k numBytes : Nat) (type : UInt8),
      readAdditionalChunks type reader.bytes m o maxBytes k numBytes = .error err → err = .invalidData := by
    intro maxBytes
    induction maxBytes using Nat.strongRecOn with
    | ind maxBytes ih =>
      intro m o k numBytes type h
      rw [readAdditionalChunks] at h
      simp only at h
      split_ifs at h
      · exact (Except.error.inj h).symm
      · exact (Except.error.inj h).symm
      · exact (Except.error.inj h).symm
      · exact (Except.error.inj h).symm
      · exact ih _ (by omega) _ _ _ _ _ h
  unfold hapTLVReaderGetNext at h
  simp only at h
  split_ifs at h
  · exact (Except.error.inj h).symm
  · exact (Except.error.inj h).symm
  · cases hr : readAdditionalChunks (m reader.bytes) reader.bytes
        (mergeTLVBody m reader.bytes 0 0 (m (reader.bytes + 1)).toNat) ((m (reader.bytes + 1)).toNat + 2)
        (reader.numBytes - 2 - (m (reader.bytes + 1)).toNat) 1 (m (reader.bytes + 1)).toNat with
    | error e =>
      rw [hr] at h
      have he : e = err := Except.error.inj h
      rw [← he] at hloop ⊢
      exact hloop _ _ _ _ _ _ hr
    | ok r =>
      rw [hr] at h
      cases h

/-- The reader finds every TLV that is there. -/
theorem hapTLVReaderGetNext_of_text {m : Mem} {reader : HAPTLVReader} {type : UInt8} {value rest : List UInt8}
    (h : slice m reader.bytes reader.numBytes = encodeTLV type value ++ rest) (hrest : rest.head? ≠ some type) :
    ∃ tlv m' reader', hapTLVReaderGetNext m reader = .ok (some tlv, m', reader') := by
  obtain ⟨first, w, rfl, hl, hr, -⟩ := exists_first_fragment value
  rw [encodeTLV_append hl hr] at h
  have hlen := congrArg List.length h
  simp only [length_slice, List.length_cons, List.length_append] at hlen
  rw [slice_fragment m _ first.length reader.numBytes (by omega)] at h
  simp only [List.cons_append, List.append_assoc, List.cons.injEq] at h
  obtain ⟨htype, hcount, hbody⟩ := h
  have hnum : (m (reader.bytes + 1)).toNat = first.length := by rw [hcount, toNat_ofNat_length hl]
  have hafter := (List.append_inj hbody (length_slice _ _ _)).2
  unfold hapTLVReaderGetNext
  simp only [hnum]
  rw [if_neg (by omega), if_neg (by omega), if_neg (by omega)]
  obtain ⟨⟨m', o, numBytes⟩, hloop⟩ := @readAdditionalChunks_of_text (m reader.bytes) reader.bytes (reader.numBytes - 2 - first.length)
    (mergeTLVBody m reader.bytes 0 0 first.length) (first.length + 2) 1 first.length w rest (by omega) (hr.imp id fun h => by omega)
    (by
      rw [htype, ← hafter, Nat.add_assoc, Nat.add_comm 2]
      exact slice_congr fun x hx _ => (mergeTLVBody_spec m reader.bytes 0 0 first.length).2.2 x (Or.inr (by omega)))
    (by rwa [htype])
  rw [hloop]
  exact ⟨_, _, _, rfl⟩

/-! ## Reading is unambiguous -/

/-- Where the fragments of a value end is known from the type of what follows. -/
theorem moreFragments_inj {type : UInt8} : ∀ {v v' r r' : List UInt8}, moreFragments type v ++ r = moreFragments type v' ++ r' →
    r.head? ≠ some type → r'.head? ≠ some type → v = v' ∧ r = r' := by
  have hnil : ∀ {v r : List UInt8}, v ≠ [] → (moreFragments type v ++ r).head? = some type := by
    intro v r hv
    rw [moreFragments, if_neg hv, List.head?_append, head_encodeTLV]
    rfl
  intro v
  induction hn : v.length using Nat.strongRecOn generalizing v with
  | ind n ih =>
    intro v' r r' h hr hr'
    by_cases hv : v = []
    · by_cases hv' : v' = []
      · subst hv hv'
        exact ⟨rfl, h⟩
      · have := hnil (r := r') hv'
        rw [← h, hv] at this
        exact absurd this hr
    · by_cases hv' : v' = []
      · have := hnil (r := r) hv
        rw [h, hv'] at this
        exact absurd this hr'
      · obtain ⟨first, w, rfl, hl, hw, hf⟩ := exists_first_fragment v
        obtain ⟨first', w', rfl, hl', hw', hf'⟩ := exists_first_fragment v'
        rw [moreFragments_cons (hf hv) hl hw, moreFragments_cons (hf' hv') hl' hw'] at h
        simp only [List.cons_append, List.append_assoc, List.cons.injEq, true_and] at h
        have hlen : first.length = first'.length := by rw [← toNat_ofNat_length hl, h.1, toNat_ofNat_length hl']
        obtain ⟨rfl, htail⟩ := List.append_inj h.2 hlen
        have hpos := List.length_pos_iff.mpr (hf hv)
        obtain ⟨rfl, rfl⟩ := ih w.length (by rw [← hn, List.length_append]; omega) rfl htail hr hr'
        exact ⟨rfl, rfl⟩

/-- Two ways to read a first TLV are one. -/
theorem encodeTLV_inj {t t' : UInt8} {v v' r r' : List UInt8} (h : encodeTLV t v ++ r = encodeTLV t' v' ++ r')
    (hr : r.head? ≠ some t) (hr' : r'.head? ≠ some t') : t = t' ∧ v = v' ∧ r = r' := by
  obtain ⟨first, w, rfl, hl, hw, -⟩ := exists_first_fragment v
  obtain ⟨first', w', rfl, hl', hw', -⟩ := exists_first_fragment v'
  rw [encodeTLV_append hl hw, encodeTLV_append hl' hw'] at h
  simp only [List.cons_append, List.append_assoc, List.cons.injEq] at h
  obtain ⟨rfl, hcount, hbody⟩ := h
  have hlen : first.length = first'.length := by rw [← toNat_ofNat_length hl, hcount, toNat_ofNat_length hl']
  obtain ⟨rfl, htail⟩ := List.append_inj hbody hlen
  obtain ⟨rfl, rfl⟩ := moreFragments_inj htail hr hr'
  exact ⟨rfl, rfl, rfl⟩

@[simp] theorem encodeTLVs_nil : encodeTLVs [] = [] := rfl

@[simp] theorem encodeTLVs_cons (tlv : UInt8 × List UInt8) (tlvs : List (UInt8 × List UInt8)) :
    encodeTLVs (tlv :: tlvs) = encodeTLV tlv.1 tlv.2 ++ encodeTLVs tlvs := rfl

/-- The text of a list in two parts. -/
theorem encodeTLVs_append (xs ys : List (UInt8 × List UInt8)) : encodeTLVs (xs ++ ys) = encodeTLVs xs ++ encodeTLVs ys :=
  List.flatMap_append

/-- A text of TLVs starts with the type of the first. -/
theorem head_encodeTLVs (tlvs : List (UInt8 × List UInt8)) : (encodeTLVs tlvs).head? = (tlvs.map Prod.fst).head? := by
  cases tlvs with
  | nil => rfl
  | cons tlv tlvs =>
    rw [encodeTLVs_cons, List.head?_append, head_encodeTLV]
    rfl

/-- A TLV is separated from the next one by its type. -/
theorem separated_cons {tlv : UInt8 × List UInt8} {tlvs : List (UInt8 × List UInt8)} :
    Separated (tlv :: tlvs) ↔ (encodeTLVs tlvs).head? ≠ some tlv.1 ∧ Separated tlvs := by
  rw [head_encodeTLVs]
  unfold Separated
  cases tlvs with
  | nil => simp
  | cons tlv' tlvs =>
    rw [List.map_cons, List.map_cons, List.isChain_cons_cons]
    simp [eq_comm]

end CGuard
