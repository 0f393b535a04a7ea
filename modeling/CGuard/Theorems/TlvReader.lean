import CGuard.Lemmas.Tlv

/-!
# What the reader of TLVs accepts

`HAPTLVReaderGetAll` takes the text of a list of TLVs apart, and accepts no other text: fragments are merged in the buffer, and a value
that has been handed out stays where it is.
-/

namespace CGuard

open ByteMemory

/-- The value of a requested TLV, if it has been found. -/
def HAPTLV.found (m : Mem) (item : HAPTLV) : Option (List UInt8) := item.bytes.map fun p => slice m p item.numBytes

/-- No requested type occurs twice. -/
def AtMostOnce (types : List UInt8) (tlvs : List (UInt8 × List UInt8)) : Prop :=
  ∀ t ∈ types, (tlvs.map Prod.fst).count t ≤ 1

namespace TlvReaderAux

theorem lookup_eq_none_iff_count {tlvs : List (UInt8 × List UInt8)} {t : UInt8} :
    tlvs.lookup t = none ↔ (tlvs.map Prod.fst).count t = 0 := by
  rw [List.count_eq_zero, List.lookup_eq_none_iff]
  simp only [List.mem_map, not_exists, not_and, bne_iff_ne, ne_eq]
  exact ⟨fun h x hx ht => h x hx ht.symm, fun h x hx ht => h x hx ht.symm⟩

/-- A TLV goes to the item of its type, if that has none. -/
theorem matchTLV_eq (tlv : HAPTLV) : ∀ {items : List HAPTLV}, (items.map HAPTLV.type).Nodup →
    matchTLV tlv items = if ∀ item ∈ items, item.type = tlv.type → item.bytes = none
      then .ok (items.map fun item => if item.type = tlv.type then tlv else item) else .error .invalidData := by
  intro items
  induction items with
  | nil => intro _; simp [matchTLV]
  | cons item items ih =>
    intro hnodup
    rw [List.map_cons, List.nodup_cons] at hnodup
    obtain ⟨hnot, hnodup⟩ := hnodup
    by_cases ht : item.type = tlv.type
    · have hrest : ∀ x ∈ items, x.type ≠ tlv.type := fun x hx hxt => hnot (List.mem_map.mpr ⟨x, hx, by rw [hxt, ht]⟩)
      have hsame : items.map (fun x => if x.type = tlv.type then tlv else x) = items :=
        (List.map_congr_left fun x hx => if_neg (hrest x hx)).trans (List.map_id _)
      cases hb : item.bytes with
      | none =>
        have hall : ∀ x ∈ item :: items, x.type = tlv.type → x.bytes = none := by
          intro x hx hxt
          rcases List.mem_cons.mp hx with rfl | hx
          · exact hb
          · exact absurd hxt (hrest x hx)
        rw [if_pos hall, List.map_cons, if_pos ht, hsame]
        simp [matchTLV, ht, hb]
      | some p =>
        have hall : ¬∀ x ∈ item :: items, x.type = tlv.type → x.bytes = none := by
          intro h
          have := h item List.mem_cons_self ht
          rw [hb] at this
          cases this
        rw [if_neg hall]
        simp [matchTLV, ht, hb]
    · have hiff : (∀ x ∈ item :: items, x.type = tlv.type → x.bytes = none) ↔
          ∀ x ∈ items, x.type = tlv.type → x.bytes = none := by simp [ht]
      simp only [matchTLV, if_neg ht, ih hnodup, hiff, List.map_cons]
      split_ifs <;> rfl

/-- What the loop keeps of an item: it is what the TLVs that have been read say, in memory that will not be written again, with a NUL
after it. -/
structure Found (m : Mem) (limit : Nat) (done : List (UInt8 × List UInt8)) (item : HAPTLV) : Prop where
  value : item.found m = done.lookup item.type
  ends : ∀ p, item.bytes = some p → p + item.numBytes < limit ∧ m (p + item.numBytes) = 0

/-- An item stays as it is while the reader goes on. -/
theorem Found.mono {m m' : Mem} {limit limit' : Nat} {done more : List (UInt8 × List UInt8)} {item : HAPTLV}
    (h : Found m limit done item) (hm : ∀ a, a < limit → m' a = m a) (hl : limit ≤ limit')
    (hmore : more.lookup item.type = none) : Found m' limit' (done ++ more) item := by
  constructor
  · rw [List.lookup_append, hmore, Option.or_none, ← h.value]
    refine Option.map_congr fun p hp => ?_
    have := (h.ends p hp).1
    exact slice_congr fun x _ hx => hm x (by omega)
  · intro p hp
    obtain ⟨h1, h2⟩ := h.ends p hp
    exact ⟨by omega, by rw [hm _ h1, h2]⟩

/-- The item that gets the next TLV. -/
theorem Found.ofNext {m m' : Mem} {reader reader' : HAPTLVReader} {tlv : HAPTLV} {value : List UInt8}
    {done : List (UInt8 × List UInt8)} (h : NextTLV m reader tlv m' reader' value) (hdone : done.lookup tlv.type = none) :
    Found m' reader'.bytes (done ++ [(tlv.type, value)]) tlv := by
  have hlen := length_encodeTLV tlv.type value
  have hplace := h.place
  have hpos : 0 < numFragments value.length := by
    unfold numFragments
    split_ifs <;> omega
  constructor
  · rw [List.lookup_append, hdone]
    simp only [HAPTLV.found, h.bytes, h.numBytes, h.merged, Option.map_some, Option.none_or, List.lookup_cons_self]
  · intro p hp
    rw [h.bytes] at hp
    cases hp
    rw [h.numBytes]
    exact ⟨by omega, h.zeros _ (Nat.le_refl _) (by omega)⟩

/-- The items after a step of the loop. -/
theorem found_step {m m' : Mem} {reader reader' : HAPTLVReader} {tlv : HAPTLV} {value : List UInt8}
    {done : List (UInt8 × List UInt8)} {items : List HAPTLV} (h : NextTLV m reader tlv m' reader' value)
    (hfound : ∀ item ∈ items, Found m reader.bytes done item)
    (hnone : ∀ item ∈ items, item.type = tlv.type → item.bytes = none) :
    ∀ item ∈ items.map (fun item => if item.type = tlv.type then tlv else item),
      Found m' reader'.bytes (done ++ [(tlv.type, value)]) item := by
  intro item hitem
  obtain ⟨x, hx, rfl⟩ := List.mem_map.mp hitem
  have hplace := h.place
  split_ifs with ht
  · refine Found.ofNext h ?_
    rw [← ht, ← (hfound x hx).value, HAPTLV.found, hnone x hx ht]
    rfl
  · refine (hfound x hx).mono (fun a ha => h.frame a (Or.inl ha)) (by omega) ?_
    rw [List.lookup_cons, beq_eq_false_iff_ne.mpr ht]
    rfl

theorem map_type_step (tlv : HAPTLV) (items : List HAPTLV) :
    (items.map fun item => if item.type = tlv.type then tlv else item).map HAPTLV.type = items.map HAPTLV.type := by
  rw [List.map_map]
  refine List.map_congr_left fun x _ => ?_
  simp only [Function.comp]
  split_ifs with h
  · exact h.symm
  · rfl

theorem count_step {t : UInt8} {tlv : UInt8 × List UInt8} {done : List (UInt8 × List UInt8)} :
    ((done ++ [tlv]).map Prod.fst).count t = (done.map Prod.fst).count t + if tlv.1 = t then 1 else 0 := by
  rw [List.map_append, List.count_append, List.map_singleton, List.count_singleton]
  simp [beq_iff_eq]

/-- What the loop has done when it returns. -/
theorem getAllLoop_ok {n : Nat} : ∀ {m m' : Mem} {reader reader' : HAPTLVReader} {items items' : List HAPTLV}
    {done : List (UInt8 × List UInt8)}, reader.numBytes = n → (items.map HAPTLV.type).Nodup →
    (∀ item ∈ items, Found m reader.bytes done item) → AtMostOnce (items.map HAPTLV.type) done →
    getAllLoop m reader items = .ok (items', m', reader') →
    ∃ tlvs, slice m reader.bytes reader.numBytes = encodeTLVs tlvs ∧ Separated tlvs ∧
      AtMostOnce (items.map HAPTLV.type) (done ++ tlvs) ∧ items'.map HAPTLV.type = items.map HAPTLV.type ∧
      (∀ item ∈ items', Found m' (reader.bytes + reader.numBytes) (done ++ tlvs) item) ∧
      ∀ a, a < reader.bytes ∨ reader.bytes + reader.numBytes ≤ a → m' a = m a := by
  induction n using Nat.strongRecOn with
  | ind n ih =>
    intro m m' reader reader' items items' done hn hnodup hfound honce h
    rw [getAllLoop] at h
    split at h
    · cases h
    · rename_i m₁ reader₁ hget
      cases h
      obtain ⟨h0, rfl, rfl⟩ := hapTLVReaderGetNext_none hget
      refine ⟨[], by rw [h0]; rfl, by simp [Separated], by simpa using honce, rfl, ?_, fun _ _ => rfl⟩
      rw [h0, List.append_nil]
      exact hfound
    · rename_i tlv m₁ reader₁ hget
      obtain ⟨value, hv⟩ := hapTLVReaderGetNext_some hget
      have hlt := hapTLVReaderGetNext_lt hget
      have hends := hv.ends
      have hplace := hv.place
      rw [matchTLV_eq tlv hnodup] at h
      split_ifs at h with hnone
      · simp only at h
        have honce₁ : AtMostOnce (items.map HAPTLV.type) (done ++ [(tlv.type, value)]) := by
          intro t ht
          rw [count_step]
          obtain ⟨item, hitem, rfl⟩ := List.mem_map.mp ht
          split_ifs with heq
          · have heq' : item.type = tlv.type := heq.symm
            have hl : done.lookup item.type = none := by
              rw [← (hfound item hitem).value, HAPTLV.found, hnone item hitem heq']
              rfl
            rw [lookup_eq_none_iff_count.mp hl]
          · exact honce _ ht
        obtain ⟨tlvs, htext, hsep, honce', htypes, hfound', hframe⟩ := ih reader₁.numBytes (by omega) rfl
          (by rw [map_type_step]; exact hnodup) (found_step hv hfound hnone) (by rw [map_type_step]; exact honce₁) h
        have hunread : slice m₁ reader₁.bytes reader₁.numBytes = slice m reader₁.bytes reader₁.numBytes :=
          slice_congr fun x hx _ => hv.frame x (Or.inr hx)
        rw [hunread] at htext
        refine ⟨(tlv.type, value) :: tlvs, ?_, ?_, ?_, ?_, ?_, ?_⟩
        · rw [hv.text, htext, encodeTLVs_cons]
        · refine separated_cons.mpr ⟨?_, hsep⟩
          rw [← htext]
          exact hv.next
        · rw [map_type_step] at honce'
          simpa using honce'
        · rw [htypes, map_type_step]
        · rw [← hends]
          simpa using hfound'
        · intro a ha
          rw [hframe a (by omega), hv.frame a (by omega)]

/-- The loop reads every text of separated TLVs in which no requested type occurs twice. -/
theorem getAllLoop_of_text {tlvs : List (UInt8 × List UInt8)} : ∀ {m : Mem} {reader : HAPTLVReader} {items : List HAPTLV}
    {done : List (UInt8 × List UInt8)}, slice m reader.bytes reader.numBytes = encodeTLVs tlvs → Separated tlvs →
    (items.map HAPTLV.type).Nodup → (∀ item ∈ items, Found m reader.bytes done item) →
    AtMostOnce (items.map HAPTLV.type) (done ++ tlvs) → ∃ r, getAllLoop m reader items = .ok r := by
  induction tlvs with
  | nil =>
    intro m reader items done htext _ _ _ _
    have h0 : reader.numBytes = 0 := by
      have := congrArg List.length htext
      simpa using this
    have hget : hapTLVReaderGetNext m reader = .ok (none, m, reader) := by simp [hapTLVReaderGetNext, h0]
    rw [getAllLoop]
    split
    · rename_i hg
      rw [hget] at hg
      cases hg
    · exact ⟨_, rfl⟩
    · rename_i hg
      rw [hget] at hg
      cases hg
  | cons x tlvs ih =>
    intro m reader items done htext hsep hnodup hfound honce
    obtain ⟨hhead, hsep'⟩ := separated_cons.mp hsep
    rw [encodeTLVs_cons] at htext
    obtain ⟨tlv, m', reader', hget⟩ := hapTLVReaderGetNext_of_text htext hhead
    obtain ⟨value, hv⟩ := hapTLVReaderGetNext_some hget
    have heq := hv.text
    rw [htext] at heq
    obtain ⟨htype, hvalue, hrest⟩ := encodeTLV_inj heq hhead hv.next
    have hx : x = (tlv.type, value) := Prod.ext htype hvalue
    subst hx
    have hnone : ∀ item ∈ items, item.type = tlv.type → item.bytes = none := by
      intro item hitem ht
      have hcount := honce item.type (List.mem_map.mpr ⟨item, hitem, rfl⟩)
      rw [List.map_append, List.count_append, List.map_cons, List.count_cons] at hcount
      have hone : ((tlv.type, value).1 == item.type) = true := beq_iff_eq.mpr ht.symm
      rw [if_pos hone] at hcount
      have hl := (hfound item hitem).value
      rw [lookup_eq_none_iff_count.mpr (by omega), HAPTLV.found] at hl
      simpa using hl
    have hunread : slice m' reader'.bytes reader'.numBytes = encodeTLVs tlvs := by
      rw [hrest]
      exact slice_congr fun a ha _ => hv.frame a (Or.inr ha)
    obtain ⟨r, hr⟩ := @ih _ _ _ (done ++ [(tlv.type, value)]) hunread hsep' (by rw [map_type_step]; exact hnodup)
      (found_step hv hfound hnone) (by rw [map_type_step]; simpa using honce)
    refine ⟨r, ?_⟩
    rw [getAllLoop]
    split
    · rename_i hg
      rw [hget] at hg
      cases hg
    · rename_i hg
      rw [hget] at hg
      cases hg
    · rename_i hg
      rw [hget] at hg
      cases hg
      rw [matchTLV_eq tlv hnodup, if_pos hnone]
      exact hr

/-- The only error of the loop. -/
theorem getAllLoop_error {n : Nat} : ∀ {m : Mem} {reader : HAPTLVReader} {items : List HAPTLV} {err : HAPError},
    reader.numBytes = n → (items.map HAPTLV.type).Nodup → getAllLoop m reader items = .error err → err = .invalidData := by
  induction n using Nat.strongRecOn with
  | ind n ih =>
    intro m reader items err hn hnodup h
    rw [getAllLoop] at h
    split at h
    · rename_i hget
      cases h
      exact hapTLVReaderGetNext_error hget
    · cases h
    · rename_i tlv m₁ reader₁ hget
      have hlt := hapTLVReaderGetNext_lt hget
      rw [matchTLV_eq tlv hnodup] at h
      split_ifs at h
      · exact ih reader₁.numBytes (by omega) rfl (by rw [map_type_step]; exact hnodup) h
      · exact (Except.error.inj h).symm

end TlvReaderAux

open TlvReaderAux

/-- The texts the reader accepts for the requested types. -/
def WellFormedRequest (types : List UInt8) (text : List UInt8) (tlvs : List (UInt8 × List UInt8)) : Prop :=
  text = encodeTLVs tlvs ∧ Separated tlvs ∧ AtMostOnce types tlvs

/-- TLVs of different types are a request. -/
theorem WellFormedRequest.of_nodup {types text : List UInt8} {tlvs : List (UInt8 × List UInt8)} (htext : text = encodeTLVs tlvs)
    (hnodup : (tlvs.map Prod.fst).Nodup) : WellFormedRequest types text tlvs :=
  ⟨htext, hnodup.isChain, fun t _ => List.nodup_iff_count_le_one.mp hnodup t⟩

namespace TlvReaderAux

theorem map_type_initializeTLVs (types : List UInt8) : (initializeTLVs types).map HAPTLV.type = types := by
  rw [initializeTLVs, List.map_map]
  exact List.map_id _

theorem found_initializeTLVs (m : Mem) (limit : Nat) (types : List UInt8) : ∀ item ∈ initializeTLVs types, Found m limit [] item := by
  intro item hitem
  obtain ⟨t, -, rfl⟩ := List.mem_map.mp hitem
  exact ⟨rfl, fun p hp => by cases hp⟩

/-- What the reader has done when it returns. -/
theorem getAll_ok {m m' : Mem} {reader reader' : HAPTLVReader} {requested : RequestedTypes} {items : List HAPTLV}
    (h : hapTLVReaderGetAll m reader requested = .ok (items, m', reader')) :
    ∃ tlvs, WellFormedRequest requested.1 (slice m reader.bytes reader.numBytes) tlvs ∧
      items.map (HAPTLV.found m') = requested.1.map (tlvs.lookup ·) ∧
      (∀ item ∈ items, ∀ p, item.bytes = some p →
        p + item.numBytes < reader.bytes + reader.numBytes ∧ m' (p + item.numBytes) = 0) ∧
      ∀ a, a < reader.bytes ∨ reader.bytes + reader.numBytes ≤ a → m' a = m a := by
  have htypes := map_type_initializeTLVs requested.1
  obtain ⟨tlvs, htext, hsep, honce, htypes', hfound, hframe⟩ := getAllLoop_ok rfl (by rw [htypes]; exact requested.2)
    (found_initializeTLVs m reader.bytes requested.1) (fun _ _ => Nat.zero_le _) h
  rw [htypes] at honce htypes'
  refine ⟨tlvs, ⟨htext, hsep, honce⟩, ?_, fun item hitem p hp => (hfound item hitem).ends p hp, hframe⟩
  have hmap : requested.1.map (tlvs.lookup ·) = (items.map HAPTLV.type).map (tlvs.lookup ·) := by rw [htypes']
  rw [hmap, List.map_map]
  exact List.map_congr_left fun item hitem => (hfound item hitem).value

/-- The reader returns for every text that is well formed. -/
theorem getAll_isOk {m : Mem} {reader : HAPTLVReader} {requested : RequestedTypes} {tlvs : List (UInt8 × List UInt8)}
    (h : WellFormedRequest requested.1 (slice m reader.bytes reader.numBytes) tlvs) :
    ∃ r, hapTLVReaderGetAll m reader requested = .ok r := by
  have htypes := map_type_initializeTLVs requested.1
  exact getAllLoop_of_text h.1 h.2.1 (by rw [htypes]; exact requested.2) (found_initializeTLVs m reader.bytes requested.1)
    (by rw [htypes]; exact h.2.2)

/-- A text is well formed in one way. -/
theorem encodeTLVs_inj : ∀ {xs ys : List (UInt8 × List UInt8)}, encodeTLVs xs = encodeTLVs ys → Separated xs → Separated ys → xs = ys := by
  intro xs
  induction xs with
  | nil =>
    intro ys h _ _
    cases ys with
    | nil => rfl
    | cons y ys => exact absurd (List.append_eq_nil_iff.mp h.symm).1 (encodeTLV_ne_nil _ _)
  | cons x xs ih =>
    intro ys h hx hy
    cases ys with
    | nil => exact absurd (List.append_eq_nil_iff.mp h).1 (encodeTLV_ne_nil _ _)
    | cons y ys =>
      obtain ⟨hx1, hx2⟩ := separated_cons.mp hx
      obtain ⟨hy1, hy2⟩ := separated_cons.mp hy
      rw [encodeTLVs_cons, encodeTLVs_cons] at h
      obtain ⟨h1, h2, h3⟩ := encodeTLV_inj h hx1 hy1
      rw [ih h3 hx2 hy2, Prod.ext h1 h2]

/-- Reading a well-formed text gives the values it is made of. -/
theorem getAll_of_text {m : Mem} {reader : HAPTLVReader} {requested : RequestedTypes} {tlvs : List (UInt8 × List UInt8)}
    (htext : slice m reader.bytes reader.numBytes = encodeTLVs tlvs) (hsep : Separated tlvs)
    (honce : AtMostOnce requested.1 tlvs) :
    ∃ items m' reader', hapTLVReaderGetAll m reader requested = .ok (items, m', reader') ∧
      items.map (HAPTLV.found m') = requested.1.map (tlvs.lookup ·) := by
  obtain ⟨⟨items, m', reader'⟩, hr⟩ := getAll_isOk ⟨htext, hsep, honce⟩
  obtain ⟨tlvs', ⟨htext', hsep', -⟩, hvalues, -⟩ := getAll_ok hr
  rw [encodeTLVs_inj (htext.symm.trans htext') hsep hsep']
  exact ⟨items, m', reader', hr, hvalues⟩

end TlvReaderAux

/-- `HAPTLVReaderGetAll` returns exactly when the buffer is the text of TLVs of which none follows one of its type, and none of a
requested type comes twice. Each requested value is then the one of that list, it ends before a NUL of the buffer, and the memory around
the buffer is as it was. The only error is `kHAPError_InvalidData`. -/
theorem hapTLVReaderGetAll_accepts (m : Mem) (reader : HAPTLVReader) (requested : RequestedTypes) :
    match hapTLVReaderGetAll m reader requested with
    | .error err =>
      err = .invalidData ∧ ¬∃ tlvs, WellFormedRequest requested.1 (slice m reader.bytes reader.numBytes) tlvs
    | .ok (items, m', _) =>
      ∃ tlvs, WellFormedRequest requested.1 (slice m reader.bytes reader.numBytes) tlvs ∧
        items.map (HAPTLV.found m') = requested.1.map (tlvs.lookup ·) ∧
        (∀ item ∈ items, ∀ p, item.bytes = some p →
          p + item.numBytes < reader.bytes + reader.numBytes ∧ m' (p + item.numBytes) = 0) ∧
        ∀ a, a < reader.bytes ∨ reader.bytes + reader.numBytes ≤ a → m' a = m a := by
  cases h : hapTLVReaderGetAll m reader requested with
  | error err =>
    refine ⟨getAllLoop_error rfl ?_ h, ?_⟩
    · rw [map_type_initializeTLVs]
      exact requested.2
    · rintro ⟨tlvs, htlvs⟩
      obtain ⟨r, hr⟩ := getAll_isOk htlvs
      rw [hr] at h
      cases h
  | ok r => exact getAll_ok h

end CGuard
