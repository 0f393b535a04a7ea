import CGuard.Base64
import CGuard.HapRequest
import CGuard.Lib.Base64Text

/-!
# Two decoders of one format

`mbedtls_base64_decode` and `util_base64_decode` against the meaning of a base64 text with one padding, group after group: a text of
`k + 1` groups of which they make `3 * k + 2` bytes is a padded text, and of a padded text both make its bytes.
-/

namespace CGuard

open Base64Text

/-- A text of at least four characters starts with a group. -/
theorem exists_group {t : List UInt8} (h : 4 ≤ t.length) : ∃ a b c e rest, t = a :: b :: c :: e :: rest := by
  rcases t with _ | ⟨a, _ | ⟨b, _ | ⟨c, _ | ⟨e, rest⟩⟩⟩⟩
  all_goals simp at h
  exact ⟨a, b, c, e, rest, rfl⟩

/-- The number of bytes of a padded text. -/
theorem bytes_length {k : Nat} : ∀ {t : List UInt8}, t.length = 4 * (k + 1) → IsPadded t → (bytes t).length = 3 * k + 2 := by
  induction k with
  | zero =>
    intro t hlen ht
    obtain ⟨a, b, c, e, rest, rfl⟩ := exists_group (by omega : 4 ≤ t.length)
    obtain rfl : rest = [] := List.length_eq_zero_iff.mp (by simp only [List.length_cons] at hlen; omega)
    obtain ⟨-, -, -, he⟩ := isPadded_group.mp ht
    rw [if_pos rfl] at he
    rw [he, bytes_padded]
    rfl
  | succ k ih =>
    intro t hlen ht
    obtain ⟨a, b, c, e, rest, rfl⟩ := exists_group (by omega : 4 ≤ t.length)
    simp only [List.length_cons] at hlen
    have hrest : rest ≠ [] := by
      rintro rfl
      simp only [List.length_nil] at hlen
      omega
    obtain ⟨-, -, -, he⟩ := isPadded_group.mp ht
    rw [if_neg hrest] at he
    rw [bytes_group he.1, List.length_append, ih (by omega) he.2]
    simp only [groupBytes, List.length_cons, List.length_nil]
    omega

/-! ## The table-driven decoder -/

/-- A character of the alphabet is none that the passes skip or count as padding, and the table has its six bits. -/
theorem base64DecMap_sextet (b : UInt8) :
    (sextet b).isSome = true → ¬ (b = carriageReturn ∨ b = lineFeed ∨ b = space) ∧ b ≠ padding ∧ ¬ (b > 127 ∨ base64DecMap b = 127) ∧
      base64DecMap b ≠ 64 ∧ base64DecMap b &&& 0x3F = value b := by
  revert b
  exact forall_byte (by decide +kernel)

/-- What the first pass counts without an error is a padding or a character of the alphabet. -/
theorem sextet_of_base64DecMap (b : UInt8) :
    ¬ (b > 127 ∨ base64DecMap b = 127) → b ≠ padding → (sextet b).isSome = true ∧ base64DecMap b < 64 := by
  revert b
  exact forall_byte (by decide +kernel)

/-- The first pass counts a character of the alphabet. -/
theorem firstPass_sextet {b : UInt8} (hb : (sextet b).isSome = true) (bs : List UInt8) (n : Nat) :
    firstPass (b :: bs) 0 n 0 = firstPass bs 0 (n + 1) 0 := by
  obtain ⟨hspace, hpad, hvalid, -, -⟩ := base64DecMap_sextet b hb
  rw [not_or, not_or] at hspace
  simp only [firstPass, if_neg hspace.2.2, if_neg hspace.2.1, hspace.1, false_and, if_false, ne_eq, not_true_eq_false, if_neg hpad,
    if_neg hvalid, and_false]
  rfl

/-- The first pass over a padded text: every character is counted, and one is a padding. -/
theorem firstPass_padded {s : List UInt8} (hs : ∀ b ∈ s, (sextet b).isSome = true) :
    ∀ n, firstPass (s ++ [pad]) 0 n 0 = some (n + s.length + 1, 1) := by
  induction s with
  | nil => exact fun n => rfl
  | cons b s ih =>
    intro n
    rw [List.cons_append, firstPass_sextet (hs b List.mem_cons_self), ih (fun c hc => hs c (List.mem_cons_of_mem b hc))]
    simp only [List.length_cons, Option.some.injEq, Prod.mk.injEq, and_true]
    omega

/-- The first pass counts no more characters than there are, and takes back no padding. -/
theorem firstPass_bounds (bs : List UInt8) :
    ∀ {x n j N J : Nat}, firstPass bs x n j = some (N, J) → N ≤ n + bs.length ∧ j ≤ J := by
  induction bs with
  | nil =>
    intro x n j N J h
    cases h
    exact ⟨Nat.le_refl _, Nat.le_refl _⟩
  | cons b bs ih =>
    intro x n j N J h
    rw [List.length_cons]
    by_cases hb : b = carriageReturn ∨ b = lineFeed ∨ b = space
    · obtain ⟨x', h'⟩ := firstPass_skipped h hb
      have := ih h'
      omega
    · obtain ⟨-, h'⟩ := firstPass_counted h hb
      have := ih h'
      split_ifs at this <;> omega

/-- A character after a padding is a padding or makes the first pass fail. -/
theorem firstPass_after_padding {b : UInt8} {bs : List UInt8} {n j N J : Nat} (hj : j ≠ 0)
    (h : firstPass (b :: bs) 0 n j = some (N, J)) (hb : ¬ (b = carriageReturn ∨ b = lineFeed ∨ b = space)) : b = padding := by
  by_contra hpad
  rw [not_or, not_or] at hb
  simp only [firstPass, if_neg hb.2.2, if_neg hb.2.1, hb.1, false_and, if_false, ne_eq, not_true_eq_false, if_neg hpad] at h
  split_ifs at h with _ hvalid hlow
  exact hlow ⟨(sextet_of_base64DecMap b hvalid hpad).2, hj⟩

/-- A character that the first pass counts and that is no padding is one of the alphabet. -/
theorem sextet_of_firstPass {b : UInt8} {bs : List UInt8} {x n j N J : Nat} (h : firstPass (b :: bs) x n j = some (N, J))
    (hb : ¬ (b = carriageReturn ∨ b = lineFeed ∨ b = space)) (hpad : b ≠ padding) : (sextet b).isSome = true := by
  rw [not_or, not_or] at hb
  simp only [firstPass, if_neg hb.2.2, if_neg hb.2.1, hb.1, false_and, if_false, if_neg hpad] at h
  split_ifs at h with _ _ hvalid
  exact (sextet_of_base64DecMap b hvalid hpad).1

/-- A text of which the first pass counts every character, with one padding, is a padded text. -/
theorem isPadded_of_firstPass {bs : List UInt8} :
    ∀ {x n : Nat}, firstPass bs x n 0 = some (n + bs.length, 1) → IsPadded bs := by
  induction bs with
  | nil =>
    intro x n h
    simp [firstPass] at h
  | cons b bs ih =>
    intro x n h
    have hcounted : ∀ {c : UInt8} {cs : List UInt8} {x m j : Nat}, firstPass (c :: cs) x m j = some (m + (cs.length + 1), 1) →
        ¬ (c = carriageReturn ∨ c = lineFeed ∨ c = space) := by
      intro c cs x m j h hc
      obtain ⟨x', h'⟩ := firstPass_skipped h hc
      have := (firstPass_bounds cs h').1
      omega
    have hb := hcounted h
    obtain ⟨-, h'⟩ := firstPass_counted h hb
    have hrest : n + (b :: bs).length = n + 1 + bs.length := by
      rw [List.length_cons]
      omega
    rw [hrest] at h'
    by_cases hpad : b = padding
    · -- the padding is the last character: after it there is room for paddings only, and there is no second one
      rw [if_pos hpad] at h'
      cases bs with
      | nil => exact isPadded_singleton.mpr hpad
      | cons c cs =>
        have hc := hcounted h'
        have hcpad := firstPass_after_padding (by decide) h' hc
        obtain ⟨-, h''⟩ := firstPass_counted h' hc
        rw [if_pos hcpad] at h''
        have := (firstPass_bounds cs h'').2
        omega
    · rw [if_neg hpad] at h'
      have hpadded := ih h'
      have hne : bs ≠ [] := by
        rintro rfl
        obtain ⟨s, hs, -⟩ := hpadded
        simp at hs
      exact (isPadded_cons hne).mpr ⟨sextet_of_firstPass h hb hpad, hpadded⟩

/-- The second pass shifts the six bits of a character of the alphabet into its accumulator. -/
theorem secondPass_sextet {b : UInt8} (hb : (sextet b).isSome = true) (bs : List UInt8) (j : Nat) (x : UInt32) (n : Nat) :
    secondPass (b :: bs) j x n =
      if n + 1 = 4 then (lowBytes (push x (value b))).take j ++ secondPass bs j (push x (value b)) 0
      else secondPass bs j (push x (value b)) (n + 1) := by
  obtain ⟨hspace, -, -, h64, hvalue⟩ := base64DecMap_sextet b hb
  simp only [secondPass, if_neg hspace, if_neg h64, hvalue]
  rfl

/-- The second pass shifts six zeros into its accumulator for a padding, and makes one byte less of the group. -/
theorem secondPass_pad (bs : List UInt8) (j : Nat) (x : UInt32) (n : Nat) :
    secondPass (pad :: bs) j x n =
      if n + 1 = 4 then (lowBytes (push x 0)).take (j - 1) ++ secondPass bs (j - 1) (push x 0) 0
      else secondPass bs (j - 1) (push x 0) (n + 1) := by
  have hspace : ¬ (pad = carriageReturn ∨ pad = lineFeed ∨ pad = space) := by decide
  have h64 : base64DecMap pad = 64 := by decide
  have hzero : (64 : UInt32) &&& 0x3F = 0 := by decide
  simp only [secondPass, if_neg hspace, h64, hzero, if_true]
  rfl

/-- Of a padded text the second pass makes its bytes, whatever is in the accumulator. -/
theorem secondPass_padded {k : Nat} :
    ∀ {t : List UInt8} (x : UInt32), t.length = 4 * (k + 1) → IsPadded t → secondPass t 3 x 0 = bytes t := by
  induction k with
  | zero =>
    intro t x hlen ht
    obtain ⟨a, b, c, e, rest, rfl⟩ := exists_group (by omega : 4 ≤ t.length)
    obtain rfl : rest = [] := List.length_eq_zero_iff.mp (by simp only [List.length_cons] at hlen; omega)
    obtain ⟨ha, hb, hc, he⟩ := isPadded_group.mp ht
    rw [if_pos rfl] at he
    subst he
    rw [secondPass_sextet ha, if_neg (by decide), secondPass_sextet hb, if_neg (by decide), secondPass_sextet hc,
      if_neg (by decide), secondPass_pad, if_pos rfl, bytes_padded,
      lowBytes_push x (value_lt a) (value_lt b) (value_lt c) (by decide)]
    exact List.append_nil _
  | succ k ih =>
    intro t x hlen ht
    obtain ⟨a, b, c, e, rest, rfl⟩ := exists_group (by omega : 4 ≤ t.length)
    simp only [List.length_cons] at hlen
    have hrest : rest ≠ [] := by
      rintro rfl
      simp only [List.length_nil] at hlen
      omega
    obtain ⟨ha, hb, hc, he⟩ := isPadded_group.mp ht
    rw [if_neg hrest] at he
    rw [secondPass_sextet ha, if_neg (by decide), secondPass_sextet hb, if_neg (by decide), secondPass_sextet hc,
      if_neg (by decide), secondPass_sextet he.1, if_pos rfl, bytes_group he.1, ih _ (by omega) he.2,
      lowBytes_push x (value_lt a) (value_lt b) (value_lt c) (value_lt e)]
    rfl

/-- The second pass writes at most three bytes for four characters that the first pass has counted. -/
theorem secondPass_length_groups (bs : List UInt8) :
    ∀ {x n j N J i : Nat} {y : UInt32} {k : Nat}, firstPass bs x n j = some (N, J) → k < 4 →
      n ≤ N ∧ (secondPass bs i y k).length ≤ 3 * ((k + (N - n)) / 4) := by
  induction bs with
  | nil =>
    intro x n j N J i y k h _
    cases h
    exact ⟨Nat.le_refl _, Nat.zero_le _⟩
  | cons b bs ih =>
    intro x n j N J i y k h hk
    by_cases hb : b = carriageReturn ∨ b = lineFeed ∨ b = space
    · obtain ⟨x', h'⟩ := firstPass_skipped h hb
      simp only [secondPass, if_pos hb]
      exact ih h' hk
    · obtain ⟨-, h'⟩ := firstPass_counted h hb
      simp only [secondPass, if_neg hb]
      generalize (if base64DecMap b = 64 then i - 1 else i) = i'
      by_cases hk3 : k + 1 = 4
      · obtain ⟨hN, hle⟩ := @ih _ _ _ _ _ i' (y <<< 6 ||| base64DecMap b &&& 0x3F) 0 h' (by decide)
        simp only [if_pos hk3, List.length_append, List.length_take, List.length_cons, List.length_nil]
        omega
      · obtain ⟨hN, hle⟩ := @ih _ _ _ _ _ i' (y <<< 6 ||| base64DecMap b &&& 0x3F) (k + 1) h' (by omega)
        simp only [if_neg hk3]
        omega

/-- `mbedtls_base64_decode` of 44 characters: it makes 32 bytes exactly of the padded texts. -/
theorem mbedtlsBase64Decode_iff {t d : List UInt8} (ht : t.length = base64AuthorizationDataLength) :
    mbedtlsBase64Decode authorizationDataLength t = ⟨0, some authorizationDataLength, d⟩ ↔ IsPadded t ∧ d = bytes t := by
  have hlen : t.length = 4 * (10 + 1) := ht
  constructor
  · intro h
    unfold mbedtlsBase64Decode at h
    split at h
    · simp [mbedtlsErrBase64InvalidCharacter] at h
    · rename_i N J hfirst
      split_ifs at h with h0
      · simp [authorizationDataLength] at h
      · simp only at h
        split_ifs at h with hsmall
        · simp [mbedtlsErrBase64BufferTooSmall] at h
        · simp only [Decoded.mk.injEq, Option.some.injEq, true_and, authorizationDataLength] at h hsmall
          obtain ⟨hout, rfl⟩ := h
          -- 32 bytes need all 44 characters, and one of them as padding
          have hgroups := (secondPass_length_groups t (i := 3) (y := 0) hfirst (by decide : 0 < 4)).2
          have hcount := (@secondPass_length t 0 0 0 N J 0 0 0 hfirst (Nat.le_refl 0) (by decide) (Nat.le_refl 0) (by decide)).2
          have hN := (firstPass_bounds t hfirst).1
          simp only [Nat.sub_zero, Nat.zero_add, Nat.add_zero] at hgroups hcount hN
          obtain rfl : N = 0 + t.length := by omega
          obtain rfl : J = 1 := by omega
          have hpadded := isPadded_of_firstPass hfirst
          exact ⟨hpadded, secondPass_padded 0 hlen hpadded⟩
  · rintro ⟨hpadded, rfl⟩
    obtain ⟨s, hs, hall⟩ := hpadded
    have hfirst := firstPass_padded hall 0
    rw [← hs] at hfirst
    have hsl : s.length = 43 := by
      rw [hs, List.length_append] at hlen
      simp only [List.length_cons, List.length_nil] at hlen
      omega
    have hout := secondPass_padded 0 hlen ⟨s, hs, hall⟩
    have hbytes := bytes_length hlen ⟨s, hs, hall⟩
    unfold mbedtlsBase64Decode
    rw [hfirst, hsl]
    simp only [hout, hbytes]
    rw [if_neg (by decide), if_neg (by decide)]
    rfl

/-! ## The decoder in place -/

/-- The character has six bits for one decoder exactly if it has them for the other, and they are the same. -/
theorem alphabetIndex_eq (b : UInt8) :
    alphabetIndex b = (sextet b).map UInt32.toUInt8 ∧ ((value b).toUInt8).toUInt32 = value b := by
  revert b
  exact forall_byte (by decide +kernel)

/-- A group takes a character of the alphabet. -/
theorem readGroup_sextet {b : UInt8} (hb : (sextet b).isSome = true) (i : Nat) (text : List UInt8) (group24 : UInt32) :
    readGroup (i + 1) (b :: text) group24 0 = readGroup i text (push group24 (value b)) 0 := by
  obtain ⟨v, hv⟩ := Option.isSome_iff_exists.mp hb
  have hpad : b ≠ pad := by
    rintro rfl
    rw [sextet_pad] at hv
    cases hv
  obtain ⟨hindex, hvalue⟩ := alphabetIndex_eq b
  have hval : value b = v := by rw [value, hv, Option.getD_some]
  rw [hval] at hvalue
  rw [hv, Option.map_some] at hindex
  simp only [readGroup, if_neg (show ¬ b = 61 from hpad), ne_eq, not_true_eq_false, if_false, hindex, hvalue, hval]
  rfl

/-- A group takes a padding as six zeros. -/
theorem readGroup_pad (i : Nat) (text : List UInt8) (group24 : UInt32) :
    readGroup (i + 1) (pad :: text) group24 0 = readGroup i text (push group24 0) 1 := by
  have hpush : push group24 0 = group24 <<< 6 := by simp [push]
  rw [hpush]
  simp [readGroup, pad]

/-- What a group has taken when it is complete: characters of the alphabet if there is no padding, a padded text if there is one. -/
theorem readGroup_some {i : Nat} :
    ∀ {text rest : List UInt8} {group24 g : UInt32} {padding p : Nat}, readGroup i text group24 padding = some (g, p, rest) →
      ∃ pre, text = pre ++ rest ∧ pre.length = i ∧ padding ≤ p ∧ (p = 0 → ∀ b ∈ pre, (sextet b).isSome = true) ∧
        (p = 1 → (padding = 0 → IsPadded pre) ∧ (padding = 1 → pre = [])) := by
  induction i with
  | zero =>
    intro text rest group24 g padding p h
    cases h
    refine ⟨[], rfl, rfl, Nat.le_refl _, fun _ b hb => by simp at hb, fun hp => ⟨fun h0 => ?_, fun _ => rfl⟩⟩
    rw [hp] at h0
    cases h0
  | succ i ih =>
    intro text rest group24 g padding p h
    cases text with
    | nil => cases h
    | cons b text =>
      by_cases hpad : b = 61
      · rw [readGroup, if_pos hpad] at h
        split_ifs at h
        obtain ⟨pre, rfl, hlen, hle, -, hone⟩ := ih h
        refine ⟨b :: pre, rfl, by rw [List.length_cons, hlen], by omega, by omega, fun hp => ⟨fun h0 => ?_, by omega⟩⟩
        rw [(hone hp).2 (by omega)]
        exact isPadded_singleton.mpr hpad
      · rw [readGroup, if_neg hpad] at h
        split_ifs at h with hzero
        rw [not_not] at hzero
        rw [(alphabetIndex_eq b).1] at h
        cases hb : sextet b with
        | none =>
          rw [hb] at h
          cases h
        | some v =>
          rw [hb] at h
          have hsome : (sextet b).isSome = true := by rw [hb]; rfl
          obtain ⟨pre, rfl, hlen, hle, hall, hone⟩ := ih h
          refine ⟨b :: pre, rfl, by rw [List.length_cons, hlen], hle, fun hp c hc => ?_, fun hp => ⟨fun h0 => ?_, by omega⟩⟩
          · rcases List.mem_cons.mp hc with rfl | hc
            · exact hsome
            · exact hall hp c hc
          · have hpadded := (hone hp).1 h0
            have hne : pre ≠ [] := by
              rintro rfl
              obtain ⟨s, hs, -⟩ := hpadded
              simp at hs
            exact (isPadded_cons hne).mpr ⟨hsome, hpadded⟩

/-- The groups of a padded text. -/
theorem decodeGroups_padded {k : Nat} :
    ∀ {fuel capacity : Nat} {t : List UInt8}, t.length = 4 * (k + 1) → k + 1 ≤ fuel → 3 * (k + 1) ≤ capacity → IsPadded t →
      decodeGroups fuel t capacity = (.none, bytes t) := by
  induction k with
  | zero =>
    intro fuel capacity t hlen hfuel hcap ht
    obtain ⟨fuel, rfl⟩ : ∃ n, fuel = n + 1 := ⟨fuel - 1, by omega⟩
    obtain ⟨a, b, c, e, rest, rfl⟩ := exists_group (by omega : 4 ≤ t.length)
    obtain rfl : rest = [] := List.length_eq_zero_iff.mp (by simp only [List.length_cons] at hlen; omega)
    obtain ⟨ha, hb, hc, he⟩ := isPadded_group.mp ht
    rw [if_pos rfl] at he
    subst he
    have hread : readGroup 4 [a, b, c, pad] 0 0 =
        some (push (push (push (push 0 (value a)) (value b)) (value c)) 0, 1, []) := by
      rw [readGroup_sextet ha, readGroup_sextet hb, readGroup_sextet hc, readGroup_pad]
      rfl
    have hgroup := lowBytes_push 0 (value_lt a) (value_lt b) (value_lt c) (by decide : (0 : UInt32).toNat < 64)
    have hnil : ∀ n, decodeGroups fuel [] n = (.none, []) := fun n => by cases fuel <;> rfl
    unfold lowBytes at hgroup
    simp only [decodeGroups, hread, hgroup, hnil, bytes_padded, groupBytes]
    rw [if_neg (by simp only [List.length_take, List.length_cons, List.length_nil]; omega), if_neg (by simp)]
    simp
  | succ k ih =>
    intro fuel capacity t hlen hfuel hcap ht
    obtain ⟨fuel, rfl⟩ : ∃ n, fuel = n + 1 := ⟨fuel - 1, by omega⟩
    obtain ⟨a, b, c, e, rest, rfl⟩ := exists_group (by omega : 4 ≤ t.length)
    simp only [List.length_cons] at hlen
    have hrest : rest ≠ [] := by
      rintro rfl
      simp only [List.length_nil] at hlen
      omega
    obtain ⟨ha, hb, hc, he⟩ := isPadded_group.mp ht
    rw [if_neg hrest] at he
    have hread : readGroup 4 (a :: b :: c :: e :: rest) 0 0 =
        some (push (push (push (push 0 (value a)) (value b)) (value c)) (value e), 0, rest) := by
      rw [readGroup_sextet ha, readGroup_sextet hb, readGroup_sextet hc, readGroup_sextet he.1]
      rfl
    have hgroup := lowBytes_push 0 (value_lt a) (value_lt b) (value_lt c) (value_lt e)
    unfold lowBytes at hgroup
    have htake : (groupBytes (value a) (value b) (value c) (value e)).take (3 - 0) =
        groupBytes (value a) (value b) (value c) (value e) := rfl
    have hthree : (groupBytes (value a) (value b) (value c) (value e)).length = 3 := rfl
    simp only [decodeGroups, hread, hgroup, htake, hthree, bytes_group he.1]
    rw [if_neg (by omega), if_neg (by simp), ih (by omega) (by omega) (by omega) he.2]

/-- A text that is decoded without an error starts with a complete group, and ends there if the group has a padding. -/
theorem decodeGroups_ok {fuel capacity : Nat} {t d : List UInt8} (ht : t ≠ []) (h : decodeGroups fuel t capacity = (.none, d)) :
    ∃ g p rest fuel' capacity' more, readGroup 4 t 0 0 = some (g, p, rest) ∧ (p ≠ 0 → rest = []) ∧
      decodeGroups fuel' rest capacity' = (.none, more) ∧ d.length = 3 - p + more.length := by
  obtain ⟨b, t, rfl⟩ := List.exists_cons_of_ne_nil ht
  cases fuel with
  | zero => cases h
  | succ fuel =>
    unfold decodeGroups at h
    split at h
    · cases h
    · rename_i g p rest hread
      simp only at h
      split_ifs at h with hcap hlast
      · cases h
      · cases h
      · generalize hmore : decodeGroups fuel rest _ = out at h
        obtain ⟨err, more⟩ := out
        rw [Prod.mk.injEq] at h
        obtain ⟨rfl, rfl⟩ := h
        refine ⟨g, p, rest, fuel, _, more, hread, fun hp => ?_, hmore, ?_⟩
        · by_contra hne
          exact hlast ⟨hp, hne⟩
        · simp only [List.length_append, List.length_take, List.length_cons, List.length_nil]
          omega

/-- A text of `k + 1` groups of which the decoder makes `3 * k + 2` bytes is a padded text. -/
theorem isPadded_of_decodeGroups {k : Nat} :
    ∀ {fuel capacity : Nat} {t d : List UInt8}, t.length = 4 * (k + 1) → d.length = 3 * k + 2 →
      decodeGroups fuel t capacity = (.none, d) → IsPadded t := by
  induction k with
  | zero =>
    intro fuel capacity t d hlen hd h
    have hne : t ≠ [] := List.ne_nil_of_length_pos (by omega)
    obtain ⟨g, p, rest, fuel', capacity', more, hread, -, hmore, hsum⟩ := decodeGroups_ok hne h
    obtain ⟨pre, rfl, hpre, -, -, hone⟩ := readGroup_some hread
    rw [List.length_append, hpre] at hlen
    obtain rfl : rest = [] := List.length_eq_zero_iff.mp (by omega)
    have hnil : more = [] := by
      cases fuel' <;> exact (Prod.ext_iff.mp hmore).2.symm
    rw [hnil, List.length_nil] at hsum
    rw [List.append_nil]
    exact (hone (by omega)).1 rfl
  | succ k ih =>
    intro fuel capacity t d hlen hd h
    have hne : t ≠ [] := List.ne_nil_of_length_pos (by omega)
    obtain ⟨g, p, rest, fuel', capacity', more, hread, hlast, hmore, hsum⟩ := decodeGroups_ok hne h
    obtain ⟨pre, rfl, hpre, -, hall, -⟩ := readGroup_some hread
    rw [List.length_append, hpre] at hlen
    have hp : p = 0 := by
      by_contra hp
      rw [hlast hp, List.length_nil] at hlen
      omega
    obtain ⟨s, rfl, hs⟩ := ih (by omega) (by omega) hmore
    refine ⟨pre ++ s, by rw [List.append_assoc], fun b hb => ?_⟩
    rcases List.mem_append.mp hb with hb | hb
    · exact hall hp b hb
    · exact hs b hb

/-- `util_base64_decode` of 44 characters in place: it makes 32 bytes exactly of the padded texts. -/
theorem utilBase64Decode_iff {t d : List UInt8} (ht : t.length = base64AuthorizationDataLength)
    (hd : d.length = authorizationDataLength) :
    utilBase64Decode t t.length = (.none, d) ↔ IsPadded t ∧ d = bytes t := by
  have hlen : t.length = 4 * (10 + 1) := ht
  unfold utilBase64Decode
  constructor
  · intro h
    have hpadded := isPadded_of_decodeGroups hlen hd h
    rw [decodeGroups_padded hlen (by omega) (by omega) hpadded] at h
    exact ⟨hpadded, (Prod.ext_iff.mp h).2.symm⟩
  · rintro ⟨hpadded, rfl⟩
    exact decodeGroups_padded hlen (by omega) (by omega) hpadded

end CGuard
