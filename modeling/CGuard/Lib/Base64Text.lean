import Mathlib.Data.List.Basic

/-!
# What a base64 text means

A character of the alphabet stands for six bits, four characters for three bytes, and the last four may have one padding, for two
bytes. A decoder shifts the six bits of each character into an accumulator and takes the bytes from there (`push`); what the accumulator
held before the four characters makes no difference.
-/

namespace Base64Text

/-- The padding character. -/
def pad : UInt8 := 61

/-- The six bits a character of the alphabet stands for. -/
def sextet (b : UInt8) : Option UInt32 :=
  if 65 ≤ b ∧ b ≤ 90 then some (b - 65).toUInt32
  else if 97 ≤ b ∧ b ≤ 122 then some (b - 71).toUInt32
  else if 48 ≤ b ∧ b ≤ 57 then some (b + 4).toUInt32
  else if b = 43 then some 62
  else if b = 47 then some 63
  else none

/-- The six bits of a character, or none of them set for any other character. -/
def value (b : UInt8) : UInt32 := (sextet b).getD 0

/-- The three bytes of four times six bits. -/
def groupBytes (a b c e : UInt32) : List UInt8 :=
  [UInt8.ofNat (a.toNat * 4 + b.toNat / 16), UInt8.ofNat (b.toNat % 16 * 16 + c.toNat / 4),
    UInt8.ofNat (c.toNat % 4 * 64 + e.toNat)]

/-- A text that ends in exactly one padding. -/
def IsPadded (t : List UInt8) : Prop := ∃ s, t = s ++ [pad] ∧ ∀ b ∈ s, (sextet b).isSome = true

/-- The bytes of a text, group by group. -/
def bytes : List UInt8 → List UInt8
  | a :: b :: c :: e :: rest =>
    (groupBytes (value a) (value b) (value c) (value e)).take (if e = pad then 2 else 3) ++ bytes rest
  | _ => []

/-! ## Writing -/

/-- The character for six bits. -/
def character (v : Nat) : UInt8 :=
  if v < 26 then UInt8.ofNat (65 + v)
  else if v < 52 then UInt8.ofNat (71 + v)
  else if v < 62 then UInt8.ofNat (v - 4)
  else if v = 62 then 43
  else 47

/-- The canonical text of some bytes: three bytes at a time, and paddings in place of what is missing from the last three. -/
def encode : List UInt8 → List UInt8
  | a :: b :: c :: rest =>
    character (a.toNat / 4) :: character (a.toNat % 4 * 16 + b.toNat / 16) :: character (b.toNat % 16 * 4 + c.toNat / 64) ::
      character (c.toNat % 64) :: encode rest
  | [a, b] => [character (a.toNat / 4), character (a.toNat % 4 * 16 + b.toNat / 16), character (b.toNat % 16 * 4), pad]
  | [a] => [character (a.toNat / 4), character (a.toNat % 4 * 16), pad, pad]
  | [] => []

/-! ## The accumulator -/

/-- Six bits shifted into an accumulator. -/
def push (x v : UInt32) : UInt32 := (x <<< 6) ||| v

/-- The low three bytes of an accumulator, the highest first. -/
def lowBytes (x : UInt32) : List UInt8 := [(x >>> 16).toUInt8, (x >>> 8).toUInt8, x.toUInt8]

/-- A digit is appended to the lower bits. -/
theorem toNat_push (x : UInt32) {v : UInt32} (hv : v.toNat < 64) : (push x v).toNat = (x.toNat * 64 + v.toNat) % 4294967296 := by
  have hx := x.toNat_lt
  have hshift : x.toNat <<< 6 % 2 ^ 32 = (x.toNat % 2 ^ 26) <<< 6 := by
    rw [Nat.shiftLeft_eq, Nat.shiftLeft_eq]
    omega
  have hor : (push x v).toNat = (x.toNat <<< 6 % 2 ^ 32) ||| v.toNat := by
    simp [push, UInt32.toNat_or, UInt32.toNat_shiftLeft]
  rw [hor, hshift, ← Nat.shiftLeft_add_eq_or_of_lt (by omega : v.toNat < 2 ^ 6), Nat.shiftLeft_eq]
  omega

/-- The three bytes of a group. -/
theorem toNat_lowBytes (x : UInt32) :
    lowBytes x = [UInt8.ofNat (x.toNat / 65536), UInt8.ofNat (x.toNat / 256), UInt8.ofNat x.toNat] := by
  simp only [lowBytes, List.cons.injEq, and_true, ← UInt8.toNat_inj]
  simp [Nat.shiftRight_eq_div_pow]

/-- After four characters the low bytes of the accumulator are those of the group. -/
theorem lowBytes_push (x : UInt32) {a b c e : UInt32} (ha : a.toNat < 64) (hb : b.toNat < 64) (hc : c.toNat < 64)
    (he : e.toNat < 64) : lowBytes (push (push (push (push x a) b) c) e) = groupBytes a b c e := by
  have hx := x.toNat_lt
  rw [toNat_lowBytes, toNat_push _ he, toNat_push _ hc, toNat_push _ hb, toNat_push _ ha]
  simp only [groupBytes, List.cons.injEq, and_true, ← UInt8.toNat_inj, UInt8.toNat_ofNat']
  refine ⟨?_, ?_, ?_⟩ <;> omega

/-! ## Characters -/

/-- A fact about every byte. -/
theorem forall_byte {P : UInt8 → Prop} (h : ∀ n < 256, P (UInt8.ofNat n)) (b : UInt8) : P b := by
  simpa using h b.toNat b.toNat_lt

/-- A digit has six bits. -/
theorem value_lt (b : UInt8) : (value b).toNat < 64 := by
  revert b
  exact forall_byte (by decide +kernel)

theorem sextet_pad : sextet pad = none := by decide

theorem value_pad : value pad = 0 := by decide

/-! ## Padded texts -/

theorem isPadded_singleton {b : UInt8} : IsPadded [b] ↔ b = pad := by
  constructor
  · rintro ⟨s, hs, -⟩
    cases s with
    | nil => simpa using hs
    | cons c cs => simp at hs
  · rintro rfl
    exact ⟨[], rfl, by simp⟩

/-- A padded text is a character before a padded text. -/
theorem isPadded_cons {b : UInt8} {t : List UInt8} (ht : t ≠ []) : IsPadded (b :: t) ↔ (sextet b).isSome = true ∧ IsPadded t := by
  constructor
  · rintro ⟨s, hs, hall⟩
    cases s with
    | nil =>
      rw [List.nil_append, List.cons.injEq] at hs
      exact absurd hs.2 ht
    | cons c cs =>
      rw [List.cons_append, List.cons.injEq] at hs
      obtain ⟨rfl, rfl⟩ := hs
      exact ⟨hall b List.mem_cons_self, cs, rfl, fun d hd => hall d (List.mem_cons_of_mem b hd)⟩
  · rintro ⟨hb, s, rfl, hall⟩
    refine ⟨b :: s, rfl, fun d hd => ?_⟩
    rcases List.mem_cons.mp hd with rfl | hd
    · exact hb
    · exact hall d hd

/-- A padded text has no NUL. -/
theorem zero_notMem_of_isPadded {t : List UInt8} (h : IsPadded t) : (0 : UInt8) ∉ t := by
  obtain ⟨s, rfl, hall⟩ := h
  intro hzero
  rcases List.mem_append.mp hzero with hzero | hzero
  · exact absurd (hall 0 hzero) (by decide)
  · exact absurd hzero (by decide)

/-- A padded text is one group with a padding, or a group without one and a padded text. -/
theorem isPadded_group {a b c e : UInt8} {rest : List UInt8} :
    IsPadded (a :: b :: c :: e :: rest) ↔
      (sextet a).isSome = true ∧ (sextet b).isSome = true ∧ (sextet c).isSome = true ∧
        if rest = [] then e = pad else (sextet e).isSome = true ∧ IsPadded rest := by
  rw [isPadded_cons (by simp), isPadded_cons (by simp), isPadded_cons (by simp)]
  split_ifs with hrest
  · rw [hrest, isPadded_singleton]
  · rw [isPadded_cons hrest]

/-- The bytes of a group of the alphabet, and of what follows it. -/
theorem bytes_group {a b c e : UInt8} {rest : List UInt8} (he : (sextet e).isSome = true) :
    bytes (a :: b :: c :: e :: rest) = groupBytes (value a) (value b) (value c) (value e) ++ bytes rest := by
  have hne : e ≠ pad := by
    rintro rfl
    rw [sextet_pad] at he
    cases he
  rw [bytes, if_neg hne]
  rfl

/-- The bytes of a group with one padding. -/
theorem bytes_padded {a b c : UInt8} : bytes [a, b, c, pad] = (groupBytes (value a) (value b) (value c) 0).take 2 := by
  rw [bytes, if_pos rfl, value_pad]
  rfl

/-! ## Reading what was written -/

/-- A character of the alphabet and its six bits. -/
theorem sextet_character {v : Nat} (hv : v < 64) : sextet (character v) = some (UInt32.ofNat v) := by
  revert v
  decide +kernel

/-- The character of a digit is in the alphabet. -/
theorem isSome_sextet_character {v : Nat} (hv : v < 64) : (sextet (character v)).isSome = true := by
  rw [sextet_character hv]
  rfl

/-- The character of a digit has its value. -/
theorem toNat_value_character {v : Nat} (hv : v < 64) : (value (character v)).toNat = v := by
  rw [value, sextet_character hv, Option.getD_some, UInt32.toNat_ofNat']
  omega

/-- The bytes of a group whose first three characters were written. -/
theorem groupBytes_character {u v w : Nat} (hu : u < 64) (hv : v < 64) (hw : w < 64) (e : UInt32) :
    groupBytes (value (character u)) (value (character v)) (value (character w)) e =
      [UInt8.ofNat (u * 4 + v / 16), UInt8.ofNat (v % 16 * 16 + w / 4), UInt8.ofNat (w % 4 * 64 + e.toNat)] := by
  simp only [groupBytes, toNat_value_character hu, toNat_value_character hv, toNat_value_character hw]

/-- The two bytes that a padded group was written for. -/
theorem groupBytes_encode_two (a b : UInt8) (e : UInt32) :
    (groupBytes (value (character (a.toNat / 4))) (value (character (a.toNat % 4 * 16 + b.toNat / 16)))
      (value (character (b.toNat % 16 * 4))) e).take 2 = [a, b] := by
  have ha := a.toNat_lt
  have hb := b.toNat_lt
  rw [groupBytes_character (by omega) (by omega) (by omega)]
  simp only [List.take_succ_cons, List.take_zero, List.cons.injEq, and_true, ← UInt8.toNat_inj, UInt8.toNat_ofNat']
  constructor <;> omega

/-- The three bytes that a group was written for. -/
theorem groupBytes_encode (a b c : UInt8) :
    groupBytes (value (character (a.toNat / 4))) (value (character (a.toNat % 4 * 16 + b.toNat / 16)))
      (value (character (b.toNat % 16 * 4 + c.toNat / 64))) (value (character (c.toNat % 64))) = [a, b, c] := by
  have ha := a.toNat_lt
  have hb := b.toNat_lt
  have hc := c.toNat_lt
  have he : (value (character (c.toNat % 64))).toNat = c.toNat % 64 := toNat_value_character (by omega)
  rw [groupBytes_character (by omega) (by omega) (by omega), he]
  simp only [List.cons.injEq, and_true, ← UInt8.toNat_inj, UInt8.toNat_ofNat']
  refine ⟨?_, ?_, ?_⟩ <;> omega

/-- The canonical text of two bytes more than a multiple of three: its length, its one padding, and its bytes. -/
theorem encode_spec {k : Nat} : ∀ {bs : List UInt8}, bs.length = 3 * k + 2 →
    (encode bs).length = 4 * (k + 1) ∧ IsPadded (encode bs) ∧ bytes (encode bs) = bs := by
  induction k with
  | zero =>
    intro bs hlen
    obtain ⟨a, b, rfl⟩ := List.length_eq_two.mp hlen
    have ha := a.toNat_lt
    have hb := b.toNat_lt
    refine ⟨rfl, isPadded_group.mpr ⟨?_, ?_, ?_, ?_⟩, ?_⟩
    · exact isSome_sextet_character (by omega)
    · exact isSome_sextet_character (by omega)
    · exact isSome_sextet_character (by omega)
    · rw [if_pos rfl]
    · rw [encode, bytes_padded, groupBytes_encode_two]
  | succ k ih =>
    intro bs hlen
    obtain ⟨a, b, c, rest, rfl⟩ : ∃ a b c rest, bs = a :: b :: c :: rest := by
      rcases bs with _ | ⟨a, _ | ⟨b, _ | ⟨c, rest⟩⟩⟩
      all_goals simp only [List.length_nil, List.length_cons] at hlen
      · omega
      · omega
      · omega
      · exact ⟨a, b, c, rest, rfl⟩
    have ha := a.toNat_lt
    have hb := b.toNat_lt
    have hc := c.toNat_lt
    obtain ⟨hlength, hpadded, hbytes⟩ := @ih rest (by simp only [List.length_cons] at hlen; omega)
    have hne : encode rest ≠ [] := by
      intro hnil
      rw [hnil] at hlength
      simp at hlength
    have he : (sextet (character (c.toNat % 64))).isSome = true := isSome_sextet_character (by omega)
    refine ⟨?_, isPadded_group.mpr ⟨?_, ?_, ?_, ?_⟩, ?_⟩
    · simp only [encode, List.length_cons, hlength]
      omega
    · exact isSome_sextet_character (by omega)
    · exact isSome_sextet_character (by omega)
    · exact isSome_sextet_character (by omega)
    · rw [if_neg hne]
      exact ⟨he, hpadded⟩
    · rw [encode, bytes_group he, groupBytes_encode, hbytes]
      rfl

end Base64Text
