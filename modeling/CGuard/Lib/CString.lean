import Mathlib.Data.List.DropRight
import Mathlib.Tactic.Ring

/-!
# C strings

The functions of `string.h`, `stdlib.h` and `stdio.h` that read text, over lists of bytes. A text that is passed whole has no NUL:
the end of the list is its terminator. Memory is a list too, and a function that looks for a terminator in it returns `none` when
it would read past the end.
-/

namespace CString

/-- `isspace` in the C locale. -/
def isspace (b : UInt8) : Bool := b = 32 || (9 ≤ b && b ≤ 13)

/-- `isdigit` in the C locale. -/
def isdigit (b : UInt8) : Bool := 48 ≤ b && b ≤ 57

/-- The text a pointer to this memory is: the bytes before the first NUL. -/
def cstring : List UInt8 → Option (List UInt8)
  | [] => none
  | b :: bs => if b = 0 then some [] else (cstring bs).map (b :: ·)

/-- `strncpy`: at most `n` bytes, and NULs from the end of the text on. -/
def strncpy : Nat → List UInt8 → Option (List UInt8)
  | 0, _ => some []
  | _ + 1, [] => none
  | n + 1, b :: bs => if b = 0 then some (List.replicate (n + 1) 0) else (strncpy n bs).map (b :: ·)

/-! ## Numbers -/

/-- The value of a string of digits. -/
def digitsValue (ds : List UInt8) : Nat := ds.foldl (fun v d => v * 10 + (d.toNat - 48)) 0

/-- Whether a text starts with a minus sign. -/
def isNegative : List UInt8 → Bool
  | b :: _ => b = 45
  | [] => false

/-- A text without its sign. -/
def dropSign : List UInt8 → List UInt8
  | b :: bs => if b = 43 || b = 45 then bs else b :: bs
  | [] => []

/-- `strtol` in base 10, which saturates at the bounds of a 64-bit `long`. -/
def strtol (text : List UInt8) : Int :=
  let number := text.dropWhile isspace
  let value := digitsValue ((dropSign number).takeWhile isdigit)
  if isNegative number then max (-2 ^ 63) (-value) else min (2 ^ 63 - 1) value

/-- A `long` converted to `int`. -/
def toInt (v : Int) : Int := v.bmod (2 ^ 32)

/-- `atoi`. -/
def atoi (text : List UInt8) : Int := toInt (strtol text)

/-- `sscanf` with the format `%d`: the value it stores, or nothing when no digit follows the sign. -/
def sscanfInt (text : List UInt8) : Option Int :=
  if (dropSign (text.dropWhile isspace)).takeWhile isdigit = [] then none else some (atoi text)

/-! ## Tokens -/

/-- `strtok`: the next token, if there is one, and the text after the delimiter that ended it. -/
def strtok (delim : UInt8 → Bool) (text : List UInt8) : Option (List UInt8) × List UInt8 :=
  let start := text.dropWhile delim
  if start = [] then (none, [])
  else (some (start.takeWhile (!delim ·)), (start.dropWhile (!delim ·)).drop 1)

/-- The tokens of a text, as `strtok` finds them one after the other. -/
def tokens (delim : UInt8 → Bool) (text : List UInt8) : List (List UInt8) := (text.splitOnP delim).filter (· ≠ [])

variable {delim : UInt8 → Bool}

@[simp] theorem tokens_nil : tokens delim [] = [] := by
  simp [tokens]

/-- A delimiter between two texts separates their tokens. -/
theorem tokens_append_delim (xs ys : List UInt8) {d : UInt8} (hd : delim d) :
    tokens delim (xs ++ d :: ys) = tokens delim xs ++ tokens delim ys := by
  simp only [tokens, List.splitOnP_append_cons xs ys hd, List.filter_append]

/-- A text without delimiters is one token. -/
theorem tokens_of_no_delim {xs : List UInt8} (h : ∀ b ∈ xs, delim b = false) (hne : xs ≠ []) :
    tokens delim xs = [xs] := by
  simp [tokens, List.splitOnP_eq_singleton h, hne]

/-- A leading delimiter is skipped. -/
theorem tokens_cons_delim {d : UInt8} (hd : delim d) (ys : List UInt8) : tokens delim (d :: ys) = tokens delim ys := by
  simpa using tokens_append_delim [] ys hd

/-- Leading delimiters are skipped. -/
theorem tokens_dropWhile (xs : List UInt8) : tokens delim (xs.dropWhile delim) = tokens delim xs := by
  induction xs with
  | nil => rfl
  | cons b bs ih =>
    by_cases hb : delim b
    · rw [List.dropWhile_cons_of_pos hb, ih, tokens_cons_delim hb]
    · rw [List.dropWhile_cons_of_neg hb]

/-- A text that starts with a token: the token, and the tokens after the delimiter that ends it. -/
theorem tokens_of_start {xs : List UInt8} (hne : xs.takeWhile (!delim ·) ≠ []) :
    tokens delim xs = xs.takeWhile (!delim ·) :: tokens delim ((xs.dropWhile (!delim ·)).drop 1) := by
  have htok : ∀ b ∈ xs.takeWhile (!delim ·), delim b = false := by
    intro b hb
    simpa using List.mem_takeWhile_imp hb
  have hsplit := List.takeWhile_append_dropWhile (p := (!delim ·)) (l := xs)
  cases hrest : xs.dropWhile (!delim ·) with
  | nil =>
    rw [hrest, List.append_nil] at hsplit
    rw [List.drop_nil, tokens_nil, ← tokens_of_no_delim htok hne, hsplit]
  | cons d ys =>
    have hd : delim d := by
      have := List.head_dropWhile_not (!delim ·) (l := xs) (by rw [hrest]; exact List.cons_ne_nil d ys)
      simpa [hrest] using this
    rw [hrest] at hsplit
    calc tokens delim xs = tokens delim (xs.takeWhile (!delim ·) ++ d :: ys) := by rw [hsplit]
      _ = [xs.takeWhile (!delim ·)] ++ tokens delim ys := by
        rw [tokens_append_delim _ _ hd, tokens_of_no_delim htok hne]
      _ = xs.takeWhile (!delim ·) :: tokens delim ((d :: ys).drop 1) := rfl

/-- A text with a character that is no delimiter has a token. -/
theorem tokens_ne_nil {text : List UInt8} {b : UInt8} (hb : b ∈ text) (hd : delim b = false) : tokens delim text ≠ [] := by
  induction text with
  | nil => simp at hb
  | cons c cs ih =>
    by_cases hc : delim c
    · rw [tokens_cons_delim hc]
      rcases List.mem_cons.mp hb with rfl | hb
      · rw [hd] at hc
        simp at hc
      · exact ih hb
    · have hne : (c :: cs).takeWhile (!delim ·) ≠ [] := by simp [hc]
      rw [tokens_of_start hne]
      exact List.cons_ne_nil _ _

/-- `strtok` answers the first token and leaves the others. -/
theorem strtok_eq (text : List UInt8) :
    (strtok delim text).1 = (tokens delim text).head? ∧ tokens delim (strtok delim text).2 = (tokens delim text).tail := by
  unfold strtok
  by_cases hs : text.dropWhile delim = []
  · rw [← tokens_dropWhile text, hs]
    simp
  · have hne : (text.dropWhile delim).takeWhile (!delim ·) ≠ [] := by
      obtain ⟨b, bs, hb⟩ := List.exists_cons_of_ne_nil hs
      have hnd := List.head_dropWhile_not delim hs
      rw [hb]
      simp only [hb, List.head_cons] at hnd
      simp [hnd]
    rw [← tokens_dropWhile text, tokens_of_start hne, if_neg hs]
    exact ⟨rfl, rfl⟩

/-- The token that `strtok` answers and those it leaves are the tokens of the text. -/
theorem strtok_tokens (text : List UInt8) :
    (strtok delim text).1.toList ++ tokens delim (strtok delim text).2 = tokens delim text := by
  obtain ⟨h1, h2⟩ := @strtok_eq delim text
  rw [h1, h2]
  cases tokens delim text <;> rfl

/-- `strtok` answers null only when no token is left. -/
theorem strtok_none {text : List UInt8} (h : (strtok delim text).1 = none) : tokens delim (strtok delim text).2 = [] := by
  obtain ⟨h1, h2⟩ := @strtok_eq delim text
  rw [h1, List.head?_eq_none_iff] at h
  rw [h2, h, List.tail_nil]

/-! ## A text that goes on

What a longer text changes: the number a text starts with may go on only while no other character has ended it, and only the last
token of a text can go on. -/

/-- The memory after a text that has no NUL of its own: its text goes on to the first NUL. -/
theorem cstring_append {xs : List UInt8} (h : (0 : UInt8) ∉ xs) (ys : List UInt8) :
    cstring (xs ++ ys) = (cstring ys).map (xs ++ ·) := by
  induction xs with
  | nil => cases h : cstring ys <;> simp [h]
  | cons b bs ih =>
    simp only [List.mem_cons, not_or] at h
    simp only [List.cons_append, cstring, if_neg (Ne.symm h.1), ih h.2, Option.map_map]
    rfl

/-- A NUL ends the text, whatever follows. -/
theorem cstring_append_of_mem {xs : List UInt8} (h : (0 : UInt8) ∈ xs) (ys : List UInt8) :
    cstring (xs ++ ys) = cstring xs := by
  induction xs with
  | nil => simp at h
  | cons b bs ih =>
    by_cases hb : b = 0
    · simp [cstring, hb]
    · have hbs : (0 : UInt8) ∈ bs := by
        rcases List.mem_cons.mp h with h | h
        · exact absurd h.symm hb
        · exact h
      simp only [List.cons_append, cstring, if_neg hb, ih hbs]

/-- Memory with a NUL is a text, which has none. -/
theorem cstring_of_mem {xs : List UInt8} (h : (0 : UInt8) ∈ xs) : ∃ u, cstring xs = some u ∧ (0 : UInt8) ∉ u := by
  induction xs with
  | nil => simp at h
  | cons b bs ih =>
    by_cases hb : b = 0
    · exact ⟨[], by simp [cstring, hb], List.not_mem_nil⟩
    · have hbs : (0 : UInt8) ∈ bs := by
        rcases List.mem_cons.mp h with h | h
        · exact absurd h.symm hb
        · exact h
      obtain ⟨u, hu, hn⟩ := ih hbs
      refine ⟨b :: u, by simp [cstring, hb, hu], ?_⟩
      rw [List.mem_cons, not_or]
      exact ⟨Ne.symm hb, hn⟩

/-- A text and its NUL, whatever follows. -/
theorem cstring_append_nul {xs : List UInt8} (h : (0 : UInt8) ∉ xs) (ys : List UInt8) : cstring (xs ++ 0 :: ys) = some xs := by
  rw [cstring_append h]
  simp [cstring]

/-- A copy that ends inside the memory does not see what follows. -/
theorem strncpy_append {n : Nat} {xs : List UInt8} (h : n ≤ xs.length) (ys : List UInt8) :
    strncpy n (xs ++ ys) = strncpy n xs := by
  induction n generalizing xs with
  | zero => simp [strncpy]
  | succ n ih =>
    cases xs with
    | nil => simp at h
    | cons b bs =>
      simp only [List.length_cons, Nat.add_le_add_iff_right] at h
      simp only [List.cons_append, strncpy, ih h]

/-- A copy of at most as many bytes as the memory has succeeds. -/
theorem strncpy_isSome {n : Nat} {xs : List UInt8} (h : n ≤ xs.length) : (strncpy n xs).isSome := by
  induction n generalizing xs with
  | zero => simp [strncpy]
  | succ n ih =>
    cases xs with
    | nil => simp at h
    | cons b bs =>
      simp only [List.length_cons, Nat.add_le_add_iff_right] at h
      simp only [strncpy]
      split_ifs <;> simp [ih h]

/-- A copy of bytes none of which is a NUL. -/
theorem strncpy_of_no_nul {xs : List UInt8} (h : (0 : UInt8) ∉ xs) (ys : List UInt8) : strncpy xs.length (xs ++ ys) = some xs := by
  induction xs with
  | nil => rfl
  | cons b bs ih =>
    rw [List.mem_cons, not_or] at h
    simp only [List.length_cons, List.cons_append, strncpy, if_neg (Ne.symm h.1), ih h.2, Option.map_some]

/-- A copy has the length that was asked for. -/
theorem strncpy_length {n : Nat} {xs ys : List UInt8} (h : strncpy n xs = some ys) : ys.length = n := by
  induction n generalizing xs ys with
  | zero => cases h; rfl
  | succ n ih =>
    cases xs with
    | nil => cases h
    | cons b bs =>
      simp only [strncpy] at h
      split_ifs at h
      · cases h
        exact List.length_replicate
      · obtain ⟨zs, hz, rfl⟩ := Option.map_eq_some_iff.mp h
        rw [List.length_cons, ih hz]

/-- A copy of a whole text with no NUL in it is the text. -/
theorem eq_of_strncpy {xs ys : List UInt8} (h : strncpy xs.length xs = some ys) (hys : (0 : UInt8) ∉ ys) : ys = xs := by
  induction xs generalizing ys with
  | nil => cases h; rfl
  | cons b bs ih =>
    simp only [List.length_cons, strncpy] at h
    split_ifs at h
    · cases h
      exact absurd (List.mem_replicate.mpr ⟨Nat.succ_ne_zero _, rfl⟩) hys
    · obtain ⟨zs, hz, rfl⟩ := Option.map_eq_some_iff.mp h
      rw [ih hz fun hmem => hys (List.mem_cons_of_mem b hmem)]

/-! ### Numbers -/

/-- Where the digits of a number are looked for. -/
def numberText (text : List UInt8) : List UInt8 := dropSign (text.dropWhile isspace)

/-- A character that is no digit ends the number inside the text. -/
def numberEnds (text : List UInt8) : Bool := !(numberText text).all isdigit

/-- `strtol` in terms of the sign and the digits. -/
theorem strtol_eq (text : List UInt8) :
    strtol text =
      if isNegative (text.dropWhile isspace) then max (-2 ^ 63) (-(digitsValue ((numberText text).takeWhile isdigit) : Int))
      else min (2 ^ 63 - 1) (digitsValue ((numberText text).takeWhile isdigit) : Int) := rfl

/-- Once the digits have been reached, what follows only lengthens the number. -/
theorem numberText_append {text : List UInt8} (h : numberText text ≠ []) (u : List UInt8) :
    numberText (text ++ u) = numberText text ++ u ∧
      isNegative ((text ++ u).dropWhile isspace) = isNegative (text.dropWhile isspace) := by
  unfold numberText at *
  rw [List.dropWhile_append]
  cases hd : text.dropWhile isspace with
  | nil => rw [hd] at h; exact absurd rfl h
  | cons b bs =>
    simp only [List.isEmpty_cons, Bool.false_eq_true, if_false, List.cons_append, isNegative, dropSign, and_true]
    split_ifs <;> rfl

/-- The digits at the start of a text that goes on. -/
theorem takeWhile_isdigit_append (xs u : List UInt8) :
    (xs ++ u).takeWhile isdigit = (xs ++ u.takeWhile isdigit).takeWhile isdigit := by
  rw [List.takeWhile_append, List.takeWhile_append]
  split_ifs
  · rw [List.takeWhile_takeWhile]
    simp
  · rfl

/-- Only digits can change a number whose digits have been reached. -/
theorem atoi_append {text : List UInt8} (h : numberText text ≠ []) (u : List UInt8) :
    atoi (text ++ u) = atoi (text ++ u.takeWhile isdigit) := by
  obtain ⟨h1, h2⟩ := numberText_append h u
  obtain ⟨h3, h4⟩ := numberText_append h (u.takeWhile isdigit)
  simp only [atoi, strtol_eq, h1, h2, h3, h4, takeWhile_isdigit_append (numberText text) u]

/-- Nothing changes a number that has ended. -/
theorem atoi_append_of_ends {text : List UInt8} (h : numberEnds text) (u : List UInt8) : atoi (text ++ u) = atoi text := by
  have hne : numberText text ≠ [] := by
    intro he
    simp [numberEnds, he] at h
  obtain ⟨h1, h2⟩ := numberText_append hne u
  have htake : (numberText text ++ u).takeWhile isdigit = (numberText text).takeWhile isdigit := by
    rw [List.takeWhile_append, if_neg]
    intro hlen
    have hall := List.takeWhile_eq_self_iff.mp
      ((List.takeWhile_prefix (p := isdigit) (l := numberText text)).eq_of_length hlen)
    simp only [numberEnds, Bool.not_eq_true', List.all_eq_false] at h
    obtain ⟨b, hb, hnd⟩ := h
    exact hnd (hall b hb)
  simp only [atoi, strtol_eq, h1, h2, htake]

/-- A text in which no digit has been reached is white space, and perhaps a sign. -/
theorem dropWhile_of_numberText_nil {text : List UInt8} (h : numberText text = []) :
    text.dropWhile isspace = [] ∨ text.dropWhile isspace = [43] ∨ text.dropWhile isspace = [45] := by
  unfold numberText at h
  cases hd : text.dropWhile isspace with
  | nil => exact Or.inl rfl
  | cons b bs =>
    rw [hd] at h
    simp only [dropSign] at h
    split_ifs at h with hb
    subst h
    simp only [Bool.or_eq_true, decide_eq_true_eq] at hb
    rcases hb with rfl | rfl
    · exact Or.inr (Or.inl rfl)
    · exact Or.inr (Or.inr rfl)

/-- White space before a number is skipped. -/
theorem atoi_dropWhile (text u : List UInt8) : atoi (text ++ u) = atoi (text.dropWhile isspace ++ u) := by
  have hdrop : (text.dropWhile isspace ++ u).dropWhile isspace = (text ++ u).dropWhile isspace := by
    rw [List.dropWhile_append, List.dropWhile_append, List.dropWhile_idempotent]
  simp only [atoi, strtol_eq, numberText, hdrop]

/-- A text in which no digit has been reached is the number 0; the digit 1 makes it 1 or -1, and some digits make it positive. -/
theorem atoi_of_numberText_nil {text : List UInt8} (h : numberText text = []) :
    atoi text = 0 ∧ (atoi (text ++ [49]) = 1 ∨ atoi (text ++ [49]) = -1) ∧
      ∃ ds, (∀ b ∈ ds, isdigit b) ∧ 0 < atoi (text ++ ds) := by
  have htext : atoi text = atoi (text.dropWhile isspace) := by
    simpa only [List.append_nil] using atoi_dropWhile text []
  rw [htext, atoi_dropWhile text [49]]
  simp only [atoi_dropWhile text]
  rcases dropWhile_of_numberText_nil h with hd | hd | hd <;> rw [hd]
  · exact ⟨by decide, by decide, [49], by simp [isdigit], by decide⟩
  · exact ⟨by decide, by decide, [49], by simp [isdigit], by decide⟩
  · -- 2 ^ 32 - 1 after a minus sign wraps to 1
    exact ⟨by decide, by decide, [52, 50, 57, 52, 57, 54, 55, 50, 57, 53], by simp [isdigit], by decide⟩

/-- Digits that make a number too large for a `long` saturate it, and as an `int` it is then not positive. -/
theorem atoi_saturated {text : List UInt8} (hends : numberEnds text = false)
    (hlarge : 2 ^ 63 ≤ digitsValue (numberText text)) : atoi text ≤ 0 := by
  have hall : (numberText text).takeWhile isdigit = numberText text := by
    rw [List.takeWhile_eq_self_iff]
    simpa [numberEnds] using hends
  have hcast : (2 : Int) ^ 63 ≤ (digitsValue (numberText text) : Int) := by exact_mod_cast hlarge
  rw [atoi, strtol_eq, hall]
  split_ifs
  · rw [max_eq_left (by omega)]
    decide
  · rw [min_eq_left (by omega)]
    decide

/-- The value of digits followed by zeros. -/
theorem digitsValue_append_zeros (ds : List UInt8) (k : Nat) :
    digitsValue (ds ++ List.replicate k 48) = digitsValue ds * 10 ^ k := by
  induction k with
  | zero => simp
  | succ k ih =>
    rw [List.replicate_succ', ← List.append_assoc, digitsValue, List.foldl_append]
    simp only [List.foldl_cons, List.foldl_nil]
    rw [← digitsValue, ih, pow_succ]
    change digitsValue ds * 10 ^ k * 10 + (48 - 48) = _
    ring

/-- A digit is no white space and no sign. -/
theorem isdigit_start {b : UInt8} (hb : isdigit b) (bs : List UInt8) :
    (b :: bs).dropWhile isspace = b :: bs ∧ dropSign (b :: bs) = b :: bs := by
  simp only [isdigit, Bool.and_eq_true, decide_eq_true_eq, UInt8.le_iff_toNat_le, UInt8.reduceToNat] at hb
  have hspace : isspace b = false := by
    simp only [isspace, Bool.or_eq_false_iff, Bool.and_eq_false_iff, decide_eq_false_iff_not, UInt8.le_iff_toNat_le,
      UInt8.reduceToNat, UInt8.ext_iff]
    omega
  have hsign : ¬ (b = 43 ∨ b = 45) := by
    simp only [UInt8.ext_iff, UInt8.reduceToNat]
    omega
  exact ⟨List.dropWhile_cons_of_neg (by simp [hspace]), by simpa [dropSign] using hsign⟩

/-- Digits that follow only lengthen the number. -/
theorem numberText_append_digits (text : List UInt8) {ds : List UInt8} (hds : ∀ b ∈ ds, isdigit b) :
    numberText (text ++ ds) = numberText text ++ ds := by
  by_cases h : numberText text = []
  · have hstart : ds.dropWhile isspace = ds ∧ dropSign ds = ds := by
      cases ds with
      | nil => exact ⟨rfl, rfl⟩
      | cons b ds => exact isdigit_start (hds b List.mem_cons_self) ds
    rw [h, List.nil_append, numberText, List.dropWhile_append]
    rcases dropWhile_of_numberText_nil h with hd | hd | hd <;> rw [hd]
    · simp [hstart]
    · rfl
    · rfl
  · exact (numberText_append h ds).1

/-- A number that has not ended has not ended after more digits. -/
theorem numberEnds_append_digits {text : List UInt8} (h : numberEnds text = false) {ds : List UInt8}
    (hds : ∀ b ∈ ds, isdigit b) : numberEnds (text ++ ds) = false := by
  simp only [numberEnds, Bool.not_eq_false', numberText_append_digits text hds, List.all_append, Bool.and_eq_true,
    List.all_eq_true] at *
  exact ⟨h, hds⟩

/-- A text whose number is not 0 has digits. -/
theorem exists_digit_of_atoi_ne {text : List UInt8} (h : atoi text ≠ 0) : ∃ b ∈ text, isdigit b := by
  have hne : (numberText text).takeWhile isdigit ≠ [] := by
    intro hnil
    refine h ?_
    rw [atoi, strtol_eq, hnil]
    split_ifs <;> rfl
  obtain ⟨b, bs, hb⟩ := List.exists_cons_of_ne_nil hne
  have hmem : b ∈ (numberText text).takeWhile isdigit := by
    rw [hb]
    exact List.mem_cons_self
  refine ⟨b, ?_, List.mem_takeWhile_imp hmem⟩
  have hsub : ∀ {xs : List UInt8}, b ∈ dropSign xs → b ∈ xs := by
    intro xs hx
    cases xs with
    | nil => exact hx
    | cons c cs =>
      simp only [dropSign] at hx
      split_ifs at hx
      · exact List.mem_cons_of_mem c hx
      · exact hx
  exact (List.dropWhile_sublist isspace).subset (hsub ((List.takeWhile_sublist isdigit).subset hmem))

/-- Zeros after a positive number that has not ended make it too large for an `int`. -/
theorem atoi_append_zeros {text : List UInt8} (hends : numberEnds text = false) (hpos : 0 < atoi text) :
    atoi (text ++ List.replicate 19 48) ≤ 0 := by
  have hzeros : ∀ b ∈ List.replicate 19 (48 : UInt8), isdigit b := by
    intro b hb
    rw [List.eq_of_mem_replicate hb]
    rfl
  have hall : (numberText text).takeWhile isdigit = numberText text := by
    rw [List.takeWhile_eq_self_iff]
    simpa [numberEnds] using hends
  refine atoi_saturated (numberEnds_append_digits hends hzeros) ?_
  rw [numberText_append_digits text hzeros, digitsValue_append_zeros]
  have hvalue : digitsValue (numberText text) ≠ 0 := by
    intro h0
    rw [atoi, strtol_eq, hall, h0] at hpos
    revert hpos
    split_ifs <;> decide
  have := Nat.mul_le_mul_right (10 ^ 19) (Nat.one_le_iff_ne_zero.mpr hvalue)
  omega

/-! ### Tokens -/

/-- The tokens of a text that a delimiter has ended. -/
def completeTokens (delim : UInt8 → Bool) (text : List UInt8) : List (List UInt8) :=
  tokens delim (text.rdropWhile (!delim ·))

/-- The characters after the last delimiter. -/
def partialToken (delim : UInt8 → Bool) (text : List UInt8) : List UInt8 := text.rtakeWhile (!delim ·)

/-- There is no delimiter after the last one. -/
theorem partialToken_no_delim {text : List UInt8} {b : UInt8} (hb : b ∈ partialToken delim text) : delim b = false := by
  simpa using @List.mem_rtakeWhile_imp _ (!delim ·) text b hb

/-- When a text goes on, the tokens that have ended stay, and the characters after the last delimiter go on. -/
theorem tokens_append (text u : List UInt8) :
    tokens delim (text ++ u) = completeTokens delim text ++ tokens delim (partialToken delim text ++ u) := by
  unfold completeTokens partialToken
  conv_lhs => rw [← @List.rdropWhile_append_rtakeWhile _ (!delim ·) text, List.append_assoc]
  rcases List.eq_nil_or_concat (text.rdropWhile (!delim ·)) with hnil | ⟨xs, d, hd⟩
  · rw [hnil, List.nil_append, tokens_nil, List.nil_append]
  · have hdelim : delim d := by
      have := List.rdropWhile_last_not (!delim ·) text (by rw [hd]; simp)
      simpa [hd] using this
    rw [hd, List.concat_eq_append, List.append_assoc, List.singleton_append, tokens_append_delim _ _ hdelim,
      tokens_append_delim _ [] hdelim, tokens_nil, List.append_nil]

/-- The characters after the last delimiter start a token, which goes on to the next delimiter. -/
theorem tokens_partial {text : List UInt8} (h : partialToken delim text ≠ []) (u : List UInt8) :
    ∃ rest, tokens delim (partialToken delim text ++ u) =
      (partialToken delim text ++ u.takeWhile (!delim ·)) :: rest := by
  have hall : ∀ b ∈ partialToken delim text, (!delim b) = true := by
    intro b hb
    rw [partialToken_no_delim hb]
    rfl
  have htake : (partialToken delim text ++ u).takeWhile (!delim ·) = partialToken delim text ++ u.takeWhile (!delim ·) :=
    List.takeWhile_append_of_pos hall
  have hne : (partialToken delim text ++ u).takeWhile (!delim ·) ≠ [] := by
    rw [htake]
    simp [h]
  have hstart := tokens_of_start hne
  rw [htake] at hstart
  exact ⟨_, hstart⟩

end CString
