import CGuard.Lib.CString

/-!
# Decimals

The text of a natural number in base 10, and what `strtol`, `atoi` and `strtok` read from it and from words between delimiters.
-/

namespace CString

/-- The text of a number. -/
def decimal (n : Nat) : List UInt8 := (Nat.toDigits 10 n).map fun c => UInt8.ofNat c.toNat

theorem decimal_of_lt {n : Nat} (h : n < 10) : decimal n = [UInt8.ofNat (48 + n)] := by
  rw [decimal, Nat.toDigits_of_lt_base h, List.map_singleton, Nat.toNat_digitChar_of_lt_ten h]

/-- A number of several digits: those of the tenth part, and the last one. -/
theorem decimal_of_ge {n : Nat} (h : 10 ≤ n) : decimal n = decimal (n / 10) ++ [UInt8.ofNat (48 + n % 10)] := by
  have hmod : n % 10 < 10 := Nat.mod_lt n (by decide)
  rw [decimal, Nat.toDigits_of_base_le (by decide) h, List.map_append, List.map_singleton, Nat.toNat_digitChar_of_lt_ten hmod]
  rfl

/-- Digits, by the recursion on the tenth part. -/
theorem decimal_induction {P : Nat → List UInt8 → Prop} (hlt : ∀ n, n < 10 → P n [UInt8.ofNat (48 + n)])
    (hge : ∀ n, 10 ≤ n → P (n / 10) (decimal (n / 10)) → P n (decimal (n / 10) ++ [UInt8.ofNat (48 + n % 10)])) (n : Nat) :
    P n (decimal n) := by
  induction n using Nat.strong_induction_on with
  | _ n ih =>
    by_cases h : n < 10
    · rw [decimal_of_lt h]
      exact hlt n h
    · rw [Nat.not_lt] at h
      rw [decimal_of_ge h]
      exact hge n h (ih (n / 10) (by omega))

theorem decimal_ne_nil (n : Nat) : decimal n ≠ [] := by
  simp [decimal]

theorem isdigit_ofNat {d : Nat} (h : d < 10) : isdigit (UInt8.ofNat (48 + d)) = true := by
  simp only [isdigit, Bool.and_eq_true, decide_eq_true_eq, UInt8.le_iff_toNat_le, UInt8.reduceToNat, UInt8.toNat_ofNat']
  omega

/-- The text of a number has digits only. -/
theorem isdigit_of_mem_decimal (n : Nat) : ∀ b ∈ decimal n, isdigit b = true := by
  refine decimal_induction (P := fun _ ds => ∀ b ∈ ds, isdigit b = true) ?_ ?_ n
  · intro n h b hb
    rw [List.mem_singleton.mp hb]
    exact isdigit_ofNat h
  · intro n _ ih b hb
    rcases List.mem_append.mp hb with hb | hb
    · exact ih b hb
    · rw [List.mem_singleton.mp hb]
      exact isdigit_ofNat (Nat.mod_lt n (by decide))

/-- The value of the text of a number is the number. -/
theorem digitsValue_decimal (n : Nat) : digitsValue (decimal n) = n := by
  have hdigit : ∀ d < 10, (UInt8.ofNat (48 + d)).toNat - 48 = d := by
    intro d hd
    rw [UInt8.toNat_ofNat']
    omega
  refine decimal_induction (P := fun n ds => digitsValue ds = n) ?_ ?_ n
  · intro n h
    simpa [digitsValue] using hdigit n h
  · intro n h ih
    rw [digitsValue, List.foldl_append, ← digitsValue, ih]
    simp only [List.foldl_cons, List.foldl_nil, hdigit (n % 10) (Nat.mod_lt n (by decide))]
    omega

/-! ## Reading a number -/

/-- The text of a number, and what follows it: the digits are found at once, and they end where the number does. -/
theorem numberText_decimal (n : Nat) {rest : List UInt8} (hrest : rest.takeWhile isdigit = []) :
    (numberText (decimal n ++ rest)).takeWhile isdigit = decimal n ∧
      isNegative ((decimal n ++ rest).dropWhile isspace) = false := by
  obtain ⟨b, bs, hb⟩ := List.exists_cons_of_ne_nil (decimal_ne_nil n)
  have hdigit : isdigit b := isdigit_of_mem_decimal n b (by rw [hb]; exact List.mem_cons_self)
  obtain ⟨hspace, hsign⟩ := isdigit_start hdigit (bs ++ rest)
  have htext : decimal n ++ rest = b :: (bs ++ rest) := by rw [hb, List.cons_append]
  have hnumber : numberText (decimal n ++ rest) = decimal n ++ rest := by
    rw [numberText, htext, hspace, hsign]
  refine ⟨?_, ?_⟩
  · rw [hnumber, List.takeWhile_append_of_pos (isdigit_of_mem_decimal n), hrest, List.append_nil]
  · rw [htext, hspace]
    have hminus : b ≠ 45 := by
      rintro rfl
      exact absurd hdigit (by decide)
    simp [isNegative, hminus]

/-- `strtol` reads the number, up to the bound of a `long`. -/
theorem strtol_decimal (n : Nat) {rest : List UInt8} (hrest : rest.takeWhile isdigit = []) :
    strtol (decimal n ++ rest) = min (2 ^ 63 - 1) (n : Int) := by
  obtain ⟨hdigits, hsign⟩ := numberText_decimal n hrest
  rw [strtol_eq, hsign, hdigits, digitsValue_decimal]
  simp

/-- `atoi` reads a number that is an `int`. -/
theorem atoi_decimal {n : Nat} (h : n < 2 ^ 31) {rest : List UInt8} (hrest : rest.takeWhile isdigit = []) :
    atoi (decimal n ++ rest) = n := by
  rw [atoi, strtol_decimal n hrest, min_eq_right (by omega), toInt]
  exact Int.bmod_eq_of_le (by omega) (by omega)

/-! ## Words between delimiters -/

section Words

variable {delim : UInt8 → Bool}

/-- Delimiters in front are skipped. -/
theorem tokens_delims_append {sep : List UInt8} (h : ∀ b ∈ sep, delim b = true) (rest : List UInt8) :
    tokens delim (sep ++ rest) = tokens delim rest := by
  induction sep with
  | nil => rfl
  | cons d ds ih =>
    rw [List.cons_append, tokens_cons_delim (h d List.mem_cons_self), ih fun b hb => h b (List.mem_cons_of_mem d hb)]

/-- A word and the delimiters after it: the word is a token. -/
theorem tokens_word_append {word sep : List UInt8} (hword : ∀ b ∈ word, delim b = false) (hne : word ≠ [])
    (hsep : ∀ b ∈ sep, delim b = true) (hsep_ne : sep ≠ []) (rest : List UInt8) :
    tokens delim (word ++ (sep ++ rest)) = word :: tokens delim rest := by
  obtain ⟨d, ds, rfl⟩ := List.exists_cons_of_ne_nil hsep_ne
  rw [List.cons_append, tokens_append_delim word _ (hsep d List.mem_cons_self), tokens_of_no_delim hword hne,
    tokens_delims_append fun b hb => hsep b (List.mem_cons_of_mem d hb)]
  rfl

end Words

end CString
