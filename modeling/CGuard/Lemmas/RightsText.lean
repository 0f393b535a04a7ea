import CGuard.AwsMain

/-!
# What a rights list reads as

The count and the entries of a rights list in terms of the tokens of its text: the list is read without a fault exactly when there
are as many tokens after the first as the count says, and the block of `malloc` has room for them.
-/

namespace CGuard

open CString

/-- The block has room for `k` entries of two bytes. -/
def hasRoom (block : Option Nat) (k : Nat) : Bool := block.any (2 * k ≤ ·)

/-- The rights that the text of a rights list reads as, if it is read without a fault. -/
def commandRights (env : HandlerEnv) (text : List UInt8) : Option (List TypeRight) :=
  let n := (atoi text).toNat
  let entries := (tokens rightDelimiter text).tail
  if n ≤ entries.length ∧ (n = 0 ∨ hasRoom (env.rightBlock (atoi text)) n) then some ((entries.take n).map rightOfToken)
  else none

/-- The bytes of the buffer after the field has been decoded into it. -/
def fieldBuffer (env : HandlerEnv) (field : List UInt8) : TypeAuthorizationData :=
  env.ad.overwrite (mbedtlsBase64Decode authorizationDataLength field).written

/-- A count that is not written is 0, the number that `atoi` reads there. -/
theorem sscanfInt_getD (text : List UInt8) : (sscanfInt text).getD 0 = atoi text := by
  unfold sscanfInt
  split_ifs with h
  · have hvalue : digitsValue ((numberText text).takeWhile isdigit) = 0 := by
      rw [numberText, h]
      rfl
    rw [atoi, strtol_eq, hvalue]
    split_ifs <;> rfl
  · rfl

/-- One round of the loop, with a token at hand and a block. -/
theorem rightLoop_succ (size n i : Nat) (token text : List UInt8) :
    (rightLoop (some size) (n + 1) i (some token) text).toOption =
      if 2 * (i + 1) ≤ size then
        (rightLoop (some size) n (i + 1) (strtok rightDelimiter text).1 (strtok rightDelimiter text).2).toOption.map
          (rightOfToken token :: ·)
      else none := by
  simp only [rightLoop]
  split_ifs with hfits
  · cases rightLoop (some size) n (i + 1) (strtok rightDelimiter text).1 (strtok rightDelimiter text).2 <;> rfl
  · rfl

/-- The loop over the entries, in terms of the tokens at hand and to come. -/
theorem rightLoop_toOption (block : Option Nat) (n : Nat) :
    ∀ (i : Nat) (rightSplit : Option (List UInt8)) (text : List UInt8),
      (rightSplit = none → tokens rightDelimiter text = []) →
      (rightLoop block n i rightSplit text).toOption =
        if n ≤ (rightSplit.toList ++ tokens rightDelimiter text).length ∧ (n = 0 ∨ hasRoom block (i + n)) then
          some (((rightSplit.toList ++ tokens rightDelimiter text).take n).map rightOfToken)
        else none := by
  induction n with
  | zero => intro i rightSplit text _; simp [rightLoop, Except.toOption]
  | succ n ih =>
    intro i rightSplit text hnone
    cases rightSplit with
    | none => simp [rightLoop, Except.toOption, hnone rfl]
    | some token =>
      cases block with
      | none => simp [rightLoop, Except.toOption, hasRoom]
      | some size =>
        rw [rightLoop_succ, ih (i + 1) _ _ strtok_none, strtok_tokens]
        -- this round's entry fits and the rest is read if and only if the whole is read
        have hcond : n + 1 ≤ (token :: tokens rightDelimiter text).length ∧
            (n + 1 = 0 ∨ hasRoom (some size) (i + (n + 1))) ↔
            2 * (i + 1) ≤ size ∧ n ≤ (tokens rightDelimiter text).length ∧ (n = 0 ∨ hasRoom (some size) (i + 1 + n)) := by
          simp only [hasRoom, Option.any_some, decide_eq_true_eq, List.length_cons]
          omega
        change _ = if n + 1 ≤ (token :: tokens rightDelimiter text).length ∧
          (n + 1 = 0 ∨ hasRoom (some size) (i + (n + 1))) then _ else none
        by_cases hread : 2 * (i + 1) ≤ size ∧ n ≤ (tokens rightDelimiter text).length ∧
            (n = 0 ∨ hasRoom (some size) (i + 1 + n))
        · rw [if_pos hread.1, if_pos hread.2, if_pos (hcond.mpr hread)]
          rfl
        · rw [if_neg (mt hcond.mp hread)]
          split_ifs with hfits hrest
          · exact absurd ⟨hfits, hrest⟩ hread
          · rfl
          · rfl

/-! ## A list that goes on -/

/-- The text of `k` more entries. -/
def moreEntries (k : Nat) : List UInt8 := (List.replicate k [32, 48]).flatten

/-- The text of the entries has no NUL. -/
theorem zero_notMem_moreEntries (k : Nat) : (0 : UInt8) ∉ moreEntries k := by
  intro h
  obtain ⟨entry, hentry, hmem⟩ := List.mem_flatten.mp h
  rw [List.eq_of_mem_replicate hentry] at hmem
  exact absurd hmem (by decide)

/-- Each of the entries is a token. -/
theorem tokens_moreEntries (text : List UInt8) (k : Nat) :
    tokens rightDelimiter (text ++ moreEntries k) = tokens rightDelimiter text ++ List.replicate k [48] := by
  induction k with
  | zero => simp [moreEntries]
  | succ k ih =>
    have hlast : text ++ moreEntries (k + 1) = (text ++ moreEntries k) ++ 32 :: [48] := by
      simp [moreEntries, List.replicate_succ']
    rw [hlast, tokens_append_delim _ _ (by decide), ih, List.replicate_succ', List.append_assoc]
    rfl

/-- More entries do not change the count. -/
theorem atoi_moreEntries {text : List UInt8} (h : atoi text ≠ 0) (k : Nat) : atoi (text ++ moreEntries k) = atoi text := by
  have hne : numberText text ≠ [] := fun hnil => h (atoi_of_numberText_nil hnil).1
  rw [atoi_append hne]
  cases k with
  | zero => simp [moreEntries]
  | succ k =>
    have hno : (moreEntries (k + 1)).takeWhile isdigit = [] := rfl
    rw [hno, List.append_nil]

/-- Digits are no delimiters. -/
theorem rightDelimiter_of_isdigit {b : UInt8} (h : isdigit b) : rightDelimiter b = false := by
  have hlist : (ascii " ,{}") = [32, 44, 123, 125] := rfl
  rw [rightDelimiter, hlist, decide_eq_false_iff_not]
  intro hmem
  simp only [List.mem_cons, List.not_mem_nil, or_false] at hmem
  rcases hmem with rfl | rfl | rfl | rfl <;> exact absurd h (by decide)

/-- A text with a count that is not 0 has a token. -/
theorem tokens_ne_nil_of_atoi {text : List UInt8} (h : atoi text ≠ 0) : tokens rightDelimiter text ≠ [] := by
  obtain ⟨b, hb, hdigit⟩ := exists_digit_of_atoi_ne h
  exact tokens_ne_nil hb (rightDelimiter_of_isdigit hdigit)

/-- A command without rights. -/
theorem commandRights_of_nonpos {env : HandlerEnv} {text : List UInt8} (h : atoi text ≤ 0) :
    commandRights env text = some [] := by
  have hn : (atoi text).toNat = 0 := by omega
  simp [commandRights, hn]

/-- With enough entries and enough memory, as many rights are read as the count says. -/
theorem commandRights_of_entries {env : HandlerEnv} {text : List UInt8}
    (hroom : hasRoom (env.rightBlock (atoi text)) (atoi text).toNat) {first : List UInt8} {entries more : List (List UInt8)}
    (htoks : tokens rightDelimiter text = first :: (entries ++ more))
    (hlen : entries.length = (atoi text).toNat) : commandRights env text = some (entries.map rightOfToken) := by
  unfold commandRights
  rw [htoks, List.tail_cons, ← hlen, if_pos]
  · simp
  · rw [List.length_append, hlen]
    exact ⟨by omega, Or.inr hroom⟩

/-- The right at a place is that of the token at that place, after the count. -/
theorem commandRights_get {env : HandlerEnv} {text : List UInt8} {rights : List TypeRight} (h : commandRights env text = some rights)
    {j : Nat} {right : TypeRight} (hright : rights[j]? = some right) :
    ∃ token, (tokens rightDelimiter text)[j + 1]? = some token ∧ right = rightOfToken token := by
  unfold commandRights at h
  dsimp only at h
  split_ifs at h
  cases h
  rw [List.getElem?_map] at hright
  obtain ⟨token, htoken, rfl⟩ := Option.map_eq_some_iff.mp hright
  rw [List.getElem?_take] at htoken
  split_ifs at htoken
  rw [List.getElem?_tail] at htoken
  exact ⟨token, htoken, rfl⟩

/-- Without enough entries the list is not read to its end. -/
theorem commandRights_of_short {env : HandlerEnv} {text : List UInt8}
    (h : (tokens rightDelimiter text).length ≤ (atoi text).toNat) (hpos : 0 < atoi text) : commandRights env text = none := by
  unfold commandRights
  rw [if_neg]
  rintro ⟨hle, -⟩
  rw [List.length_tail] at hle
  omega

/-- A value that no digits that follow change is not changed by anything that follows. -/
theorem rightOfToken_append {token : List UInt8}
    (h : ∀ ds, (∀ b ∈ ds, isdigit b) → rightOfToken (token ++ ds) = rightOfToken token) (u : List UInt8) :
    rightOfToken (token ++ u) = rightOfToken token := by
  by_cases hne : numberText token = []
  · have hone := h [49] (by simp [isdigit])
    obtain ⟨h0, h1 | h1, -⟩ := atoi_of_numberText_nil hne
    · rw [rightOfToken, rightOfToken, h0, h1] at hone
      exact absurd hone (by decide)
    · rw [rightOfToken, rightOfToken, h0, h1] at hone
      exact absurd hone (by decide)
  · have hdigits := h (u.takeWhile isdigit) fun b hb => List.mem_takeWhile_imp hb
    rw [rightOfToken, atoi_append hne]
    exact hdigits

/-! ## The commands -/

/-- What an `A` or `a` command reads, if it reads it without a fault. -/
theorem aclArguments_toOption (env : HandlerEnv) (payload : List UInt8) :
    (aclArguments env payload).toOption =
      (cstring (payload.drop rightsOffset)).bind fun text =>
        (strncpy base64AuthorizationDataLength (payload.drop adOffset)).bind fun field =>
          (commandRights env text).map fun rights => (fieldBuffer env field, rights) := by
  unfold aclArguments getAdRightArray
  cases htext : cstring (payload.drop rightsOffset) with
  | none => rfl
  | some text =>
    cases hfield : strncpy base64AuthorizationDataLength (payload.drop adOffset) with
    | none => rfl
    | some field =>
      simp only [inBounds, bind, Except.bind, sscanfInt_getD, Option.bind_some]
      have hloop := rightLoop_toOption (env.rightBlock (atoi text)) (atoi text).toNat 0 _ _
        (@strtok_none rightDelimiter (strtok rightDelimiter text).2)
      rw [strtok_tokens, (strtok_eq text).2, Nat.zero_add] at hloop
      unfold commandRights
      rw [← hloop]
      cases rightLoop (env.rightBlock (atoi text)) (atoi text).toNat 0
        (strtok rightDelimiter (strtok rightDelimiter text).2).1 (strtok rightDelimiter (strtok rightDelimiter text).2).2 <;> rfl

/-- A command that reads its arguments has read them from the text of its rights list and the characters of its field. -/
theorem aclArguments_ok {env : HandlerEnv} {payload : List UInt8} {ad : TypeAuthorizationData} {rights : List TypeRight}
    (h : aclArguments env payload = .ok (ad, rights)) :
    ∃ text field, cstring (payload.drop rightsOffset) = some text ∧
      strncpy base64AuthorizationDataLength (payload.drop adOffset) = some field ∧ ad = fieldBuffer env field ∧
      commandRights env text = some rights := by
  have hread := aclArguments_toOption env payload
  rw [h] at hread
  obtain ⟨text, htext, hread⟩ := Option.bind_eq_some_iff.mp hread.symm
  obtain ⟨field, hfield, hread⟩ := Option.bind_eq_some_iff.mp hread
  obtain ⟨rights', hrights, heq⟩ := Option.map_eq_some_iff.mp hread
  cases heq
  exact ⟨text, field, htext, hfield, rfl, hrights⟩

/-- The calls of an `A` or `a` command. -/
theorem aclCommand_calls (env : HandlerEnv) (payload : List UInt8)
    (records : TypeAuthorizationData → List TypeRight → Acl → Acl × List Call × Ending) (d : Device) :
    (aclCommand env payload records d).calls =
      match (aclArguments env payload).toOption with
      | none => []
      | some (ad, rights) => (records ad rights d.acl).2.1 := by
  unfold aclCommand
  cases aclArguments env payload with
  | error f => rfl
  | ok args => rfl

/-- What the handler leaves when it has read what the records are to be and then changed them. -/
def Device.applied (d : Device) (out : Acl × List Call × Ending) : Outcome :=
  { device := { d with acl := out.1 }, calls := out.2.1, ending := out.2.2 }

/-- A command whose rights are read changes the records. -/
theorem aclCommand_applied {env : HandlerEnv} {payload : List UInt8} {ad : TypeAuthorizationData} {rights : List TypeRight}
    (h : (aclArguments env payload).toOption = some (ad, rights))
    (records : TypeAuthorizationData → List TypeRight → Acl → Acl × List Call × Ending) (d : Device) :
    aclCommand env payload records d = d.applied (records ad rights d.acl) := by
  unfold aclCommand
  cases hargs : aclArguments env payload with
  | error f =>
    rw [hargs] at h
    cases h
  | ok args =>
    rw [hargs] at h
    cases h
    rfl

end CGuard
