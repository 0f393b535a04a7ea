import CGuard.Lemmas.RightsText

/-!
# Rights lists that are settled

When the calls for a rights list are the same however its text goes on: the count has ended or can never become positive, and the
entries that are used have ended or can no longer change.
-/

namespace CGuard

open CString

/-- No digits that follow make the count positive. -/
def CountNeverPositive (text : List UInt8) : Prop := ∀ ds, (∀ b ∈ ds, isdigit b) → atoi (text ++ ds) ≤ 0

/-- What is used of `n` entries of a rights list is inside its text: the count and the entries have ended, or all but the last
entry have, and the last one is not used because the call for an earlier one fails, or no digits that follow change its value. -/
def EntriesSettled (n : Nat) (text : List UInt8) : Prop :=
  let complete := completeTokens rightDelimiter text
  let last := partialToken rightDelimiter text
  n < complete.length ∨
    complete.length = n ∧ last ≠ [] ∧
      ((∃ token ∈ complete.tail, rightIndex (rightOfToken token) = none) ∨
        ∀ ds, (∀ b ∈ ds, isdigit b) → rightOfToken (last ++ ds) = rightOfToken last)

/-- What is used of a rights list is inside its text. -/
def TextSettled (text : List UInt8) : Prop :=
  0 ∈ text ∨ CountNeverPositive text ∨ (numberEnds text ∧ EntriesSettled (atoi text).toNat text)

/-- The calls for a rights list of this text, given the calls for its rights. -/
def textCalls (env : HandlerEnv) (calls : List TypeRight → List Call) (text : List UInt8) : List Call :=
  match commandRights env text with
  | none => []
  | some rights => calls rights

/-- The calls for a text that goes on are the same however it does. -/
def SameTextCalls (env : HandlerEnv) (calls : List TypeRight → List Call) (text : List UInt8) : Prop :=
  ∀ u v : List UInt8, 0 ∉ u → 0 ∉ v → textCalls env calls (text ++ u) = textCalls env calls (text ++ v)

variable {env : HandlerEnv} {calls : List TypeRight → List Call}

/-! ## A settled text has the same calls -/

/-- A count that never becomes positive makes no calls. -/
theorem CountNeverPositive.textCalls {text : List UInt8} (h : CountNeverPositive text) (hnil : calls [] = []) (u : List UInt8) :
    textCalls env calls (text ++ u) = [] := by
  have hne : numberText text ≠ [] := by
    intro hnil
    obtain ⟨-, -, ds, hds, hpos⟩ := atoi_of_numberText_nil hnil
    have := h ds hds
    omega
  have hnonpos : atoi (text ++ u) ≤ 0 := by
    rw [atoi_append hne]
    exact h _ fun b hb => List.mem_takeWhile_imp hb
  rw [CGuard.textCalls, commandRights_of_nonpos hnonpos]
  exact hnil

/-- The calls for a text with a count that has ended and with enough entries. -/
theorem textCalls_of_entries {text u : List UInt8} (hends : numberEnds text) (hpos : 0 < (atoi text).toNat)
    {first : List UInt8} {entries more : List (List UInt8)}
    (htoks : tokens rightDelimiter (text ++ u) = first :: (entries ++ more)) (hlen : entries.length = (atoi text).toNat) :
    textCalls env calls (text ++ u) =
      if hasRoom (env.rightBlock (atoi text)) (atoi text).toNat then calls (entries.map rightOfToken) else [] := by
  have hcount := atoi_append_of_ends hends u
  split_ifs with hroom
  · rw [← hcount] at hroom hlen
    rw [textCalls, commandRights_of_entries hroom htoks hlen]
  · rw [textCalls, commandRights, hcount, if_neg]
    rintro ⟨-, h | h⟩
    · omega
    · exact hroom h

/-- The first token of a text in which one has ended. -/
theorem completeTokens_cons {text : List UInt8} (h : 0 < (completeTokens rightDelimiter text).length) :
    ∃ first rest, completeTokens rightDelimiter text = first :: rest :=
  List.exists_cons_of_ne_nil (List.ne_nil_of_length_pos h)

/-- Entries that are settled make the same calls however the text goes on. -/
theorem EntriesSettled.textCalls {text : List UInt8} (h : EntriesSettled (atoi text).toNat text) (hends : numberEnds text)
    (hpos : 0 < (atoi text).toNat)
    (hstop : ∀ rights more, (∃ right ∈ rights, rightIndex right = none) → calls (rights ++ more) = calls rights) :
    ∃ cs, ∀ u, textCalls env calls (text ++ u) = cs := by
  obtain ⟨first, rest, hcomplete⟩ : ∃ first rest, completeTokens rightDelimiter text = first :: rest := by
    refine completeTokens_cons ?_
    rcases h with h | ⟨h, -⟩ <;> omega
  simp only [EntriesSettled, hcomplete, List.length_cons, List.tail_cons] at h
  rcases h with hlen | ⟨hlen, hlast, hvalue⟩
  · have htoks : ∀ u, tokens rightDelimiter (text ++ u) = first :: (rest.take (atoi text).toNat ++
        (rest.drop (atoi text).toNat ++ tokens rightDelimiter (partialToken rightDelimiter text ++ u))) := by
      intro u
      rw [tokens_append, hcomplete, ← List.append_assoc, List.take_append_drop, List.cons_append]
    have htake : (rest.take (atoi text).toNat).length = (atoi text).toNat := by
      rw [List.length_take]
      omega
    exact ⟨_, fun u => textCalls_of_entries hends hpos (htoks u) htake⟩
  · refine ⟨if hasRoom (env.rightBlock (atoi text)) (atoi text).toNat then
      calls ((rest ++ [partialToken rightDelimiter text]).map rightOfToken) else [], fun u => ?_⟩
    obtain ⟨more, hmore⟩ := tokens_partial hlast u
    have htoks : tokens rightDelimiter (text ++ u) =
        first :: ((rest ++ [partialToken rightDelimiter text ++ u.takeWhile (!rightDelimiter ·)]) ++ more) := by
      rw [tokens_append, hcomplete, hmore, List.append_assoc, List.cons_append]
      rfl
    rw [textCalls_of_entries hends hpos htoks (by rw [List.length_append]; exact hlen)]
    simp only [List.map_append, List.map_cons, List.map_nil]
    rcases hvalue with ⟨token, hmem, hnone⟩ | hsame
    · have hbad : ∃ right ∈ rest.map rightOfToken, rightIndex right = none := ⟨_, List.mem_map_of_mem hmem, hnone⟩
      rw [hstop _ _ hbad, hstop _ _ hbad]
    · rw [rightOfToken_append hsame]

/-- The calls for a settled text that goes on are the same however it does. -/
theorem textCalls_of_settled (hnil : calls [] = [])
    (hstop : ∀ rights more, (∃ right ∈ rights, rightIndex right = none) → calls (rights ++ more) = calls rights)
    {text : List UInt8} (h : CountNeverPositive text ∨ (numberEnds text ∧ EntriesSettled (atoi text).toNat text)) :
    ∃ cs, ∀ u, textCalls env calls (text ++ u) = cs := by
  rcases h with hcount | ⟨hends, hentries⟩
  · exact ⟨[], hcount.textCalls hnil⟩
  · rcases Nat.eq_zero_or_pos (atoi text).toNat with hzero | hpos
    · refine ⟨[], fun u => ?_⟩
      have hnonpos : atoi (text ++ u) ≤ 0 := by
        rw [atoi_append_of_ends hends]
        omega
      rw [textCalls, commandRights_of_nonpos hnonpos]
      exact hnil
    · exact hentries.textCalls hends hpos hstop

/-! ## A text with the same calls is settled -/

/-- A text with a positive count makes calls when enough entries follow. -/
theorem exists_textCalls {text : List UInt8} (hroom : ∀ n, hasRoom (env.rightBlock n) n.toNat)
    (hne : ∀ rights, rights ≠ [] → calls rights ≠ []) (hpos : 0 < atoi text) :
    ∃ w, 0 ∉ w ∧ textCalls env calls (text ++ w) ≠ [] := by
  obtain ⟨first, rest, htoks⟩ := List.exists_cons_of_ne_nil (tokens_ne_nil_of_atoi (Int.ne_of_gt hpos))
  refine ⟨moreEntries (atoi text).toNat, zero_notMem_moreEntries _, ?_⟩
  have hcount := atoi_moreEntries (Int.ne_of_gt hpos) (atoi text).toNat
  have htoks' := tokens_moreEntries text (atoi text).toNat
  rw [htoks, List.cons_append, ← List.take_append_drop (atoi text).toNat (rest ++ _)] at htoks'
  have hlen : ((rest ++ List.replicate (atoi text).toNat [48]).take (atoi text).toNat).length = (atoi text).toNat := by
    simp
  have hrights := commandRights_of_entries (hroom _) htoks' (hlen.trans (by rw [hcount]))
  rw [textCalls, hrights]
  refine hne _ (List.ne_nil_of_length_pos ?_)
  rw [List.length_map, hlen]
  omega

namespace SameTextCalls

variable {text : List UInt8}

/-- More digits after a count that has not ended make it too large. -/
theorem count_ends (h : SameTextCalls env calls text) (hroom : ∀ n, hasRoom (env.rightBlock n) n.toNat) (hnil : calls [] = [])
    (hne : ∀ rights, rights ≠ [] → calls rights ≠ []) (hcount : ¬ CountNeverPositive text) :
    numberEnds text ∧ 0 < atoi text := by
  simp only [CountNeverPositive, not_forall, not_le] at hcount
  obtain ⟨ds, hds, hpos⟩ := hcount
  have hdsz : (0 : UInt8) ∉ ds := fun h => absurd (hds 0 h) (by decide)
  have hends : numberEnds text := by
    by_contra hends
    rw [Bool.not_eq_true] at hends
    obtain ⟨w, hw, hmade⟩ := @exists_textCalls env calls _ hroom hne hpos
    rw [List.append_assoc] at hmade
    refine hmade ?_
    rw [h (ds ++ w) (ds ++ List.replicate 19 48) (by simp [hdsz, hw]) (by simp [hdsz]), ← List.append_assoc, textCalls,
      commandRights_of_nonpos (atoi_append_zeros (numberEnds_append_digits hends hds) hpos)]
    exact hnil
  rw [atoi_append_of_ends hends] at hpos
  exact ⟨hends, hpos⟩

/-- Without enough tokens there are no calls, and with more entries there are. -/
theorem lt_tokens (h : SameTextCalls env calls text) (hroom : ∀ n, hasRoom (env.rightBlock n) n.toNat)
    (hne : ∀ rights, rights ≠ [] → calls rights ≠ []) (hpos : 0 < atoi text) :
    (atoi text).toNat < (tokens rightDelimiter text).length := by
  by_contra hshort
  rw [not_lt] at hshort
  obtain ⟨w, hw, hmade⟩ := @exists_textCalls env calls _ hroom hne hpos
  refine hmade ?_
  rw [h w [] hw List.not_mem_nil, List.append_nil, textCalls, commandRights_of_short hshort hpos]

end SameTextCalls

/-- The calls for a text whose last entry is followed by digits. -/
theorem textCalls_digits {text first : List UInt8} {rest : List (List UInt8)} (hroom : ∀ n, hasRoom (env.rightBlock n) n.toNat)
    (hends : numberEnds text) (hcomplete : completeTokens rightDelimiter text = first :: rest)
    (hlen : rest.length + 1 = (atoi text).toNat) (hlast : partialToken rightDelimiter text ≠ []) {u : List UInt8}
    (hu : ∀ b ∈ u, isdigit b) :
    textCalls env calls (text ++ u) =
      calls (rest.map rightOfToken ++ [rightOfToken (partialToken rightDelimiter text ++ u)]) := by
  have hno : ∀ b ∈ partialToken rightDelimiter text ++ u, rightDelimiter b = false := by
    intro b hb
    rcases List.mem_append.mp hb with hb | hb
    · exact partialToken_no_delim hb
    · exact rightDelimiter_of_isdigit (hu b hb)
  have htoks : tokens rightDelimiter (text ++ u) =
      first :: ((rest ++ [partialToken rightDelimiter text ++ u]) ++ []) := by
    rw [tokens_append, hcomplete, tokens_of_no_delim hno (by simp [hlast]), List.append_nil, List.cons_append]
  have hlen' : (rest ++ [partialToken rightDelimiter text ++ u]).length = (atoi text).toNat := by
    rw [List.length_append]
    exact hlen
  rw [textCalls_of_entries hends (by omega) htoks hlen', if_pos (hroom _), List.map_append]
  rfl

/-- If the calls for a text that goes on are the same however it does, then it is settled. -/
theorem SameTextCalls.settled {text : List UInt8} (h : SameTextCalls env calls text)
    (hroom : ∀ n, hasRoom (env.rightBlock n) n.toNat) (hnil : calls [] = [])
    (hne : ∀ rights, rights ≠ [] → calls rights ≠ [])
    (hlast : ∀ rights x y, rights.length < (atoi text).toNat → (∀ right ∈ rights, rightIndex right ≠ none) →
      calls (rights ++ [x]) = calls (rights ++ [y]) → x = y) :
    CountNeverPositive text ∨ (numberEnds text ∧ EntriesSettled (atoi text).toNat text) := by
  by_cases hcount : CountNeverPositive text
  · exact Or.inl hcount
  obtain ⟨hends, hpos⟩ := h.count_ends hroom hnil hne hcount
  refine Or.inr ⟨hends, ?_⟩
  by_cases hlen : (atoi text).toNat < (completeTokens rightDelimiter text).length
  · exact Or.inl hlen
  have htokens := h.lt_tokens hroom hne hpos
  have hsplit := @tokens_append rightDelimiter text []
  rw [List.append_nil, List.append_nil] at hsplit
  have hpartial : partialToken rightDelimiter text ≠ [] := by
    intro hnil
    rw [hsplit, hnil, tokens_nil, List.append_nil] at htokens
    exact hlen htokens
  rw [hsplit, tokens_of_no_delim (fun b hb => partialToken_no_delim hb) hpartial, List.length_append,
    List.length_singleton] at htokens
  have hcomplete : (completeTokens rightDelimiter text).length = (atoi text).toNat := by omega
  obtain ⟨first, rest, hrest⟩ := completeTokens_cons (by omega : 0 < (completeTokens rightDelimiter text).length)
  refine Or.inr ⟨hcomplete, hpartial, ?_⟩
  rw [hrest, List.tail_cons]
  rw [hrest, List.length_cons] at hcomplete
  by_cases hbad : ∃ token ∈ rest, rightIndex (rightOfToken token) = none
  · exact Or.inl hbad
  -- all earlier entries have a list, so the calls show the last one
  refine Or.inr fun ds hds => ?_
  have hdsz : (0 : UInt8) ∉ ds := fun h => absurd (hds 0 h) (by decide)
  have heq := h ds [] hdsz List.not_mem_nil
  rw [textCalls_digits hroom hends hrest hcomplete hpartial hds,
    textCalls_digits hroom hends hrest hcomplete hpartial (by simp), List.append_nil] at heq
  refine hlast (rest.map rightOfToken) _ _ ?_ ?_ heq
  · rw [List.length_map]
    omega
  · intro right hmem
    obtain ⟨token, htoken, rfl⟩ := List.mem_map.mp hmem
    exact fun hnone => hbad ⟨token, htoken, hnone⟩

end CGuard
