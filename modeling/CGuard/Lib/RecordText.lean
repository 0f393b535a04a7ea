import Mathlib.Data.List.Basic

/-!
# Texts of records

A text in sections: a heading, then records of one length, each on a line of its own between a lead and a stop character. Nothing in
such a text is escaped. It can be read all the same when no heading starts with the lead character, because a reader never looks into
a record: the length says where it ends, and the character after it says whether there is another one.
-/

namespace RecordText

variable {α : Type}

/-- A record on its line. -/
def line (lead stop : α) (record : List α) : List α := lead :: (record ++ [stop])

/-- The text of sections. -/
def text (lead stop : α) : List (List α × List (List α)) → List α
  | [] => []
  | (heading, records) :: sections => heading ++ records.flatMap (line lead stop) ++ text lead stop sections

/-- A heading that cannot be taken for a line. -/
def IsHeading (lead : α) (heading : List α) : Prop := ∃ b, heading.head? = some b ∧ b ≠ lead

/-- A text of sections does not start with the lead character. -/
theorem text_head {lead stop : α} {sections : List (List α × List (List α))} (h : ∀ s ∈ sections, IsHeading lead s.1) :
    (text lead stop sections).head? ≠ some lead := by
  cases sections with
  | nil => simp [text]
  | cons s sections =>
    obtain ⟨b, hb, hne⟩ := h s List.mem_cons_self
    rw [text, List.append_assoc, List.head?_append, hb]
    simpa using hne

/-- There are no more records than their lines have characters. -/
theorem length_le_lines (lead stop : α) (records : List (List α)) :
    records.length ≤ (records.flatMap (line lead stop)).length := by
  induction records with
  | nil => exact Nat.le_refl 0
  | cons record records ih =>
    simp only [List.flatMap_cons, line, List.length_append, List.length_cons]
    omega

variable [DecidableEq α]

/-- The records on the lines at the start of a text, and what follows them. -/
def readLines (lead : α) (n : Nat) : Nat → List α → List (List α) × List α
  | fuel + 1, b :: bs =>
    if b = lead then
      let rest := readLines lead n fuel (bs.drop (n + 1))
      (bs.take n :: rest.1, rest.2)
    else ([], b :: bs)
  | _, text => ([], text)

/-- The records of the sections with these headings. -/
def readSections (lead : α) (n : Nat) : List (List α) → List α → List (List (List α))
  | [], _ => []
  | heading :: headings, text =>
    let lines := readLines lead n text.length (text.drop heading.length)
    lines.1 :: readSections lead n headings lines.2

variable {lead stop : α} {n : Nat}

/-- A text that does not start with the lead character has no lines to read. -/
theorem readLines_nil {rest : List α} (h : rest.head? ≠ some lead) (fuel : Nat) : readLines lead n fuel rest = ([], rest) := by
  cases fuel with
  | zero => rfl
  | succ fuel =>
    cases rest with
    | nil => rfl
    | cons b bs =>
      have hb : b ≠ lead := by simpa using h
      simp only [readLines, if_neg hb]

/-- Reading the lines of some records gives the records back, whatever their content. -/
theorem readLines_lines {records : List (List α)} (hrecords : ∀ record ∈ records, record.length = n) {rest : List α}
    (hrest : rest.head? ≠ some lead) :
    ∀ fuel, records.length ≤ fuel →
      readLines lead n fuel (records.flatMap (line lead stop) ++ rest) = (records, rest) := by
  induction records with
  | nil =>
    intro fuel _
    exact readLines_nil hrest fuel
  | cons record records ih =>
    intro fuel hfuel
    obtain ⟨fuel, rfl⟩ : ∃ k, fuel = k + 1 := ⟨fuel - 1, by simp only [List.length_cons] at hfuel; omega⟩
    have hlen : record.length = n := hrecords record List.mem_cons_self
    have hline : (record :: records).flatMap (line lead stop) ++ rest =
        lead :: ((record ++ [stop]) ++ (records.flatMap (line lead stop) ++ rest)) := by
      simp only [List.flatMap_cons, line, List.cons_append, List.append_assoc]
    have htake : ((record ++ [stop]) ++ (records.flatMap (line lead stop) ++ rest)).take n = record := by
      rw [List.append_assoc, List.take_left' hlen]
    have hdrop : ((record ++ [stop]) ++ (records.flatMap (line lead stop) ++ rest)).drop (n + 1) =
        records.flatMap (line lead stop) ++ rest :=
      List.drop_left' (by rw [List.length_append, hlen, List.length_singleton])
    have hmore := ih (fun r hr => hrecords r (List.mem_cons_of_mem record hr)) fuel (by simpa using hfuel)
    rw [hline]
    simp only [readLines, if_true, htake, hdrop, hmore]

/-- Reading the sections of a text gives their records back. -/
theorem readSections_text {sections : List (List α × List (List α))} (hheading : ∀ s ∈ sections, IsHeading lead s.1)
    (hrecords : ∀ s ∈ sections, ∀ record ∈ s.2, record.length = n) :
    readSections lead n (sections.map Prod.fst) (text lead stop sections) = sections.map Prod.snd := by
  induction sections with
  | nil => rfl
  | cons s sections ih =>
    obtain ⟨heading, records⟩ := s
    have hrest := @text_head _ lead stop sections fun s hs => hheading s (List.mem_cons_of_mem _ hs)
    have hfuel : records.length ≤ (heading ++ (records.flatMap (line lead stop) ++ text lead stop sections)).length := by
      have hlines := length_le_lines lead stop records
      simp only [List.length_append]
      omega
    have hread := @readLines_lines _ _ lead stop n _ (hrecords _ List.mem_cons_self) _ hrest _ hfuel
    simp only [List.map_cons, readSections, text, List.append_assoc, List.drop_left, hread]
    rw [ih (fun s hs => hheading s (List.mem_cons_of_mem _ hs)) fun s hs => hrecords s (List.mem_cons_of_mem _ hs)]

end RecordText
