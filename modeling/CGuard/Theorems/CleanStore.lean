import CGuard.SetupCode

/-!
# The store a HomeKit start finds

`CS_EnableChannel` removes the path of the store and writes a new setup info. `remove` deletes an empty directory and leaves any
other, and the setup info is written only if there is a directory.
-/

namespace CGuard

/-- (HAP+KeyValueStoreDomains.h) The domains of the configuration, of the characteristics' configuration and of the pairings. -/
def hapDomains : List UInt8 := [0x90, 0x92, 0xA0]

/-- The store holds the setup info of the code just printed, and no entry of these domains. -/
structure CleanStart (srp : SrpVerifier) (domains : List UInt8) (entry : HomekitEntry) : Prop where
  setupInfo : entry.store.file setupInfoFile = some (setupInfo srp entry.salt entry.setupCode)
  empty : ∀ name, name.1 ∈ domains → entry.store.file name = none

/-- There is a directory with at least one file, and none of its files is of these domains. -/
def HasOtherFilesOnly (domains : List UInt8) (s : Store) : Prop :=
  ∃ files, s = some files ∧ files ≠ ∅ ∧ ∀ name ∈ files, name.1 ∉ domains

namespace CleanStoreAux

/-- What an enable leaves in the store: the new setup info in a directory that was not empty, nothing where there was none. -/
theorem csEnableChannel_store {fuel : Nat} {srp : SrpVerifier} {random : Stream' UInt8} {s : Store} {entry : HomekitEntry}
    (h : csEnableChannel fuel srp random s = some entry) :
    entry.store = (removeStore s).map fun files => files.insert setupInfoFile (setupInfo srp entry.salt entry.setupCode) := by
  unfold csEnableChannel prepareNewSetupCode writeFile at h
  cases hcode : hapAccessorySetupGenerateRandomSetupCode fuel fuel random with
  | none => rw [hcode] at h; simp at h
  | some r =>
    rw [hcode] at h
    cases hs : removeStore s with
    | none =>
      rw [hs] at h
      cases h
      rfl
    | some files =>
      rw [hs] at h
      cases h
      rfl

/-- The path that `remove` leaves: a directory that is not empty. -/
theorem removeStore_eq (s : Store) :
    (removeStore s = none ∧ (s = none ∨ s = some ∅)) ∨ ∃ files, removeStore s = some files ∧ s = some files ∧ files ≠ ∅ := by
  unfold removeStore
  cases s with
  | none => exact Or.inl ⟨rfl, Or.inl rfl⟩
  | some files =>
    by_cases he : files = ∅
    · subst he
      exact Or.inl ⟨by simp, Or.inr rfl⟩
    · exact Or.inr ⟨files, by simp [he], rfl, he⟩

end CleanStoreAux

open CleanStoreAux

/-- The start is clean, for any domains but the one of the setup info, exactly when the directory holds other files only. -/
theorem cleanStart_iff {domains : List UInt8} (hdom : setupInfoFile.1 ∉ domains) {fuel : Nat} {srp : SrpVerifier}
    {random : Stream' UInt8} {s : Store} {entry : HomekitEntry} (h : csEnableChannel fuel srp random s = some entry) :
    CleanStart srp domains entry ↔ HasOtherFilesOnly domains s := by
  have hstore := csEnableChannel_store h
  rcases removeStore_eq s with ⟨hr, hs⟩ | ⟨files, hr, hs, hne⟩
  · rw [hr] at hstore
    refine iff_of_false (fun hc => ?_) ?_
    · have := hc.setupInfo
      rw [hstore] at this
      cases this
    · rintro ⟨files, hf, hne, -⟩
      rcases hs with hs | hs
      · exact absurd (hs.symm.trans hf) (by simp)
      · exact hne (Option.some.inj (hs.symm.trans hf)).symm
  · rw [hr] at hstore
    constructor
    · intro hc
      refine ⟨files, hs, hne, fun name hmem hd => ?_⟩
      have hname : name ≠ setupInfoFile := fun e => hdom (e ▸ hd)
      have hfile := hc.empty name hd
      rw [hstore] at hfile
      rw [Option.map_some, Store.file_insert, if_neg hname] at hfile
      exact Finmap.lookup_eq_none.mp hfile hmem
    · rintro ⟨files', hf, -, hall⟩
      obtain rfl : files = files' := Option.some.inj (hs.symm.trans hf)
      refine ⟨?_, fun name hd => ?_⟩
      · rw [hstore]
        exact Finmap.lookup_insert files
      · have hname : name ≠ setupInfoFile := fun e => hdom (e ▸ hd)
        rw [hstore, Option.map_some, Store.file_insert, if_neg hname]
        exact Finmap.lookup_eq_none.mpr fun hmem => hall name hmem hd

/-- For every content of the path of the store, every random source and every verifier function: when `HomekitMainFunction` is
entered, the store holds the setup info of the code just printed and no pairing, configuration or characteristic configuration if
and only if the path was a directory with at least one file and no such entry. -/
theorem homekit_starts_clean_iff {fuel : Nat} {srp : SrpVerifier} {random : Stream' UInt8} {s : Store} {entry : HomekitEntry}
    (h : csEnableChannel fuel srp random s = some entry) : CleanStart srp hapDomains entry ↔ HasOtherFilesOnly hapDomains s :=
  cleanStart_iff (by decide) h

/-- A random source of the digits 1 and 2 in turn. -/
def onesAndTwos : Stream' UInt8 := fun n => if n % 2 = 0 then 1 else 2

/-- A store that holds a setup info of an earlier start and nothing else. -/
theorem homekit_starts_clean_again :
    ∃ entry, csEnableChannel 1 (fun _ _ _ => Vector.replicate _ 0) onesAndTwos
        (some ((∅ : Finmap _).insert setupInfoFile [7])) = some entry ∧
      CleanStart (fun _ _ _ => Vector.replicate _ 0) hapDomains entry := by
  obtain ⟨entry, hentry⟩ : ∃ entry, csEnableChannel 1 (fun _ _ _ => Vector.replicate _ 0) onesAndTwos
      (some ((∅ : Finmap _).insert setupInfoFile [7])) = some entry := ⟨_, rfl⟩
  have hne : (∅ : Finmap fun _ : FileName => List UInt8).insert setupInfoFile [7] ≠ ∅ := by decide
  refine ⟨entry, hentry, (homekit_starts_clean_iff hentry).mpr ⟨_, rfl, hne, fun name hmem => ?_⟩⟩
  rw [Finmap.mem_insert] at hmem
  rcases hmem with rfl | hmem
  · decide
  · exact absurd hmem Finmap.notMem_empty

/-- An absent store: there is no setup info when `HomekitMainFunction` is entered. A store with a pairing: it is still there. -/
theorem homekit_starts_clean_not :
    (∃ entry, csEnableChannel 1 (fun _ _ _ => Vector.replicate _ 0) onesAndTwos none = some entry ∧
      entry.store.file setupInfoFile = none ∧ ¬ CleanStart (fun _ _ _ => Vector.replicate _ 0) hapDomains entry) ∧
    ∃ entry, csEnableChannel 1 (fun _ _ _ => Vector.replicate _ 0) onesAndTwos
        (some ((∅ : Finmap _).insert (0xA0, 0x00) [7])) = some entry ∧
      entry.store.file (0xA0, 0x00) = some [7] ∧ ¬ CleanStart (fun _ _ _ => Vector.replicate _ 0) hapDomains entry := by
  refine ⟨⟨_, rfl, rfl, fun h => ?_⟩, ⟨_, rfl, rfl, fun h => ?_⟩⟩
  · exact absurd (h.setupInfo) (by decide)
  · exact absurd (h.empty (0xA0, 0x00) (by decide)) (by decide)

end CGuard
