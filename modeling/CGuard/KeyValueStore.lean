import CGuard.Acl

/-!
# The key-value store

`HAPPlatformKeyValueStore.c` over `HAPPlatformFileManager.c` (PAL/POSIX): each key of each domain is a file of one directory, which
may be absent. What the disk answers to an open, read, write or rename is an argument (`io`) of the functions that need it.
-/

namespace CGuard

/-- (HAPBase.h) `HAPError`. -/
inductive HAPError where
  | none | unknown | invalidState | invalidData | outOfResources | notAuthorized | busy
  deriving DecidableEq, Repr

/-- The name of a file of the store: its domain and its key, which `GetFilePath` prints as "%02X.%02X". -/
abbrev FileName : Type := UInt8 × UInt8

/-- The path of the store: absent, or a directory of files. -/
abbrev Store : Type := Option (Finmap (fun _ : FileName => List UInt8))

/-- The content of a file of the store. -/
def Store.file (s : Store) (name : FileName) : Option (List UInt8) := s.bind fun files => files.lookup name

/-- (HAPPlatformKeyValueStore.c) `HAPPlatformKeyValueStoreGet`: at most `maxBytes` bytes of the file, if there is one. -/
def hapPlatformKeyValueStoreGet (io : Bool) (s : Store) (domain key : UInt8) (maxBytes : Nat) :
    Except HAPError (Option (List UInt8)) :=
  if io then .ok ((s.file (domain, key)).map (List.take maxBytes)) else .error .unknown

/-- What a write of a file that fails has left: the files as they were, in a directory that may have been created, or the new file, when
only the directory could not be synchronized afterwards. -/
inductive FailedWrite where
  | unchanged (directory : Bool)
  | replaced
  deriving DecidableEq

/-- What a failed write of a file leaves. -/
def FailedWrite.store (failed : FailedWrite) (s : Store) (name : FileName) (bytes : List UInt8) : Store :=
  match failed with
  | .unchanged directory => if directory then some (s.getD ∅) else s
  | .replaced => some ((s.getD ∅).insert name bytes)

/-- (HAPPlatformKeyValueStore.c) `HAPPlatformKeyValueStoreSet`, which is `HAPPlatformFileManagerWriteFile` (HAPPlatformFileManager.c): the
file is replaced, in a directory that is created if it is absent. -/
def hapPlatformKeyValueStoreSet (io : Bool) (failed : FailedWrite) (s : Store) (domain key : UInt8) (bytes : List UInt8) :
    HAPError × Store :=
  if io then (.none, some ((s.getD ∅).insert (domain, key) bytes)) else (.unknown, failed.store s (domain, key) bytes)

/-- A part of a list of files has no two of one name either. -/
theorem nodupKeys_filter (files : Multiset (Sigma fun _ : FileName => List UInt8)) (h : files.NodupKeys)
    (p : (Sigma fun _ : FileName => List UInt8) → Prop) [DecidablePred p] : (files.filter p).NodupKeys := by
  induction files using Quotient.inductionOn with
  | _ l => exact List.NodupKeys.sublist List.filter_sublist h

/-- The store without the files of a domain. -/
def Store.purge (s : Store) (domain : UInt8) : Store :=
  s.map fun files => ⟨files.entries.filter fun e => e.1.1 ≠ domain, nodupKeys_filter _ files.nodupKeys _⟩

/-- (HAPPlatformKeyValueStore.c) `HAPPlatformKeyValueStorePurgeDomain`: the files of the domain are removed, and no others. -/
def hapPlatformKeyValueStorePurgeDomain (io : Bool) (s : Store) (domain : UInt8) : Except HAPError Store :=
  if io then .ok (s.purge domain) else .error .unknown

theorem Store.file_purge (s : Store) (domain : UInt8) (name : FileName) :
    (s.purge domain).file name = if name.1 = domain then none else s.file name := by
  cases s with
  | none => simp [Store.purge, Store.file]
  | some files =>
    refine Option.ext fun bytes => ?_
    have hmem : ∀ fs : Finmap (fun _ : FileName => List UInt8), fs.lookup name = some bytes ↔ ⟨name, bytes⟩ ∈ fs.entries :=
      fun fs => Finmap.mem_lookup_iff
    simp only [Store.purge, Store.file, Option.map_some, Option.bind_some]
    rw [hmem, Multiset.mem_filter]
    by_cases hname : name.1 = domain
    · simp [hname]
    · rw [if_neg hname, hmem]
      simp [hname]

theorem Store.file_insert (files : Finmap (fun _ : FileName => List UInt8)) (name other : FileName) (bytes : List UInt8) :
    Store.file (some (files.insert name bytes)) other = if other = name then some bytes else Store.file (some files) other := by
  simp only [Store.file, Option.bind_some]
  split_ifs with h
  · rw [h]
    exact Finmap.lookup_insert files
  · exact Finmap.lookup_insert_of_ne files h

end CGuard
