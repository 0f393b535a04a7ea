import CGuard.Pairings
import CGuard.Lib.SlotTable

/-!
# The pairings as a table

The files of the pairings are the records of a table of slots (`HoldsPairings`). Each function on them is an operation of the table: what
it does if the disk answers, and what it leaves if the disk fails.
-/

namespace CGuard

/-- The identifier of a pairing. -/
abbrev PairingIdentifier : Type := { bytes : List UInt8 // bytes.length ≤ 36 }

/-- The public key of a pairing. -/
abbrev PairingPublicKey : Type := { bytes : List UInt8 // bytes.length = 32 }

/-- What is known of a controller: its public key, and whether it is an administrator. -/
abbrev Controller : Type := PairingPublicKey × Bool

/-- The pairings, each in a slot. -/
abbrev PairingTable : Type := SlotTable.Table UInt8 PairingIdentifier Controller

/-- The permissions of a controller. -/
def permissionByte (admin : Bool) : UInt8 := if admin then 1 else 0

/-- The pairing of an entry. -/
def HAPPairing.ofEntry (e : PairingIdentifier × Controller) : HAPPairing := .ofValues e.1.1 e.2.1.1 (permissionByte e.2.2)

/-- The files of the pairings are the records of a table. -/
def HoldsPairings (s : Store) (t : PairingTable) : Prop :=
  ∀ key, s.file (kHAPKeyValueStoreDomainPairings, key) = (t key).map fun e => (HAPPairing.ofEntry e).pairingBytes

/-- The disk fails at some access. -/
def Disk.Failing (w : Disk) : Prop := ∃ a, w.answers a = false

/-- The accesses that look for an administrator and that remove all pairings. -/
def DiskAccess.ofCleanup : DiskAccess → Bool
  | .directory .findAdminPairing | .directory .purgeDomain | .file .findAdminPairing _ | .file .purgeDomain _ => true
  | _ => false

/-- The disk fails while it looks for an administrator or removes all pairings. -/
def Disk.CleanupFailing (w : Disk) : Prop := ∃ a, a.ofCleanup = true ∧ w.answers a = false

/-- A cleanup that fails is a disk that fails. -/
theorem Disk.CleanupFailing.failing {w : Disk} (h : w.CleanupFailing) : w.Failing := by
  obtain ⟨a, -, ha⟩ := h
  exact ⟨a, ha⟩

/-- A part of a table. -/
def SubTable (t' t : PairingTable) : Prop := ∀ key, t' key = t key ∨ t' key = none

/-- A table is a part of itself. -/
theorem SubTable.refl (t : PairingTable) : SubTable t t := fun _ => Or.inl rfl

/-- A part of a part. -/
theorem SubTable.trans {t t' t'' : PairingTable} (h : SubTable t'' t') (h' : SubTable t' t) : SubTable t'' t := by
  intro key
  rcases h key with hk | hk
  · rw [hk]
    exact h' key
  · exact Or.inr hk

/-- A slot of the table has an administrator. -/
def isAdminSlot (t : PairingTable) (key : UInt8) : Bool := (t key).any fun e => e.2.2

/-- A table without an administrator is emptied. -/
def Cleaned (t t' : PairingTable) : Prop :=
  (∃ key, isAdminSlot t key) ∧ t' = t ∨ (¬∃ key, isAdminSlot t key) ∧ ∀ key, t' key = none

namespace PairingsAux

/-! ## Records -/

/-- The buffer of an identifier has its full length. -/
theorem length_zeroPadded {n : Nat} {bytes : List UInt8} (h : bytes.length ≤ n) : (zeroPadded n bytes).length = n := by
  rw [zeroPadded, List.length_append, List.length_replicate]
  omega

/-- The zeros follow the bytes. -/
theorem take_zeroPadded (n : Nat) (bytes : List UInt8) : (zeroPadded n bytes).take bytes.length = bytes :=
  List.take_left ..

/-- The length of an identifier fits into its byte. -/
theorem toNat_length (id : PairingIdentifier) : (UInt8.ofNat id.1.length).toNat = id.1.length := by
  have := id.2
  rw [UInt8.toNat_ofNat']
  omega

/-- The identifier of an entry, as far as it counts. -/
theorem take_identifier (e : PairingIdentifier × Controller) :
    (HAPPairing.ofEntry e).identifier.take (HAPPairing.ofEntry e).numIdentifierBytes.toNat = e.1.1 := by
  show (zeroPadded 36 e.1.1).take (UInt8.ofNat e.1.1.length).toNat = e.1.1
  rw [toNat_length, take_zeroPadded]

/-- The record of an entry. -/
theorem pairingBytes_ofEntry (e : PairingIdentifier × Controller) :
    (HAPPairing.ofEntry e).pairingBytes =
      zeroPadded 36 e.1.1 ++ UInt8.ofNat e.1.1.length :: (e.2.1.1 ++ [permissionByte e.2.2]) := by
  rw [HAPPairing.pairingBytes, take_identifier]
  rfl

/-- A record has as many bytes as `HAPPairingBytes`. -/
theorem length_pairingBytes (e : PairingIdentifier × Controller) : (HAPPairing.ofEntry e).pairingBytes.length = numPairingBytes := by
  rw [pairingBytes_ofEntry, List.length_append, length_zeroPadded e.1.2, List.length_cons, List.length_append, e.2.1.2]
  rfl

/-- A byte behind the first part of a record. -/
theorem getD_append_of_le {l : List UInt8} {n : Nat} (h : l.length ≤ n) (l' : List UInt8) :
    (l ++ l').getD n 0 = l'.getD (n - l.length) 0 := by
  rw [List.getD_eq_getElem?_getD, List.getD_eq_getElem?_getD, List.getElem?_append_right h]

/-- The record of an entry is read back. -/
theorem ofBytes_pairingBytes (e : PairingIdentifier × Controller) :
    HAPPairing.ofBytes (HAPPairing.ofEntry e).pairingBytes = HAPPairing.ofEntry e := by
  have h36 := length_zeroPadded e.1.2
  have h32 := e.2.1.2
  obtain ⟨id, hid⟩ : ∃ id, zeroPadded 36 e.1.1 = id := ⟨_, rfl⟩
  rw [pairingBytes_ofEntry, hid]
  rw [hid] at h36
  have hnum : (id ++ UInt8.ofNat e.1.1.length :: (e.2.1.1 ++ [permissionByte e.2.2])).getD 36 0 = UInt8.ofNat e.1.1.length := by
    rw [getD_append_of_le (by omega), h36]
    rfl
  have hkey : ((id ++ UInt8.ofNat e.1.1.length :: (e.2.1.1 ++ [permissionByte e.2.2])).drop 37).take 32 = e.2.1.1 := by
    rw [List.drop_append, List.drop_eq_nil_of_le (by omega), h36, List.nil_append]
    show (e.2.1.1 ++ [permissionByte e.2.2]).take 32 = e.2.1.1
    exact List.take_left' h32
  have hpermissions : (id ++ UInt8.ofNat e.1.1.length :: (e.2.1.1 ++ [permissionByte e.2.2])).getD 69 0 = permissionByte e.2.2 := by
    rw [getD_append_of_le (by omega), h36]
    show (e.2.1.1 ++ [permissionByte e.2.2]).getD 32 0 = permissionByte e.2.2
    rw [getD_append_of_le (by omega), h32]
    rfl
  rw [HAPPairing.ofBytes, hnum, hkey, hpermissions, List.take_append_of_le_length (by omega), List.take_of_length_le (by omega),
    ← hid]
  rfl

/-- The permissions of an entry say whether it is an administrator. -/
theorem isAdmin_ofEntry (e : PairingIdentifier × Controller) : (HAPPairing.ofEntry e).isAdmin = e.2.2 := by
  show decide (permissionByte e.2.2 &&& 1 ≠ 0) = e.2.2
  cases e.2.2 <;> decide

/-- The two comparisons of `FindPairingEnumerateCallback` are one of the identifiers. -/
theorem same_identifier_iff (e : PairingIdentifier × Controller) (id : PairingIdentifier) :
    ((HAPPairing.ofEntry e).numIdentifierBytes = UInt8.ofNat id.1.length ∧
      (HAPPairing.ofEntry e).identifier.take (HAPPairing.ofEntry e).numIdentifierBytes.toNat =
        (zeroPadded 36 id.1).take (HAPPairing.ofEntry e).numIdentifierBytes.toNat) ↔ e.1 = id := by
  constructor
  · rintro ⟨hnum, htake⟩
    rw [take_identifier, hnum, toNat_length, take_zeroPadded] at htake
    exact Subtype.ext htake
  · rintro rfl
    refine ⟨rfl, ?_⟩
    rw [take_identifier]
    show e.1.1 = (zeroPadded 36 e.1.1).take (UInt8.ofNat e.1.1.length).toNat
    rw [toNat_length, take_zeroPadded]

/-! ## The store -/

/-- The files after a write. -/
theorem file_set (s : Store) (name other : FileName) (bytes : List UInt8) :
    Store.file (some ((s.getD ∅).insert name bytes)) other = if other = name then some bytes else s.file other := by
  rw [Store.file_insert]
  cases s <;> rfl

/-- The files after a removal. -/
theorem file_erase (s : Store) (name other : FileName) :
    Store.file (s.map fun files => files.erase name) other = if other = name then none else s.file other := by
  cases s with
  | none => simp [Store.file]
  | some files =>
    simp only [Store.file, Option.map_some, Option.bind_some]
    split_ifs with h
    · rw [h]
      exact Finmap.lookup_erase name files
    · exact Finmap.lookup_erase_ne h

variable {s : Store} {t : PairingTable} {w : Disk}

/-- The record of a slot is read as its entry, if the disk answers. -/
theorem loadPairing_eq (h : HoldsPairings s t) (io : Bool) (key : UInt8) :
    loadPairing io s key = if io then .ok ((t key).map HAPPairing.ofEntry) else .error .unknown := by
  rw [loadPairing, hapPlatformKeyValueStoreGet, h key]
  cases io with
  | false => rfl
  | true =>
    rcases t key with _ | e
    · rfl
    · simp only [if_true, Option.map_some]
      rw [List.take_of_length_le (length_pairingBytes e).le, if_neg (by rw [length_pairingBytes]; exact fun h => h rfl),
        ofBytes_pairingBytes]

/-- A record is stored. -/
theorem holds_set (h : HoldsPairings s t) (key : UInt8) (e : PairingIdentifier × Controller) :
    HoldsPairings (some ((s.getD ∅).insert (kHAPKeyValueStoreDomainPairings, key) (HAPPairing.ofEntry e).pairingBytes))
      (Function.update t key (some e)) := by
  intro key'
  rw [file_set]
  by_cases hk : key' = key
  · rw [hk, if_pos rfl, Function.update_self]
    rfl
  · rw [if_neg (by simp [hk]), Function.update_of_ne hk, h key']

/-- A write that has failed before a record was in place. -/
theorem holds_unchanged (h : HoldsPairings s t) (directory : Bool) : HoldsPairings (if directory then some (s.getD ∅) else s) t := by
  cases directory with
  | false => exact h
  | true =>
    intro key
    rw [if_pos rfl, ← h key]
    cases s with
    | none => simp [Store.file]
    | some files => rfl

/-- A record is removed. -/
theorem holds_erase (h : HoldsPairings s t) (key : UInt8) :
    HoldsPairings (s.map fun files => files.erase (kHAPKeyValueStoreDomainPairings, key)) (Function.update t key none) := by
  intro key'
  rw [file_erase]
  by_cases hk : key' = key
  · rw [hk, if_pos rfl, Function.update_self]
    rfl
  · rw [if_neg (by simp [hk]), Function.update_of_ne hk, h key']

/-- A file of another domain is removed. -/
theorem holds_erase_other (h : HoldsPairings s t) {name : FileName} (hname : name.1 ≠ kHAPKeyValueStoreDomainPairings) :
    HoldsPairings (s.map fun files => files.erase name) t := by
  intro key
  rw [file_erase, if_neg (fun heq => hname (by rw [← heq])), h key]

/-- The slots that are taken, in the order of the directory. -/
theorem keysOf_eq (h : HoldsPairings s t) (order : DirectoryOrder) :
    s.keysOf kHAPKeyValueStoreDomainPairings order = order.1.filter fun key => (t key).isSome := by
  refine List.filter_congr fun key _ => ?_
  rw [h key, Option.isSome_map]

/-- A directory lists the slots that are taken. -/
theorem mem_keysOf (h : HoldsPairings s t) (order : DirectoryOrder) (key : UInt8) :
    key ∈ s.keysOf kHAPKeyValueStoreDomainPairings order ↔ (t key).isSome := by
  rw [keysOf_eq h, List.mem_filter]
  exact and_iff_right (order.2.2 key)

/-! ## The enumerations -/

/-- The loop of `HAPPairingFind` stops at the first slot with the identifier. -/
theorem findPairing_loop (h : HoldsPairings s t) (id : PairingIdentifier) :
    ∀ keys : List UInt8, (∀ key ∈ keys, (t key).isSome) →
      enumdir (findPairingEnumerateCallback w s id.1) none keys =
          .ok (.none, (SlotTable.find t id keys).map fun x => (x.1, HAPPairing.ofEntry (id, x.2))) ∨
        w.Failing ∧ enumdir (findPairingEnumerateCallback w s id.1) none keys = .ok (.unknown, none) := by
  intro keys
  induction keys with
  | nil => exact fun _ => Or.inl rfl
  | cons key keys ih =>
    intro hkeys
    obtain ⟨e, he⟩ := Option.isSome_iff_exists.mp (hkeys key List.mem_cons_self)
    have hrest := ih fun k hk => hkeys k (List.mem_cons_of_mem _ hk)
    rw [enumdir, findPairingEnumerateCallback, loadPairing_eq h]
    cases hio : w.answers (.file .findPairing key) with
    | false => exact Or.inr ⟨⟨_, hio⟩, rfl⟩
    | true =>
      have hfind : SlotTable.find t id (key :: keys) = if e.1 = id then some (key, e.2) else SlotTable.find t id keys := by
        simp only [SlotTable.find, List.findSome?_cons, he, Option.bind_some]
        split_ifs <;> rfl
      simp only [he, if_true, Option.map_some, hfind]
      by_cases hid : e.1 = id
      · obtain ⟨hnum, htake⟩ := (same_identifier_iff e id).mpr hid
        rw [if_neg (by simpa using hnum), if_neg (by simpa using htake), if_pos hid, ← hid]
        exact Or.inl rfl
      · rw [if_neg hid]
        by_cases hnum : (HAPPairing.ofEntry e).numIdentifierBytes = UInt8.ofNat id.1.length
        · have htake := fun htake => hid ((same_identifier_iff e id).mp ⟨hnum, htake⟩)
          rw [if_neg (by simpa using hnum), if_pos htake]
          exact hrest
        · rw [if_pos hnum]
          exact hrest

/-- `HAPPairingFind` finds the slot of an identifier. -/
theorem hapPairingFind_spec (h : HoldsPairings s t) (id : PairingIdentifier) :
    hapPairingFind w s id.1 =
        .ok (.none, (SlotTable.find t id (s.keysOf kHAPKeyValueStoreDomainPairings (w.order .findPairing))).map fun x =>
          (x.1, HAPPairing.ofEntry (id, x.2))) ∨
      w.Failing ∧ hapPairingFind w s id.1 = .ok (.unknown, none) := by
  rw [hapPairingFind, enumeratePairings]
  cases hio : w.answers (.directory .findPairing) with
  | false => exact Or.inr ⟨⟨_, hio⟩, rfl⟩
  | true => exact findPairing_loop h id _ fun key hkey => (mem_keysOf h _ key).mp hkey

/-- The loop over the pairings stops at the first administrator. -/
theorem findAdminPairing_loop (h : HoldsPairings s t) :
    ∀ (keys : List UInt8) (hasPairings : Bool), (∀ key ∈ keys, (t key).isSome) →
      (∃ hasPairings', enumdir (findAdminPairingEnumerateCallback w s) ⟨hasPairings, false⟩ keys =
          .ok (.none, ⟨hasPairings', keys.any (isAdminSlot t)⟩) ∧ (hasPairings' = true ↔ hasPairings = true ∨ keys ≠ [])) ∨
        w.CleanupFailing ∧ ∃ c, enumdir (findAdminPairingEnumerateCallback w s) ⟨hasPairings, false⟩ keys = .ok (.unknown, c) := by
  intro keys
  induction keys with
  | nil => exact fun hasPairings _ => Or.inl ⟨hasPairings, rfl, by simp⟩
  | cons key keys ih =>
    intro hasPairings hkeys
    obtain ⟨e, he⟩ := Option.isSome_iff_exists.mp (hkeys key List.mem_cons_self)
    rw [enumdir, findAdminPairingEnumerateCallback, loadPairing_eq h]
    cases hio : w.answers (.file .findAdminPairing key) with
    | false => exact Or.inr ⟨⟨_, rfl, hio⟩, _, rfl⟩
    | true =>
      simp only [he, if_true, Option.map_some, isAdmin_ofEntry]
      cases hadmin : e.2.2 with
      | true =>
        refine Or.inl ⟨true, ?_, by simp⟩
        simp [isAdminSlot, he, hadmin]
      | false =>
        rcases ih true fun k hk => hkeys k (List.mem_cons_of_mem _ hk) with ⟨hasPairings', heq, hiff⟩ | hfail
        · refine Or.inl ⟨hasPairings', ?_, by simp only [hiff]; simp⟩
          simp only [Bool.false_eq_true, if_false, heq, List.any_cons, isAdminSlot, he, Option.any_some, hadmin, Bool.false_or]
        · exact Or.inr hfail

/-- Each round removes one more pairing, until the disk fails. -/
theorem purge_loop : ∀ (keys : List UInt8) {s : Store} {t : PairingTable}, HoldsPairings s t →
    ∃ err s' t', enumdir (fun s key =>
        let r := hapPlatformKeyValueStoreRemove (w.answers (.file .purgeDomain key)) s kHAPKeyValueStoreDomainPairings key
        .ok (r.1, r.2, true)) s keys = .ok (err, s') ∧ HoldsPairings s' t' ∧ SubTable t' t ∧
      (err = .none ∧ (∀ key ∈ keys, t' key = none) ∨ err = .unknown ∧ w.CleanupFailing) := by
  intro keys
  induction keys with
  | nil => exact fun {s t} h => ⟨.none, s, t, rfl, h, SubTable.refl t, Or.inl ⟨rfl, by simp⟩⟩
  | cons key keys ih =>
    intro s t h
    rw [enumdir, hapPlatformKeyValueStoreRemove]
    cases hio : w.answers (.file .purgeDomain key) with
    | false => exact ⟨.unknown, s, t, rfl, h, SubTable.refl t, Or.inr ⟨rfl, _, rfl, hio⟩⟩
    | true =>
      obtain ⟨err, s', t', hrun, hholds, hsub, hend⟩ := ih (holds_erase h key)
      have hfirst : SubTable (Function.update t key none) t := by
        intro key'
        by_cases hk : key' = key
        · rw [hk, Function.update_self]
          exact Or.inr rfl
        · rw [Function.update_of_ne hk]
          exact Or.inl rfl
      refine ⟨err, s', t', hrun, hholds, hsub.trans hfirst, ?_⟩
      refine hend.imp_left fun ⟨herr, hnone⟩ => ⟨herr, fun k hk => ?_⟩
      rcases List.mem_cons.mp hk with rfl | hk
      · rcases hsub k with heq | hn
        · rw [heq, Function.update_self]
        · exact hn
      · exact hnone k hk

/-- `HAPPlatformKeyValueStorePurgeDomain` of the pairings removes them all, or some of them if the disk fails. -/
theorem purgePairings_spec (h : HoldsPairings s t) :
    ∃ err s' t', purgePairings w s = .ok (err, s') ∧ HoldsPairings s' t' ∧ SubTable t' t ∧
      (err = .none ∧ (∀ key, t' key = none) ∨ err = .unknown ∧ w.CleanupFailing) := by
  rw [purgePairings, enumeratePairings]
  cases hio : w.answers (.directory .purgeDomain) with
  | false => exact ⟨.unknown, s, t, rfl, h, SubTable.refl t, Or.inr ⟨rfl, _, rfl, hio⟩⟩
  | true =>
    obtain ⟨err, s', t', hrun, hholds, hsub, hend⟩ := purge_loop (w := w) (s.keysOf kHAPKeyValueStoreDomainPairings (w.order .purgeDomain)) h
    refine ⟨err, s', t', hrun, hholds, hsub, hend.imp_left fun ⟨herr, hnone⟩ => ⟨herr, fun key => ?_⟩⟩
    rcases hk : t key with _ | e
    · rcases hsub key with heq | hn
      · rw [heq, hk]
      · exact hn
    · exact hnone key ((mem_keysOf h _ key).mpr (by rw [hk]; rfl))

/-- The end of `HAPAccessoryServerCleanupPairings`, when no administrator has been found. -/
theorem removeAll_spec (h : HoldsPairings s t) (hasPairings : Bool) (hhas : hasPairings = false → ∀ key, t key = none) :
    ∃ err s' t', (do
        let (err, s) ← if hasPairings then purgePairings w s else .ok (.none, s)
        if err ≠ .none then .ok (err, s)
        else .ok (hapPlatformKeyValueStoreRemove (w.answers .bleBroadcastParameters) s kHAPKeyValueStoreDomainConfiguration 0x41)) =
          (.ok (err, s') : Except HomeKitError (HAPError × Store)) ∧
      HoldsPairings s' t' ∧ SubTable t' t ∧
      (err = .none ∧ (∀ key, t' key = none) ∨ err = .unknown ∧ w.Failing ∧ ((∀ key, t' key = none) ∨ w.CleanupFailing)) := by
  obtain ⟨err, s', t', hpurge, hholds, hsub, hend⟩ : ∃ err s' t', (if hasPairings then purgePairings w s else .ok (.none, s)) =
      (.ok (err, s') : Except HomeKitError (HAPError × Store)) ∧ HoldsPairings s' t' ∧ SubTable t' t ∧
      (err = .none ∧ (∀ key, t' key = none) ∨ err = .unknown ∧ w.CleanupFailing) := by
    cases hasPairings with
    | false => exact ⟨.none, s, t, rfl, h, SubTable.refl t, Or.inl ⟨rfl, hhas rfl⟩⟩
    | true => exact purgePairings_spec h
  have hbind : ∀ f : HAPError × Store → Except HomeKitError (HAPError × Store),
      (if hasPairings then purgePairings w s >>= f else (.ok (.none, s)) >>= f) = f (err, s') := by
    intro f
    cases hasPairings with
    | false => exact congrArg (· >>= f) hpurge
    | true => exact congrArg (· >>= f) hpurge
  rcases hend with ⟨rfl, hnone⟩ | ⟨rfl, hfail⟩
  · have hother : (kHAPKeyValueStoreDomainConfiguration, (0x41 : UInt8)).1 ≠ kHAPKeyValueStoreDomainPairings := by decide
    cases hble : w.answers .bleBroadcastParameters with
    | false => exact ⟨.unknown, s', t', hbind _, hholds, hsub, Or.inr ⟨rfl, ⟨_, hble⟩, Or.inl hnone⟩⟩
    | true => exact ⟨.none, _, t', hbind _, holds_erase_other hholds hother, hsub, Or.inl ⟨rfl, hnone⟩⟩
  · exact ⟨.unknown, s', t', hbind _, hholds, hsub, Or.inr ⟨rfl, hfail.failing, Or.inr hfail⟩⟩

/-- `HAPAccessoryServerCleanupPairings`: if there is an administrator nothing happens, else all pairings are removed. If the disk fails
meanwhile, some of them may be left. -/
theorem cleanupPairings_spec (h : HoldsPairings s t) :
    ∃ err s' t', cleanupPairings w s = .ok (err, s') ∧ HoldsPairings s' t' ∧ SubTable t' t ∧
      (err = .none ∧ Cleaned t t' ∨ err = .unknown ∧ w.Failing ∧ (Cleaned t t' ∨ w.CleanupFailing)) := by
  have hloop := findAdminPairing_loop (w := w) h (s.keysOf kHAPKeyValueStoreDomainPairings (w.order .findAdminPairing)) false
    fun key hkey => (mem_keysOf h _ key).mp hkey
  rw [cleanupPairings, enumeratePairings]
  cases hio : w.answers (.directory .findAdminPairing) with
  | false => exact ⟨.unknown, s, t, rfl, h, SubTable.refl t, Or.inr ⟨rfl, ⟨_, hio⟩, Or.inr ⟨_, rfl, hio⟩⟩⟩
  | true =>
    rw [if_pos rfl]
    rcases hloop with ⟨hasPairings, hrun, hhas⟩ | ⟨hfail, c, hrun⟩
    · rw [hrun]
      have hany : (s.keysOf kHAPKeyValueStoreDomainPairings (w.order .findAdminPairing)).any (isAdminSlot t) = true ↔
          ∃ k, isAdminSlot t k = true := by
        rw [List.any_eq_true]
        refine ⟨fun ⟨k, _, hk⟩ => ⟨k, hk⟩, fun ⟨k, hk⟩ => ⟨k, (mem_keysOf h _ k).mpr ?_, hk⟩⟩
        rcases htk : t k with _ | e
        · rw [isAdminSlot, htk] at hk
          cases hk
        · rfl
      cases hfound : (s.keysOf kHAPKeyValueStoreDomainPairings (w.order .findAdminPairing)).any (isAdminSlot t) with
      | true =>
        refine ⟨.none, s, t, ?_, h, SubTable.refl t, Or.inl ⟨rfl, Or.inl ⟨hany.mp hfound, rfl⟩⟩⟩
        simp [bind, Except.bind]
      | false =>
        have hno : ¬∃ k, isAdminSlot t k = true := by
          rw [← hany, hfound]
          simp
        have hempty : hasPairings = false → ∀ key, t key = none := by
          rintro rfl key
          rcases hk : t key with _ | e
          · rfl
          · refine absurd (hhas.mpr (Or.inr fun hnil => ?_)) (by simp)
            have hmem := (mem_keysOf h (w.order .findAdminPairing) key).mpr (by rw [hk]; rfl)
            rw [hnil] at hmem
            cases hmem
        obtain ⟨err, s', t', hremove, hholds, hsub, hend⟩ := removeAll_spec (w := w) h hasPairings hempty
        refine ⟨err, s', t', ?_, hholds, hsub, ?_⟩
        · simpa [bind, Except.bind] using hremove
        · rcases hend with ⟨rfl, hnone⟩ | ⟨rfl, hfail, hnone | hcleanup⟩
          · exact Or.inl ⟨rfl, Or.inr ⟨hno, hnone⟩⟩
          · exact Or.inr ⟨rfl, hfail, Or.inl (Or.inr ⟨hno, hnone⟩)⟩
          · exact Or.inr ⟨rfl, hfail, Or.inr hcleanup⟩
    · rw [hrun]
      exact ⟨.unknown, s, t, rfl, h, SubTable.refl t, Or.inr ⟨rfl, hfail.failing, Or.inr hfail⟩⟩

end PairingsAux

end CGuard
