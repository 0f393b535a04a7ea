import CGuard.Lemmas.PairingRequests
import CGuard.Lib.Machine

/-!
# The pairings are a registry of controllers

What the pairings are for: a finite map of identifiers to public keys and permissions (`PairingRegistry`), which its administrators change,
and which is empty when it has no administrator (`registryStep`). The requests of any sessions, in any order, are steps of the registry,
whatever slots the pairings have and in whichever order the directory lists them.
-/

namespace CGuard

open Machine SlotTable PairingsAux

/-- The controllers that are paired. -/
abbrev PairingRegistry : Type := Registry PairingIdentifier Controller

/-- What a controller is answered by the registry. -/
inductive RegistryAnswer where
  | done
  | failed (error : UInt8)
  | listing (m : PairingRegistry)
  | badRequest

/-- Some controller is an administrator. -/
def PairingRegistry.HasAdmin (m : PairingRegistry) : Prop := ∃ id key, m.lookup id = some (key, true)

open Classical in
/-- A registry without an administrator is emptied. -/
noncomputable def PairingRegistry.clean (m : PairingRegistry) : PairingRegistry := if m.HasAdmin then m else ∅

/-- A controller that has changed the registry is answered if it is still an administrator. -/
def PairingRegistry.answer (m : PairingRegistry) (who : PairingIdentifier) : Except HomeKitError (PairingRegistry × RegistryAnswer) :=
  match m.lookup who with
  | none => .error .assertion
  | some (_, false) => .ok (m, .failed kHAPPairingErrorAuthentication)
  | some (_, true) => .ok (m, .done)

/-- A request of an administrator. -/
noncomputable def PairingRegistry.serve (maxPairings : Nat) (m : PairingRegistry) (who : PairingIdentifier) :
    PairingsRequest → Except HomeKitError (PairingRegistry × RegistryAnswer)
  | .unreadable => .ok (m, .badRequest)
  | .incomplete => .ok (m, .badRequest)
  | .add id key admin =>
    match m.lookup id with
    | some (key', _) =>
      if key' ≠ key then .ok (m, .failed kHAPPairingErrorUnknown)
      else PairingRegistry.answer (PairingRegistry.clean (m.insert id (key, admin))) who
    | none =>
      if m.keys.card = maxPairings then .ok (m, .failed kHAPPairingErrorMaxPeers)
      else PairingRegistry.answer (m.insert id (key, admin)) who
  | .remove id => .ok (if id ∈ m then PairingRegistry.clean (m.erase id) else m, .done)
  | .list => .ok (m, .listing m)

/-- A request over the session of a controller, if its pairing has not been removed. -/
noncomputable def registryStep (maxPairings : Nat) : Step PairingRegistry (Option PairingIdentifier × PairingsRequest) RegistryAnswer HomeKitError :=
  fun m a =>
    if a.2 = .unreadable then .ok (m, .badRequest)
    else
      match a.1.bind fun who => (m.lookup who).map fun c => (who, c) with
      | none => .error .assertion
      | some (_, _, false) => .ok (m, .failed kHAPPairingErrorAuthentication)
      | some (who, _, true) => m.serve maxPairings who a.2

/-! ## The code -/

/-- What does not change: the number of slots, and the scratch buffer. -/
structure PairingsConfig where
  maxPairings : UInt8
  scratchBuffer : Nat
  maxScratchBufferBytes : Nat

/-- A request: its session, what the disk answers, and the scratch buffer with the content. -/
structure PairingsAction where
  session : Nat
  disk : Disk
  scratch : Mem
  numBytes : Nat

/-- The content of a request. -/
def PairingsAction.content (cfg : PairingsConfig) (a : PairingsAction) : PairingsContent :=
  ⟨a.scratch, cfg.scratchBuffer, cfg.maxScratchBufferBytes, a.numBytes⟩

/-- `handle_pairing_data` for a request over one of the sessions. -/
def pairingsStep (cfg : PairingsConfig) : Step (Store × (Nat → HAPSession)) PairingsAction PairingsResponse HomeKitError := fun s a =>
  match handlePairings a.disk cfg.maxPairings s.1 (s.2 a.session) (a.content cfg) with
  | .error e => .error e
  | .ok (response, store, session) => .ok ((store, Function.update s.2 a.session session), response)

/-- The identifier in the record of a slot. -/
def identifierAt (s : Store) (slot : UInt8) : Option PairingIdentifier :=
  (s.file (kHAPKeyValueStoreDomainPairings, slot)).bind fun bytes =>
    identifierOf (some ((HAPPairing.ofBytes bytes).identifier.take (HAPPairing.ofBytes bytes).numIdentifierBytes.toNat))

/-- Which controller asks the registry for what. -/
noncomputable def registryRequest (cfg : PairingsConfig) (s : Store × (Nat → HAPSession)) (a : PairingsAction) :
    Option PairingIdentifier × PairingsRequest :=
  ((s.2 a.session).pairingID.bind (identifierAt s.1), .ofText (a.content cfg).text)

/-- The table of a store uses only the slots that there are. -/
def PairingTable.Within (t : PairingTable) (maxPairings : UInt8) : Prop := ∀ key, (t key).isSome → key ∈ pairingSlots maxPairings

/-- The store holds the registry. -/
def HoldsRegistry (maxPairings : UInt8) (s : Store) (m : PairingRegistry) : Prop :=
  ∃ t : PairingTable, HoldsPairings s t ∧ Tabulates t m ∧ t.Within maxPairings

/-- The store holds the registry, and the sessions are between two requests, each for its slot. -/
def ServesRegistry (cfg : PairingsConfig) (slots : Nat → UInt8) (s : Store × (Nat → HAPSession)) (m : PairingRegistry) : Prop :=
  HoldsRegistry cfg.maxPairings s.1 m ∧ s.2 = fun i => readySession (slots i)

/-- A response tells what the registry has answered, if it fits into the buffer. A listing names each controller once. -/
def Tells (maxBytes : Nat) (response : PairingsResponse) : RegistryAnswer → Prop
  | .done => response = PairingsAnswer.done.response.fit maxBytes
  | .failed error => response = (PairingsAnswer.failed error).response.fit maxBytes
  | .listing m => ∃ entries, response = (PairingsAnswer.listing entries).response.fit maxBytes ∧ (entries.map Prod.fst).Nodup ∧
      ∀ id c, (id, c) ∈ entries ↔ m.lookup id = some c
  | .badRequest => response = .badRequest

/-! ## One administrator -/

/-- The directory in the order of the keys. -/
def DirectoryOrder.ascending : DirectoryOrder where
  val := (List.range 256).map UInt8.ofNat
  property := by
    constructor
    · refine (List.nodup_map_iff_inj_on List.nodup_range).mpr fun n hn k hk heq => ?_
      rw [List.mem_range] at hn hk
      have hnat := congrArg UInt8.toNat heq
      rw [UInt8.toNat_ofNat', UInt8.toNat_ofNat'] at hnat
      omega
    · intro key
      exact List.mem_map.mpr ⟨key.toNat, List.mem_range.mpr key.toNat_lt, UInt8.ofNat_toNat⟩

/-- A disk that answers. -/
def Disk.reliable : Disk := ⟨fun _ => true, fun _ => .ascending, .unchanged false⟩

/-- The first controller: an administrator, with an empty identifier and a public key of zeros. -/
def firstController : PairingIdentifier × Controller := (⟨[], by decide⟩, ⟨List.replicate 32 0, by decide⟩, true)

/-- A store with one pairing, in the slot 0. -/
def singlePairing (e : PairingIdentifier × Controller) : Store :=
  some ((∅ : Finmap (fun _ : FileName => List UInt8)).insert (kHAPKeyValueStoreDomainPairings, 0) (HAPPairing.ofEntry e).pairingBytes)

/-- The pairing of the first controller. -/
def firstPairing : Store := singlePairing firstController

/-- The configuration of an accessory with sixteen slots. -/
def sixteenSlots : PairingsConfig := ⟨16, 0, 32768⟩

/-- The second controller, which is no administrator. -/
def secondController : PairingIdentifier × Controller := (⟨[66], by decide⟩, ⟨List.replicate 32 1, by decide⟩, false)

/-- A request to add the second controller, over the first session. -/
def addRequest : PairingsAction :=
  ⟨0, .reliable, fun p => (([6, 1, 1, 0, 1, 3, 1, 1, 66, 3, 32] ++ List.replicate 32 1 ++ [11, 1, 0] : List UInt8)).getD p 0, 46⟩

/-- A request for the list of the pairings, over the first session. -/
def listRequest : PairingsAction := ⟨0, .reliable, fun p => [6, 1, 1, 0, 1, 5].getD p 0, 6⟩

/-- The two controllers. -/
def twoControllers : PairingRegistry :=
  ((∅ : PairingRegistry).insert firstController.1 firstController.2).insert secondController.1 secondController.2

namespace PairingRegistryAux

variable {t t' : PairingTable} {m : PairingRegistry}

/-- Who a slot of the store belongs to. -/
theorem identifierAt_eq {s : Store} (h : HoldsPairings s t) (slot : UInt8) : identifierAt s slot = (t slot).map Prod.fst := by
  rw [identifierAt, h slot]
  rcases t slot with _ | e
  · rfl
  · simp only [Option.map_some, Option.bind_some, ofBytes_pairingBytes, take_identifier]
    exact dif_pos e.1.2

/-- The administrator of a slot has an identifier and a key. -/
theorem isAdminSlot_iff {slot : UInt8} : isAdminSlot t slot = true ↔ ∃ id key, t slot = some (id, key, true) := by
  rw [isAdminSlot]
  rcases t slot with _ | ⟨id, key, admin⟩
  · simp
  · simp

/-- Some slot has an administrator if the registry has one. -/
theorem exists_admin_iff (h : Tabulates t m) : (∃ key, isAdminSlot t key) ↔ m.HasAdmin := by
  constructor
  · rintro ⟨slot, hslot⟩
    obtain ⟨id, key, hk⟩ := isAdminSlot_iff.mp hslot
    exact ⟨id, key, h.lookup_of_slot hk⟩
  · rintro ⟨id, key, hm⟩
    obtain ⟨slot, hslot⟩ := (h.lookup id _).mp hm
    exact ⟨slot, isAdminSlot_iff.mpr ⟨id, key, hslot⟩⟩

/-- A cleanup of the table is one of the registry. -/
theorem tabulates_clean (h : Tabulates t m) (hc : Cleaned t t') : Tabulates t' m.clean := by
  rw [PairingRegistry.clean]
  rcases hc with ⟨hadmin, rfl⟩ | ⟨hno, hnone⟩
  · rwa [if_pos ((exists_admin_iff h).mp hadmin)]
  · rw [if_neg (fun hm => hno ((exists_admin_iff h).mpr hm)), funext hnone]
    exact Tabulates.empty

/-- The slots are those below the number of pairings. -/
theorem mem_pairingSlots {maxPairings key : UInt8} : key ∈ pairingSlots maxPairings ↔ key < maxPairings := by
  rw [pairingSlots, List.mem_map]
  constructor
  · rintro ⟨n, hn, rfl⟩
    rw [List.mem_range] at hn
    have := maxPairings.toNat_lt
    rw [UInt8.lt_iff_toNat_lt, UInt8.toNat_ofNat']
    omega
  · intro hlt
    exact ⟨key.toNat, List.mem_range.mpr (UInt8.lt_iff_toNat_lt.mp hlt), UInt8.ofNat_toNat⟩

/-- There are as many slots as pairings are allowed. -/
theorem card_pairingSlots (maxPairings : UInt8) : (pairingSlots maxPairings).toFinset.card = maxPairings.toNat := by
  rw [List.toFinset_card_of_nodup, pairingSlots, List.length_map, List.length_range]
  rw [pairingSlots]
  refine (List.nodup_map_iff_inj_on List.nodup_range).mpr fun n hn k hk heq => ?_
  rw [List.mem_range] at hn hk
  have := maxPairings.toNat_lt
  have hnat := congrArg UInt8.toNat heq
  rw [UInt8.toNat_ofNat', UInt8.toNat_ofNat'] at hnat
  omega

/-- The registry is full when every slot is taken. -/
theorem full_iff {maxPairings : UInt8} (h : Tabulates t m) (hw : t.Within maxPairings) :
    m.keys.card = maxPairings.toNat ↔ ∀ key ∈ pairingSlots maxPairings, (t key).isSome := by
  rw [← card_pairingSlots, h.full_iff fun key hk => List.mem_toFinset.mpr (hw key hk)]
  simp only [List.mem_toFinset]

/-- A slot that is there may be written. -/
theorem within_update {maxPairings : UInt8} (hw : t.Within maxPairings) {slot : UInt8} (hslot : slot ∈ pairingSlots maxPairings)
    (e : Option (PairingIdentifier × Controller)) : PairingTable.Within (Function.update t slot e) maxPairings := by
  intro key hk
  by_cases heq : key = slot
  · rw [heq]
    exact hslot
  · rw [Function.update_of_ne heq] at hk
    exact hw key hk

/-- A part of a table stays in its slots. -/
theorem within_sub {maxPairings : UInt8} (hw : t.Within maxPairings) (hsub : SubTable t' t) : t'.Within maxPairings := by
  intro key hk
  rcases hsub key with heq | hnone
  · rw [heq] at hk
    exact hw key hk
  · rw [hnone] at hk
    cases hk

/-- A cleanup leaves a part of the table. -/
theorem cleaned_sub (hc : Cleaned t t') : SubTable t' t := by
  rcases hc with ⟨-, rfl⟩ | ⟨-, hnone⟩
  · exact SubTable.refl _
  · exact fun key => Or.inr (hnone key)

/-- The store with one pairing holds the registry of its controller, and no other slot is taken. -/
theorem holds_singlePairing (e : PairingIdentifier × Controller) :
    HoldsPairings (singlePairing e) (Function.update (fun _ => none) 0 (some e)) ∧
      Tabulates (Function.update (fun _ : UInt8 => none) 0 (some e)) ((∅ : PairingRegistry).insert e.1 e.2) ∧
      PairingTable.Within (Function.update (fun _ => none) 0 (some e)) sixteenSlots.maxPairings := by
  have hnone : HoldsPairings none fun _ => none := fun _ => rfl
  refine ⟨holds_set hnone 0 e, ?_, ?_⟩
  · exact Tabulates.empty.put _ (fun e' he => by cases he) fun k' v' hk' => by cases hk'
  · exact within_update (fun key hk => by cases hk) (mem_pairingSlots.mpr (by decide)) _

/-- The store with the first pairing holds the registry of the first controller. -/
theorem holds_firstPairing :
    HoldsPairings firstPairing (Function.update (fun _ => none) 0 (some firstController)) ∧
      Tabulates (Function.update (fun _ : UInt8 => none) 0 (some firstController))
        ((∅ : PairingRegistry).insert firstController.1 firstController.2) ∧
      PairingTable.Within (Function.update (fun _ => none) 0 (some firstController)) sixteenSlots.maxPairings :=
  holds_singlePairing firstController

/-- The store with the first pairing serves the registry of the first controller. -/
theorem serves_firstPairing :
    ServesRegistry sixteenSlots (fun _ => 0) (firstPairing, fun _ => readySession 0)
      ((∅ : PairingRegistry).insert firstController.1 firstController.2) :=
  ⟨⟨_, holds_firstPairing⟩, rfl⟩

/-- A pairing that is added, in terms of the registry. The pairing of the session stays in its slot, unless all are removed. -/
theorem serve_add_done {w : Disk} {maxPairings slot : UInt8} {who id : PairingIdentifier} {c : Controller} {key : PairingPublicKey}
    {admin : Bool} (h : Tabulates t m) (hw : t.Within maxPairings) (hslot : t slot = some (who, c))
    (heffect : AddEffect w maxPairings t id key admin 0 t') :
    ∃ m', Tabulates t' m' ∧ t'.Within maxPairings ∧ m.serve maxPairings.toNat who (.add id key admin) = PairingRegistry.answer m' who ∧
      ((∃ c, t' slot = some (who, c)) ∨ ∀ key, t' key = none) := by
  generalize herror : (0 : UInt8) = error at heffect
  cases heffect with
  | otherKey hk hne => exact absurd herror (by decide)
  | @updated at_ was _ hk hcleaned =>
    have hin : at_ ∈ pairingSlots maxPairings := hw at_ (by rw [hk]; rfl)
    have hput := h.put (k := at_) (key, admin) (fun e he => by rw [hk] at he; cases he; rfl) fun k' v' hk' => h.unique hk' hk
    refine ⟨_, tabulates_clean hput hcleaned, within_sub (within_update hw hin _) (cleaned_sub hcleaned), ?_, ?_⟩
    · rw [PairingRegistry.serve, h.lookup_of_slot hk]
      exact if_neg fun hne => hne rfl
    · rcases hcleaned with ⟨-, rfl⟩ | ⟨-, hnone⟩
      · by_cases heq : slot = at_
        · subst heq
          rw [hk] at hslot
          cases hslot
          exact Or.inl ⟨_, Function.update_self ..⟩
        · exact Or.inl ⟨c, by rw [Function.update_of_ne heq, hslot]⟩
      · exact Or.inr hnone
  | notCleaned hk hfail hsub hcleanup => exact absurd herror (by decide)
  | full habsent hall => exact absurd herror (by decide)
  | @added free habsent hin hfree =>
    have hput := h.put (k := free) (key, admin) (fun e he => by rw [hfree] at he; cases he) fun k' v' hk' => absurd hk' (habsent k' v')
    have hnone : m.lookup id = none := h.lookup_eq_none.mpr habsent
    have hroom : m.keys.card ≠ maxPairings.toNat := by
      intro hcard
      have := (full_iff h hw).mp hcard free hin
      rw [hfree] at this
      cases this
    refine ⟨_, hput, within_update hw hin _, ?_, Or.inl ⟨c, ?_⟩⟩
    · rw [PairingRegistry.serve, hnone]
      exact if_neg hroom
    · rw [Function.update_of_ne, hslot]
      rintro rfl
      rw [hfree] at hslot
      cases hslot
  | notStored hfail => exact absurd herror (by decide)
  | storedUnsaid hfail habsent hin hfree => exact absurd herror (by decide)

/-- A pairing that is not added, in terms of the registry. -/
theorem serve_add_failed {w : Disk} {maxPairings error : UInt8} (who : PairingIdentifier) {id : PairingIdentifier} {key : PairingPublicKey} {admin : Bool}
    (hok : ¬w.Failing) (h : Tabulates t m) (hw : t.Within maxPairings) (heffect : AddEffect w maxPairings t id key admin error t')
    (herror : error ≠ 0) :
    t' = t ∧ m.serve maxPairings.toNat who (.add id key admin) = .ok (m, .failed error) := by
  cases heffect with
  | otherKey hk hne =>
    refine ⟨rfl, ?_⟩
    rw [PairingRegistry.serve, h.lookup_of_slot hk]
    exact if_pos hne
  | updated hk hcleaned => exact absurd rfl herror
  | notCleaned hk hfail hsub hcleanup => exact absurd hfail hok
  | full habsent hall =>
    refine ⟨rfl, ?_⟩
    rw [PairingRegistry.serve, h.lookup_eq_none.mpr habsent]
    exact if_pos ((full_iff h hw).mpr hall)
  | added habsent hin hfree => exact absurd rfl herror
  | notStored hfail => exact absurd hfail hok
  | storedUnsaid hfail habsent hin hfree => exact absurd hfail hok

/-- A pairing that is removed, in terms of the registry. -/
theorem serve_remove {w : Disk} {maxPairings error : UInt8} (who : PairingIdentifier) {id : PairingIdentifier} (hok : ¬w.Failing) (h : Tabulates t m)
    (hw : t.Within maxPairings) (heffect : RemoveEffect w t id error t') :
    error = 0 ∧ ∃ m', Tabulates t' m' ∧ t'.Within maxPairings ∧ m.serve maxPairings.toNat who (.remove id) = .ok (m', .done) := by
  cases heffect with
  | absent habsent =>
    refine ⟨rfl, m, h, hw, ?_⟩
    rw [PairingRegistry.serve, if_neg]
    rw [← Finmap.lookup_eq_none]
    exact h.lookup_eq_none.mpr habsent
  | @removed at_ c _ hk hcleaned =>
    have hin : at_ ∈ pairingSlots maxPairings := hw at_ (by rw [hk]; rfl)
    refine ⟨rfl, _, tabulates_clean (h.erase hk) hcleaned, within_sub (within_update hw hin _) (cleaned_sub hcleaned), ?_⟩
    rw [PairingRegistry.serve, if_pos]
    exact Finmap.mem_of_lookup_eq_some (h.lookup_of_slot hk)
  | notCleaned hk hfail hsub hcleanup => exact absurd hfail hok
  | notRemoved hfail => exact absurd hfail hok

/-- The registry is asked by the controller in the slot of the session. -/
theorem registryStep_eq (h : Tabulates t m) (maxPairings : Nat) (slot : UInt8) {request : PairingsRequest} (hrequest : request ≠ .unreadable) :
    (t slot = none → registryStep maxPairings m ((t slot).map Prod.fst, request) = .error .assertion) ∧
      ∀ who key admin, t slot = some (who, key, admin) → registryStep maxPairings m ((t slot).map Prod.fst, request) =
        if admin then m.serve maxPairings who request else .ok (m, .failed kHAPPairingErrorAuthentication) := by
  constructor
  · intro hnone
    rw [registryStep, if_neg hrequest, hnone]
    rfl
  · intro who key admin hslot
    rw [registryStep, if_neg hrequest, hslot]
    simp only [Option.map_some, Option.bind_some, h.lookup_of_slot hslot]
    cases admin <;> rfl

/-- The answer of the registry to its administrator is read off the slot of the session. -/
theorem answer_eq {who : PairingIdentifier} {slot : UInt8} (h : Tabulates t m)
    (hslot : (∃ c, t slot = some (who, c)) ∨ ∀ key, t key = none) :
    (t slot = none → PairingRegistry.answer m who = .error .assertion) ∧
      ∀ e, t slot = some e → PairingRegistry.answer m who =
        .ok (m, if e.2.2 then .done else .failed kHAPPairingErrorAuthentication) := by
  rcases hslot with ⟨⟨key, admin⟩, hc⟩ | hnone
  · refine ⟨fun hn => (by rw [hc] at hn; cases hn), fun e he => ?_⟩
    rw [hc] at he
    cases he
    rw [PairingRegistry.answer, h.lookup_of_slot hc]
    cases admin <;> rfl
  · refine ⟨fun _ => ?_, fun e he => (by rw [hnone] at he; cases he)⟩
    rw [PairingRegistry.answer, h.eq_empty_iff.mpr hnone, Finmap.lookup_empty]

/-- A request that is answered is a step. -/
theorem pairingsStep_ok {cfg : PairingsConfig} {s : Store × (Nat → HAPSession)} {a : PairingsAction} {response : PairingsResponse}
    {store : Store} {session : HAPSession}
    (h : handlePairings a.disk cfg.maxPairings s.1 (s.2 a.session) (a.content cfg) = .ok (response, store, session)) :
    pairingsStep cfg s a = .ok ((store, Function.update s.2 a.session session), response) := by
  rw [pairingsStep, h]

/-- One request, with a disk that answers, is one step of the registry. -/
theorem pairingsStep_matches (cfg : PairingsConfig) (slots : Nat → UInt8) (s : Store × (Nat → HAPSession)) (m : PairingRegistry)
    (a : PairingsAction) (hR : ServesRegistry cfg slots s m) (hdisk : ∀ x, a.disk.answers x = true) :
    Matches (ServesRegistry cfg slots) (Tells cfg.maxScratchBufferBytes) (pairingsStep cfg s a)
      (registryStep cfg.maxPairings.toNat m (registryRequest cfg s a)) := by
  obtain ⟨store, sessions⟩ := s
  obtain ⟨⟨t, hholds, hrep, hw⟩, hsessions⟩ := hR
  obtain rfl : sessions = fun i => readySession (slots i) := hsessions
  have hok : ¬a.disk.Failing := fun ⟨x, hx⟩ => by rw [hdisk x] at hx; cases hx
  obtain ⟨slot, hslot⟩ : ∃ slot, slots a.session = slot := ⟨_, rfl⟩
  have hserved := @handlePairings_served a.disk cfg.maxPairings store t hholds slot (a.content cfg)
  have hwho : registryRequest cfg (store, fun i => readySession (slots i)) a =
      ((t slot).map Prod.fst, .ofText (a.content cfg).text) := by
    rw [← identifierAt_eq hholds, ← hslot]
    rfl
  have hstay : ∀ {t' : PairingTable} {s' : Store} {m' : PairingRegistry}, HoldsPairings s' t' → Tabulates t' m' →
      t'.Within cfg.maxPairings → ServesRegistry cfg slots
        (s', Function.update (fun i => readySession (slots i)) a.session (readySession slot)) m' := by
    intro t' s' m' h1 h2 h3
    refine ⟨⟨t', h1, h2, h3⟩, ?_⟩
    rw [← hslot]
    exact Function.update_eq_self a.session _
  rw [hwho]
  simp only [pairingsStep, hslot]
  obtain ⟨request, hrequest⟩ : ∃ request, PairingsRequest.ofText (a.content cfg).text = request := ⟨_, rfl⟩
  rw [hrequest] at hserved ⊢
  rcases hserved with ⟨hfault, hrun⟩ | ⟨answer, s', t', hholds', heffect, hrun⟩
  · rw [hrun]
    cases hfault with
    | disk hfail => exact absurd hfail hok
    | gone hreadable hnone =>
      rw [(registryStep_eq hrep _ slot hreadable).1 hnone]
      exact rfl
    | demoted hadmin hadd hnone =>
      obtain ⟨who, key, hwhoslot⟩ := isAdminSlot_iff.mp hadmin
      obtain ⟨m', hrep', -, hserve, hkept⟩ := serve_add_done hrep hw hwhoslot hadd
      rw [(registryStep_eq hrep _ slot (by simp)).2 _ _ _ hwhoslot, if_pos rfl, hserve, (answer_eq hrep' hkept).1 hnone]
      exact rfl
  · rw [hrun]
    cases heffect with
    | unreadable =>
      rw [registryStep, if_pos rfl]
      exact ⟨hstay hholds' hrep hw, rfl⟩
    | @notAdmin _ e hreadable he hno =>
      obtain ⟨who, key, admin⟩ := e
      rw [(registryStep_eq hrep _ slot hreadable).2 _ _ _ he, if_neg (by simpa using hno)]
      exact ⟨hstay hholds' hrep hw, rfl⟩
    | incomplete hadmin =>
      obtain ⟨who, key, hwhoslot⟩ := isAdminSlot_iff.mp hadmin
      rw [(registryStep_eq hrep _ slot (by simp)).2 _ _ _ hwhoslot]
      exact ⟨hstay hholds' hrep hw, rfl⟩
    | addFailed hadmin hadd herror =>
      obtain ⟨who, key, hwhoslot⟩ := isAdminSlot_iff.mp hadmin
      obtain ⟨rfl, hserve⟩ := serve_add_failed who hok hrep hw hadd herror
      rw [(registryStep_eq hrep _ slot (by simp)).2 _ _ _ hwhoslot, if_pos rfl, hserve]
      exact ⟨hstay hholds' hrep hw, rfl⟩
    | addDone hadmin hadd hstill =>
      obtain ⟨who, key, hwhoslot⟩ := isAdminSlot_iff.mp hadmin
      obtain ⟨m', hrep', hw', hserve, hkept⟩ := serve_add_done hrep hw hwhoslot hadd
      obtain ⟨id, key', hid⟩ := isAdminSlot_iff.mp hstill
      rw [(registryStep_eq hrep _ slot (by simp)).2 _ _ _ hwhoslot, if_pos rfl, hserve, (answer_eq hrep' hkept).2 _ hid]
      exact ⟨hstay hholds' hrep' hw', rfl⟩
    | @addDemoted _ _ _ _ e hadmin hadd he hno =>
      obtain ⟨who, key, hwhoslot⟩ := isAdminSlot_iff.mp hadmin
      obtain ⟨m', hrep', hw', hserve, hkept⟩ := serve_add_done hrep hw hwhoslot hadd
      rw [(registryStep_eq hrep _ slot (by simp)).2 _ _ _ hwhoslot, if_pos rfl, hserve, (answer_eq hrep' hkept).2 _ he, hno]
      exact ⟨hstay hholds' hrep' hw', rfl⟩
    | removed hadmin hremove =>
      obtain ⟨who, key, hwhoslot⟩ := isAdminSlot_iff.mp hadmin
      obtain ⟨rfl, m', hrep', hw', hserve⟩ := serve_remove who hok hrep hw hremove
      rw [(registryStep_eq hrep _ slot (by simp)).2 _ _ _ hwhoslot, if_pos rfl, hserve]
      exact ⟨hstay hholds' hrep' hw', rfl⟩
    | listed hadmin =>
      obtain ⟨who, key, hwhoslot⟩ := isAdminSlot_iff.mp hadmin
      rw [(registryStep_eq hrep _ slot (by simp)).2 _ _ _ hwhoslot, if_pos rfl]
      obtain ⟨hnodup, hentries⟩ := hrep.listing ((a.disk.order .listPairings).2.1.filter fun key => (t key).isSome) fun key hk =>
        List.mem_filter.mpr ⟨(a.disk.order .listPairings).2.2 key, hk⟩
      exact ⟨hstay hholds' hrep hw, _, rfl, hnodup, hentries⟩

end PairingRegistryAux

open PairingRegistryAux

/-- The requests of any sessions, in any order, are requests to the registry: as long as the disk answers, the run ends when the registry's
does, each response tells what the registry answers, and the store holds the registry. -/
theorem pairings_run (cfg : PairingsConfig) (slots : Nat → UInt8) (s : Store × (Nat → HAPSession)) (m : PairingRegistry)
    (hR : ServesRegistry cfg slots s m) (as : List PairingsAction) (hdisk : ∀ a ∈ as, ∀ x, a.disk.answers x = true) :
    Matches (ServesRegistry cfg slots) (List.Forall₂ (Tells cfg.maxScratchBufferBytes)) (run (pairingsStep cfg) s as)
      (run (registryStep cfg.maxPairings.toNat) m (absActions (pairingsStep cfg) (registryRequest cfg) s as)) :=
  run_matches (registryRequest cfg) (P := fun _ a => ∀ x, a.disk.answers x = true)
    (fun s m a hR hdisk => pairingsStep_matches cfg slots s m a hR hdisk) as s m hR (guarded_of_forall (fun _ a ha => hdisk a ha) s)

namespace PairingRegistryAux

/-- The table of the first pairing. -/
theorem slot_firstPairing {key : UInt8} {e : PairingIdentifier × Controller}
    (h : Function.update (fun _ => none) (0 : UInt8) (some firstController) key = some e) : key = 0 ∧ e = firstController := by
  by_cases hkey : key = 0
  · subst hkey
    rw [Function.update_self] at h
    exact ⟨rfl, (Option.some.inj h).symm⟩
  · rw [Function.update_of_ne hkey] at h
    cases h

/-- A reliable disk does not fail. -/
theorem reliable_answers : ¬Disk.reliable.Failing := by
  rintro ⟨x, hx⟩
  cases hx

/-- Beside the first pairing there is room for the second one. -/
theorem addEffect_second {error : UInt8}
    (h : AddEffect .reliable 16 (Function.update (fun _ => none) 0 (some firstController)) secondController.1 secondController.2.1 false
      error t') : error = 0 ∧ t' 0 = some firstController := by
  have hother : ∀ {key c}, Function.update (fun _ => none) (0 : UInt8) (some firstController) key ≠ some (secondController.1, c) := by
    intro key c hk
    have hid : (secondController.1, c).1 = firstController.1 := congrArg Prod.fst (slot_firstPairing hk).2
    have hne : secondController.1 ≠ firstController.1 := by decide
    exact hne hid
  cases h with
  | otherKey hk _ => exact absurd hk hother
  | updated hk _ => exact absurd hk hother
  | notCleaned hk _ _ _ => exact absurd hk hother
  | full _ hall =>
    have hone := hall 1 (mem_pairingSlots.mpr (by decide))
    cases hone
  | added _ _ hfree =>
    refine ⟨rfl, ?_⟩
    rw [Function.update_of_ne, Function.update_self]
    rintro rfl
    rw [Function.update_self] at hfree
    cases hfree
  | notStored hfail => exact absurd hfail reliable_answers
  | storedUnsaid hfail _ _ _ => exact absurd hfail reliable_answers

/-- The text of `addRequest` asks for the second controller to be added. -/
theorem ofText_addRequest :
    PairingsRequest.ofText (addRequest.content sixteenSlots).text = .add secondController.1 secondController.2.1 false := by
  have htlvs : WellFormedRequest pairingTLVTypes.1 (addRequest.content sixteenSlots).text
      [(6, [1]), (0, [3]), (1, [66]), (3, List.replicate 32 1), (11, [0])] := by
    refine .of_nodup ?_ (by decide)
    simp only [encodeTLVs, List.flatMap_cons, List.flatMap_nil]
    rw [encodeTLV_of_le (by decide), encodeTLV_of_le (by decide), encodeTLV_of_le (by decide), encodeTLV_of_le (by decide),
      encodeTLV_of_le (by decide)]
    decide
  rw [ofText_eq htlvs]
  decide

/-- The text of `listRequest` asks for the pairings. -/
theorem ofText_listRequest : PairingsRequest.ofText (listRequest.content sixteenSlots).text = .list := by
  have htlvs : WellFormedRequest pairingTLVTypes.1 (listRequest.content sixteenSlots).text [(6, [1]), (0, [5])] := by
    refine .of_nodup ?_ (by decide)
    rw [encodeTLVs, List.flatMap_cons, List.flatMap_cons, encodeTLV_of_le (by decide), encodeTLV_of_le (by decide)]
    decide
  rw [ofText_eq htlvs]
  decide

/-- The first controller adds the second one and stays in its slot. -/
theorem handlePairings_addRequest :
    ∃ s t response, HoldsPairings s t ∧ t 0 = some firstController ∧
      handlePairings .reliable 16 firstPairing (readySession 0) (addRequest.content sixteenSlots) = .ok (response, s, readySession 0) := by
  have hserved := @handlePairings_served .reliable 16 _ _ holds_firstPairing.1 0 (addRequest.content sixteenSlots)
  rw [ofText_addRequest] at hserved
  rcases hserved with ⟨hfault, -⟩ | ⟨answer, s, t, hholds, heffect, hrun⟩
  · exfalso
    cases hfault with
    | disk hfail => exact reliable_answers hfail
    | gone _ hnone => cases hnone
    | demoted _ hadd hnone =>
      rw [(addEffect_second hadd).2] at hnone
      cases hnone
  · refine ⟨s, t, _, hholds, ?_, hrun⟩
    cases heffect with
    | notAdmin _ he hno =>
      rw [(slot_firstPairing he).2] at hno
      cases hno
    | addFailed _ hadd herror => exact absurd (addEffect_second hadd).1 herror
    | addDone _ hadd _ => exact (addEffect_second hadd).2
    | addDemoted _ hadd _ _ => exact (addEffect_second hadd).2

/-- The registry of the first controller adds the second one, and lists them. -/
theorem registry_addList :
    run (registryStep 16) ((∅ : PairingRegistry).insert firstController.1 firstController.2)
        [(some firstController.1, .add secondController.1 secondController.2.1 false), (some firstController.1, .list)] =
      .ok (twoControllers, [.done, .listing twoControllers]) := by
  have hne : firstController.1 ≠ secondController.1 := by decide
  have hroom : ¬((∅ : PairingRegistry).insert firstController.1 firstController.2).keys.card = 16 := by
    intro hcard
    have hone := (full_iff holds_firstPairing.2.1 holds_firstPairing.2.2).mp hcard 1 (mem_pairingSlots.mpr (by decide))
    cases hone
  have hnone : ((∅ : PairingRegistry).insert firstController.1 firstController.2).lookup secondController.1 = none := by
    rw [Finmap.lookup_insert_of_ne _ hne.symm, Finmap.lookup_empty]
  have hfirst : twoControllers.lookup firstController.1 = some firstController.2 := by
    rw [twoControllers, Finmap.lookup_insert_of_ne _ hne, Finmap.lookup_insert]
  have hadd : registryStep 16 ((∅ : PairingRegistry).insert firstController.1 firstController.2)
      (some firstController.1, .add secondController.1 secondController.2.1 false) = .ok (twoControllers, .done) := by
    have hadmin : ((∅ : PairingRegistry).insert firstController.1 firstController.2).lookup firstController.1 =
        some (firstController.2.1, true) := Finmap.lookup_insert _
    rw [registryStep, if_neg (by simp)]
    simp only [Option.bind_some, hadmin, Option.map_some, PairingRegistry.serve, hnone, if_neg hroom]
    change PairingRegistry.answer twoControllers firstController.1 = _
    rw [PairingRegistry.answer, hfirst]
    rfl
  have hlist : registryStep 16 twoControllers (some firstController.1, .list) = .ok (twoControllers, .listing twoControllers) := by
    rw [registryStep, if_neg (by simp)]
    simp only [Option.bind_some, hfirst, Option.map_some]
    rfl
  simp only [run, hadd, hlist]

end PairingRegistryAux

/-- The first controller adds the second one and lists the two. -/
theorem pairings_run_addList :
    ∃ s' response listing,
      run (pairingsStep sixteenSlots) (firstPairing, fun _ => readySession 0) [addRequest, listRequest] = .ok (s', [response, listing]) ∧
        ServesRegistry sixteenSlots (fun _ => 0) s' twoControllers ∧ Tells 32768 response .done ∧
        Tells 32768 listing (.listing twoControllers) := by
  obtain ⟨s₁, t₁, response, hholds, hslot, hadd⟩ := handlePairings_addRequest
  have hstep : pairingsStep sixteenSlots (firstPairing, fun _ => readySession 0) addRequest =
      .ok ((s₁, fun _ => readySession 0), response) := by
    have hstep := @pairingsStep_ok sixteenSlots (firstPairing, fun _ => readySession 0) addRequest _ _ _ hadd
    rwa [Function.update_eq_self] at hstep
  have hactions : absActions (pairingsStep sixteenSlots) (registryRequest sixteenSlots) (firstPairing, fun _ => readySession 0)
      [addRequest, listRequest] =
      [(some firstController.1, .add secondController.1 secondController.2.1 false), (some firstController.1, .list)] := by
    have hwho : ∀ {s t}, HoldsPairings s t → t 0 = some firstController → identifierAt s 0 = some firstController.1 := by
      intro s t hs ht
      rw [identifierAt_eq hs, ht]
      rfl
    rw [absActions_cons_ok hstep, absActions_singleton, registryRequest, registryRequest, ofText_addRequest, ofText_listRequest]
    change [(identifierAt firstPairing 0, _), (identifierAt s₁ 0, _)] = _
    rw [hwho holds_firstPairing.1 rfl, hwho hholds hslot]
  have hrun := pairings_run sixteenSlots (fun _ => 0) _ _ serves_firstPairing [addRequest, listRequest] fun a ha x => by
    rcases List.mem_cons.mp ha with rfl | ha
    · rfl
    · rw [List.mem_singleton.mp ha]
      rfl
  rw [hactions] at hrun
  change Matches _ _ _ (run (registryStep 16) _ _) at hrun
  rw [registry_addList] at hrun
  rcases hr : run (pairingsStep sixteenSlots) (firstPairing, fun _ => readySession 0) [addRequest, listRequest] with e | ⟨s', os⟩ <;>
    rw [hr] at hrun
  · exact False.elim hrun
  · obtain ⟨hserves, hos⟩ := hrun
    rcases hos with _ | ⟨hdone, hos⟩
    rcases hos with _ | ⟨hlisting, hos⟩
    cases hos
    exact ⟨s', _, _, rfl, hserves, hdone, hlisting⟩

end CGuard
