import CGuard.Theorems.PairingRegistry
import CGuard.Lemmas.WrittenTLVs

/-!
# What the pairings keep whatever the disk does

The disk may fail at any access of a request. A run that returns has still left a registry (no identifier in two slots, no slot that is
not there), only administrators have changed it, and it is not without an administrator while it has pairings, unless the disk has failed
while the pairings were being removed. A listing can be read back.
-/

namespace CGuard

open Machine SlotTable PairingsAux PairingRegistryAux

/-- Some controller is an administrator, or there is none. -/
def PairingRegistry.Governed (m : PairingRegistry) : Prop := m.HasAdmin ∨ m = ∅

/-- The requests are not those of administrators. -/
def Unprivileged (m : PairingRegistry) (slots : Nat → UInt8) (s : Store) (as : List PairingsAction) : Prop :=
  ∀ a ∈ as, ∀ id key, m.lookup id = some (key, true) → identifierAt s (slots a.session) ≠ some id

namespace PairingSafetyAux

variable {t t' : PairingTable} {m : PairingRegistry} {w : Disk} {maxPairings : UInt8}

/-- A registry that has been cleaned is governed. -/
theorem governed_clean (m : PairingRegistry) : m.clean.Governed := by
  rw [PairingRegistry.clean]
  split_ifs with hadmin
  · exact Or.inl hadmin
  · exact Or.inr rfl

/-- A table is a registry within the slots, which is governed if the condition holds. -/
def Safe (maxPairings : UInt8) (t : PairingTable) (condition : Prop) : Prop :=
  ∃ m : PairingRegistry, Tabulates t m ∧ t.Within maxPairings ∧ (condition → m.Governed)

/-- A cleanup that was completed. -/
theorem safe_cleaned {condition : Prop} (h : Tabulates t m) (hw : t.Within maxPairings) (hc : Cleaned t t') : Safe maxPairings t' condition :=
  ⟨_, tabulates_clean h hc, within_sub hw (cleaned_sub hc), fun _ => governed_clean m⟩

/-- A cleanup that has failed. -/
theorem safe_notCleaned (h : Tabulates t m) (hw : t.Within maxPairings) (hsub : SubTable t' t) (hc : Cleaned t t' ∨ w.CleanupFailing) :
    Safe maxPairings t' ¬w.CleanupFailing := by
  rcases hc with hcleaned | hfail
  · exact safe_cleaned h hw hcleaned
  · obtain ⟨m', h'⟩ := h.part hsub fun key _ => DirectoryOrder.ascending.2.2 key
    exact ⟨m', h', within_sub hw hsub, fun hok => absurd hfail hok⟩

/-- A table with an administrator is left as it is. -/
theorem safe_refl (h : Tabulates t m) (hw : t.Within maxPairings) {slot : UInt8} (hadmin : isAdminSlot t slot) {condition : Prop} :
    Safe maxPairings t condition :=
  ⟨m, h, hw, fun _ => Or.inl ((exists_admin_iff h).mp ⟨slot, hadmin⟩)⟩

/-- Whatever adding a pairing does, it leaves a registry. -/
theorem safe_add (h : Tabulates t m) (hw : t.Within maxPairings) {slot : UInt8} (hadmin : isAdminSlot t slot) {id : PairingIdentifier}
    {key : PairingPublicKey} {admin : Bool} {error : UInt8} (heffect : AddEffect w maxPairings t id key admin error t') :
    Safe maxPairings t' ¬w.CleanupFailing := by
  have hput : ∀ {at_ : UInt8} {was : Bool}, t at_ = some (id, key, was) →
      Tabulates (Function.update t at_ (some (id, key, admin))) (m.insert id (key, admin)) ∧
        PairingTable.Within (Function.update t at_ (some (id, key, admin))) maxPairings := by
    intro at_ was hk
    refine ⟨h.put (key, admin) (fun e he => ?_) fun k' v' hk' => h.unique hk' hk, within_update hw (hw at_ (by rw [hk]; rfl)) _⟩
    rw [hk] at he
    cases he
    rfl
  have hnew : ∀ {free : UInt8}, Absent t id → free ∈ pairingSlots maxPairings → t free = none →
      Safe maxPairings (Function.update t free (some (id, key, admin))) ¬w.CleanupFailing := by
    intro free habsent hin hfree
    refine ⟨_, h.put (k := free) (key, admin) (fun e he => by rw [hfree] at he; cases he) fun k' v' hk' => absurd hk' (habsent k' v'),
      within_update hw hin _, fun _ => Or.inl ?_⟩
    -- The administrator of the session is still there.
    obtain ⟨who, key', hwho⟩ := isAdminSlot_iff.mp hadmin
    refine ⟨who, key', ?_⟩
    rw [Finmap.lookup_insert_of_ne _ (fun heq => habsent slot (key', true) (by rw [hwho, heq])), h.lookup_of_slot hwho]
  cases heffect with
  | otherKey hk hne => exact safe_refl h hw hadmin
  | updated hk hcleaned => exact safe_cleaned (hput hk).1 (hput hk).2 hcleaned
  | notCleaned hk hfail hsub hcleanup => exact safe_notCleaned (hput hk).1 (hput hk).2 hsub hcleanup
  | full habsent hall => exact safe_refl h hw hadmin
  | added habsent hin hfree => exact hnew habsent hin hfree
  | notStored hfail => exact safe_refl h hw hadmin
  | storedUnsaid hfail habsent hin hfree => exact hnew habsent hin hfree

/-- Whatever removing a pairing does, it leaves a registry. -/
theorem safe_remove (h : Tabulates t m) (hw : t.Within maxPairings) {slot : UInt8} (hadmin : isAdminSlot t slot) {id : PairingIdentifier}
    {error : UInt8} (heffect : RemoveEffect w t id error t') : Safe maxPairings t' ¬w.CleanupFailing := by
  have herase : ∀ {at_ : UInt8} {c : Controller}, t at_ = some (id, c) →
      PairingTable.Within (Function.update t at_ none) maxPairings :=
    fun hk => within_update hw (hw _ (by rw [hk]; rfl)) _
  cases heffect with
  | absent habsent => exact safe_refl h hw hadmin
  | removed hk hcleaned => exact safe_cleaned (h.erase hk) (herase hk) hcleaned
  | notCleaned hk hfail hsub hcleanup => exact safe_notCleaned (h.erase hk) (herase hk) hsub hcleanup
  | notRemoved hfail => exact safe_refl h hw hadmin

/-- A request of an administrator leaves a registry, and no other request changes the table. -/
theorem request_safe (h : Tabulates t m) (hw : t.Within maxPairings) {slot : UInt8} {request : PairingsRequest} {answer : PairingsAnswer}
    (heffect : RequestEffect w maxPairings t slot request answer t') :
    t' = t ∨ isAdminSlot t slot ∧ Safe maxPairings t' ¬w.CleanupFailing := by
  cases heffect with
  | unreadable => exact Or.inl rfl
  | notAdmin hreadable he hno => exact Or.inl rfl
  | incomplete hadmin => exact Or.inl rfl
  | addFailed hadmin hadd herror => exact Or.inr ⟨hadmin, safe_add h hw hadmin hadd⟩
  | addDone hadmin hadd hstill => exact Or.inr ⟨hadmin, safe_add h hw hadmin hadd⟩
  | addDemoted hadmin hadd he hno => exact Or.inr ⟨hadmin, safe_add h hw hadmin hadd⟩
  | removed hadmin hremove => exact Or.inr ⟨hadmin, safe_remove h hw hadmin hremove⟩
  | listed hadmin => exact Or.inl rfl

/-- What a run keeps: the sessions, a registry in the slots that there are, governed if `reliable`, and the table itself if `quiet`. -/
structure KeepsTable (cfg : PairingsConfig) (slots : Nat → UInt8) (t : PairingTable) (quiet reliable : Prop)
    (s : Store × (Nat → HAPSession)) (t' : PairingTable) : Prop where
  holds : HoldsPairings s.1 t'
  sessions : s.2 = fun i => readySession (slots i)
  safe : Safe cfg.maxPairings t' reliable
  unchanged : quiet → t' = t

/-- One request, whatever the disk answers. -/
theorem pairingsStep_keeps (cfg : PairingsConfig) (slots : Nat → UInt8) {quiet reliable : Prop} {s s' : Store × (Nat → HAPSession)}
    {t t₀ : PairingTable} {a : PairingsAction} {o : PairingsResponse} (hkeeps : KeepsTable cfg slots t₀ quiet reliable s t)
    (hreliable : reliable → ¬a.disk.CleanupFailing) (hquiet : quiet → isAdminSlot t₀ (slots a.session) = false)
    (hstep : pairingsStep cfg s a = .ok (s', o)) : ∃ t', KeepsTable cfg slots t₀ quiet reliable s' t' := by
  obtain ⟨store, sessions⟩ := s
  obtain ⟨hholds, hsessions, ⟨m, hrep, hw, hgoverned⟩, hunchanged⟩ := hkeeps
  obtain rfl : sessions = fun i => readySession (slots i) := hsessions
  have hstay : Function.update (fun i => readySession (slots i)) a.session (readySession (slots a.session)) = fun i => readySession (slots i) :=
    Function.update_eq_self a.session _
  rw [pairingsStep] at hstep
  rcases @handlePairings_served a.disk cfg.maxPairings store t hholds (slots a.session) (a.content cfg) with
    ⟨-, hrun⟩ | ⟨answer, s₁, t₁, hholds₁, heffect, hrun⟩
  · rw [hrun] at hstep
    cases hstep
  · rw [hrun] at hstep
    cases hstep
    refine ⟨t₁, hholds₁, hstay, ?_, fun hq => ?_⟩
    · rcases request_safe hrep hw heffect with rfl | ⟨-, m', hrep', hw', hgoverned'⟩
      · exact ⟨m, hrep, hw, hgoverned⟩
      · exact ⟨m', hrep', hw', fun hr => hgoverned' (hreliable hr)⟩
    · rcases request_safe hrep hw heffect with rfl | ⟨hadmin, -⟩
      · exact hunchanged hq
      · rw [hunchanged hq, hquiet hq] at hadmin
        cases hadmin

end PairingSafetyAux

open PairingSafetyAux

/-- Whatever the disk answers, in every run that returns: the store holds a registry, in the slots that there are, and the sessions are
ready for further requests; if none of the requests is one of an administrator, the registry is the same; and if the disk has not failed
during a cleanup, the registry still has an administrator or is empty. -/
theorem pairings_safe (cfg : PairingsConfig) (slots : Nat → UInt8) {s s' : Store × (Nat → HAPSession)} {m : PairingRegistry}
    {as : List PairingsAction} {os : List PairingsResponse} (hR : ServesRegistry cfg slots s m)
    (hrun : run (pairingsStep cfg) s as = .ok (s', os)) :
    ∃ m' : PairingRegistry, ServesRegistry cfg slots s' m' ∧ (Unprivileged m slots s.1 as → m' = m) ∧
      (m.Governed → (∀ a ∈ as, ¬a.disk.CleanupFailing) → m'.Governed) := by
  obtain ⟨⟨t, hholds, hrep, hw⟩, hsessions⟩ := hR
  have hquiet : ∀ a ∈ as, Unprivileged m slots s.1 as → isAdminSlot t (slots a.session) = false := by
    intro a ha hq
    cases hslot : isAdminSlot t (slots a.session) with
    | false => rfl
    | true =>
      obtain ⟨id, key, hid⟩ := isAdminSlot_iff.mp hslot
      refine absurd ?_ (hq a ha id key (hrep.lookup_of_slot hid))
      rw [identifierAt_eq hholds, hid]
      rfl
  have hstep : ∀ s₁ a s₂ o, (∃ t₁, KeepsTable cfg slots t (Unprivileged m slots s.1 as) (m.Governed ∧ ∀ a ∈ as, ¬a.disk.CleanupFailing) s₁ t₁) →
      a ∈ as → pairingsStep cfg s₁ a = .ok (s₂, o) →
      ∃ t₂, KeepsTable cfg slots t (Unprivileged m slots s.1 as) (m.Governed ∧ ∀ a ∈ as, ¬a.disk.CleanupFailing) s₂ t₂ :=
    fun s₁ a s₂ o ⟨t₁, hkeeps⟩ ha hrun => pairingsStep_keeps cfg slots hkeeps (fun hr => hr.2 a ha) (hquiet a ha) hrun
  obtain ⟨t', hholds', hsessions', ⟨m', hrep', hw', hgoverned'⟩, hunchanged⟩ := run_invariant_of_guarded hstep
    ⟨t, hholds, hsessions, ⟨m, hrep, hw, fun hr => hr.1⟩, fun _ => rfl⟩ (guarded_of_forall (fun _ a ha => ha) s) hrun
  refine ⟨m', ⟨⟨t', hholds', hrep', hw'⟩, hsessions'⟩, fun hq => ?_, fun hg hdisk => hgoverned' ⟨hg, hdisk⟩⟩
  rw [hunchanged hq] at hrep'
  exact hrep'.ext hrep

/-- The first controller lists the pairings, and is still the administrator. -/
theorem pairings_safe_list :
    ∃ s' os, run (pairingsStep sixteenSlots) (firstPairing, fun _ => readySession 0) [listRequest] = .ok (s', os) ∧
      ∃ m' : PairingRegistry, ServesRegistry sixteenSlots (fun _ => 0) s' m' ∧ m'.Governed := by
  obtain ⟨s', os, hrun⟩ : ∃ s' os, run (pairingsStep sixteenSlots) (firstPairing, fun _ => readySession 0) [listRequest] = .ok (s', os) := by
    have hserved := @handlePairings_served .reliable 16 _ _ holds_firstPairing.1 0 (listRequest.content sixteenSlots)
    rw [ofText_listRequest] at hserved
    rcases hserved with ⟨hfault, -⟩ | ⟨answer, s₁, t₁, -, -, hrun⟩
    · exfalso
      cases hfault with
      | disk hfail => exact reliable_answers hfail
      | gone hreadable hnone => cases hnone
    · refine ⟨(s₁, Function.update (fun _ => readySession 0) 0 (readySession 0)), [answer.response.fit 32768], ?_⟩
      have hstep : pairingsStep sixteenSlots (firstPairing, fun _ => readySession 0) listRequest =
          .ok ((s₁, Function.update (fun _ => readySession 0) 0 (readySession 0)), answer.response.fit 32768) := by
        exact pairingsStep_ok hrun
      rw [run, hstep]
      rfl
  refine ⟨s', os, hrun, ?_⟩
  obtain ⟨m', hserves, -, hgoverned⟩ := pairings_safe sixteenSlots (fun _ => 0) serves_firstPairing hrun
  refine ⟨m', hserves, hgoverned (Or.inl ⟨firstController.1, firstController.2.1, Finmap.lookup_insert _⟩) fun a ha => ?_⟩
  rw [List.mem_singleton.mp ha]
  rintro ⟨x, -, hx⟩
  cases hx

/-! ## Listings -/

namespace PairingSafetyAux

/-- The TLVs of an entry. -/
theorem tlvs_ofEntry (e : PairingIdentifier × Controller) :
    (HAPPairing.ofEntry e).tlvs = [(kHAPPairingTLVTypeIdentifier, e.1.1), (kHAPPairingTLVTypePublicKey, e.2.1.1),
      (kHAPPairingTLVTypePermissions, [permissionByte e.2.2])] := by
  rw [HAPPairing.tlvs, take_identifier]
  rfl

/-- The byte of permissions tells whether a controller is an administrator. -/
theorem permissionByte_inj {admin admin' : Bool} (h : permissionByte admin = permissionByte admin') : admin = admin' := by
  cases admin <;> cases admin' <;> first | rfl | exact absurd h (by decide)

/-- No TLV of a listing follows one of its own type; it begins with an identifier, or with a separator. -/
theorem separated_listing : ∀ (needsSeparator : Bool) (es : List (PairingIdentifier × Controller)) (first : UInt8 × List UInt8),
    first.1 ≠ kHAPPairingTLVTypeSeparator → (needsSeparator = false → first.1 ≠ kHAPPairingTLVTypeIdentifier) →
    Separated (first :: listingTLVs needsSeparator es) := by
  intro needsSeparator es
  induction es generalizing needsSeparator with
  | nil =>
    intro first _ _
    rw [listingTLVs, Separated]
    exact List.isChain_singleton _
  | cons e es ih =>
    intro first hsep hid
    have hrest := ih true (kHAPPairingTLVTypePermissions, [permissionByte e.2.2]) (by simp; decide) (by simp)
    rw [Separated] at hrest ⊢
    rw [listingTLVs, tlvs_ofEntry]
    cases needsSeparator with
    | false =>
      simp only [Bool.false_eq_true, if_false, List.nil_append, List.cons_append, List.map_cons, List.isChain_cons_cons] at hrest ⊢
      exact ⟨hid rfl, by decide, by decide, hrest⟩
    | true =>
      simp only [if_true, List.nil_append, List.cons_append, List.map_cons, List.isChain_cons_cons] at hrest ⊢
      exact ⟨hsep, by decide, by decide, by decide, hrest⟩

/-- A listing is the TLVs of its entries in one way. -/
theorem listingTLVs_inj : ∀ {needsSeparator : Bool} {es es' : List (PairingIdentifier × Controller)},
    listingTLVs needsSeparator es = listingTLVs needsSeparator es' → es = es' := by
  intro needsSeparator es
  induction es generalizing needsSeparator with
  | nil =>
    intro es' h
    rcases es' with _ | ⟨e', es'⟩
    · rfl
    · rw [listingTLVs, listingTLVs, tlvs_ofEntry] at h
      cases needsSeparator <;> cases h
  | cons e es ih =>
    intro es' h
    rcases es' with _ | ⟨e', es'⟩
    · rw [listingTLVs, listingTLVs, tlvs_ofEntry] at h
      cases needsSeparator <;> cases h
    · rw [listingTLVs, listingTLVs, List.append_assoc, List.append_assoc, List.append_cancel_left_eq, tlvs_ofEntry, tlvs_ofEntry] at h
      simp only [List.cons_append, List.nil_append, List.cons.injEq, Prod.mk.injEq, true_and, and_true] at h
      obtain ⟨hid, hkey, hadmin, hrest⟩ := h
      have heq : e = e' := Prod.ext (Subtype.ext hid) (Prod.ext (Subtype.ext hkey) (permissionByte_inj hadmin))
      rw [heq, ih hrest]

/-- The entries of a registry of the two controllers. -/
theorem mem_controllers {m : PairingRegistry} (h₁ : m.lookup firstController.1 = some firstController.2)
    (h₂ : m.lookup secondController.1 = some secondController.2)
    (hother : ∀ id, id ≠ firstController.1 → id ≠ secondController.1 → m.lookup id = none) (id : PairingIdentifier) (c : Controller) :
    (id, c) ∈ [firstController, secondController] ↔ m.lookup id = some c := by
  have hne : firstController.1 ≠ secondController.1 := by decide
  rw [List.mem_cons, List.mem_singleton]
  by_cases hid₁ : id = firstController.1
  · subst hid₁
    rw [h₁]
    refine ⟨fun hmem => ?_, fun hc => Or.inl (Prod.ext rfl (Option.some.inj hc).symm)⟩
    rcases hmem with heq | heq
    · exact congrArg some (congrArg Prod.snd heq).symm
    · exact absurd (congrArg Prod.fst heq) hne
  · by_cases hid₂ : id = secondController.1
    · subst hid₂
      rw [h₂]
      refine ⟨fun hmem => ?_, fun hc => Or.inr (Prod.ext rfl (Option.some.inj hc).symm)⟩
      rcases hmem with heq | heq
      · exact absurd (congrArg Prod.fst heq) hne.symm
      · exact congrArg some (congrArg Prod.snd heq).symm
    · rw [hother id hid₁ hid₂]
      refine iff_of_false ?_ (by simp)
      rintro (heq | heq)
      · exact hid₁ (congrArg Prod.fst heq)
      · exact hid₂ (congrArg Prod.fst heq)

/-- In no response do two TLVs of one type follow each other. -/
theorem separated_response {answer : PairingsAnswer} {n : Nat} {tlvs : List (UInt8 × List UInt8)} (h : answer.response.fit n = .ok tlvs) :
    (encodeTLVs tlvs).length ≤ n ∧ Separated tlvs := by
  have hfit : ∀ {tlvs'}, (PairingsResponse.ok tlvs').fit n = .ok tlvs → (encodeTLVs tlvs).length ≤ n ∧ tlvs' = tlvs := by
    intro tlvs' h
    rw [PairingsResponse.fit] at h
    split_ifs at h with hfits
    cases h
    exact ⟨hfits, rfl⟩
  cases answer with
  | done =>
    obtain ⟨hfits, rfl⟩ := hfit h
    exact ⟨hfits, by decide⟩
  | failed error =>
    obtain ⟨hfits, rfl⟩ := hfit h
    have hne : kHAPPairingTLVTypeState ≠ kHAPPairingTLVTypeError := by decide
    exact ⟨hfits, List.isChain_pair.mpr hne⟩
  | listing entries =>
    obtain ⟨hfits, rfl⟩ := hfit h
    exact ⟨hfits, separated_listing false entries _ (by decide) fun _ => by decide⟩
  | badRequest => cases h

end PairingSafetyAux

open TlvWriterAux PairingsAux in
/-- The calls of `HAPTLVWriterAppend` that provide the TLVs of a response return, and leave its text in the buffer. -/
theorem pairings_response_written {answer : PairingsAnswer} {n bytes : Nat} {tlvs : List (UInt8 × List UInt8)} {calls : List (Mem × HAPTLV)}
    (h : answer.response.fit n = .ok tlvs) (hprovides : Provides bytes [] calls tlvs) (m : Mem) :
    ∃ m' writer, run writerStep (m, hapTLVWriterCreate bytes n) calls = .ok ((m', writer), tlvs) ∧
      ByteMemory.slice m' bytes writer.numBytes = encodeTLVs tlvs := by
  obtain ⟨hfits, hsep⟩ := separated_response h
  rcases @WrittenTLVs.append_run bytes calls tlvs ⟨n, []⟩ m _ (Wrote.start m bytes n) hprovides hsep with
    ⟨m', writer, hrun, hwrote, -⟩ | ⟨-, writer₁, happend⟩
  · exact ⟨m', writer, hrun, hwrote.text⟩
  · rcases append_new n tlvs with ⟨-, happend'⟩ | ⟨hfull, -⟩
    · rw [happend'] at happend
      cases happend
    · omega

open TlvReaderAux in
/-- The text of a listing names the controllers of one registry only: whoever reads it back knows all pairings. -/
theorem pairings_listing_readBack {n n' : Nat} {m m' : PairingRegistry} {tlvs tlvs' : List (UInt8 × List UInt8)}
    (h : Tells n (.ok tlvs) (.listing m)) (h' : Tells n' (.ok tlvs') (.listing m')) (htext : encodeTLVs tlvs = encodeTLVs tlvs') : m = m' := by
  have hlisting : ∀ {n : Nat} {m : PairingRegistry} {tlvs : List (UInt8 × List UInt8)}, Tells n (.ok tlvs) (.listing m) →
      ∃ es, tlvs = (kHAPPairingTLVTypeState, [2]) :: listingTLVs false es ∧ ∀ id c, (id, c) ∈ es ↔ m.lookup id = some c := by
    rintro n m tlvs ⟨es, hresponse, -, hes⟩
    refine ⟨es, ?_, hes⟩
    rw [PairingsAnswer.response, PairingsResponse.fit] at hresponse
    split_ifs at hresponse with hfits
    exact PairingsResponse.ok.inj hresponse
  obtain ⟨es, rfl, hes⟩ := hlisting h
  obtain ⟨es', rfl, hes'⟩ := hlisting h'
  have hsep : ∀ es, Separated ((kHAPPairingTLVTypeState, [2]) :: listingTLVs false es) :=
    fun es => separated_listing false es _ (by decide) fun _ => by decide
  have hcons := encodeTLVs_inj htext (hsep es) (hsep es')
  rw [List.cons.injEq] at hcons
  obtain rfl := listingTLVs_inj hcons.2
  exact Finmap.ext_lookup fun id => Option.ext fun c => (hes id c).symm.trans (hes' id c)

/-- The listing of the two controllers, whose registry does not depend on which of them was added first. -/
theorem pairings_listing_readBack_two :
    twoControllers = ((∅ : PairingRegistry).insert secondController.1 secondController.2).insert firstController.1 firstController.2 := by
  have hne : firstController.1 ≠ secondController.1 := by decide
  have hfits : (encodeTLVs ((kHAPPairingTLVTypeState, [2]) :: listingTLVs false [firstController, secondController])).length ≤ 84 := by
    simp only [listingTLVs, tlvs_ofEntry, encodeTLVs, Bool.false_eq_true, if_false, if_true, List.nil_append, List.append_nil,
      List.flatMap_cons, List.flatMap_nil, List.cons_append, List.length_append]
    rw [encodeTLV_of_le (by decide), encodeTLV_of_le (by decide), encodeTLV_of_le (by decide), encodeTLV_of_le (by decide),
      encodeTLV_of_le (by decide), encodeTLV_of_le (by decide), encodeTLV_of_le (by decide), encodeTLV_of_le (by decide)]
    decide
  have htells : ∀ m : PairingRegistry, (∀ id c, (id, c) ∈ [firstController, secondController] ↔ m.lookup id = some c) →
      Tells 84 (.ok ((kHAPPairingTLVTypeState, [2]) :: listingTLVs false [firstController, secondController])) (.listing m) := by
    refine fun m hm => ⟨[firstController, secondController], ?_, by decide, hm⟩
    rw [PairingsAnswer.response, PairingsResponse.fit, if_pos hfits]
  refine pairings_listing_readBack (htells _ (mem_controllers ?_ ?_ ?_)) (htells _ (mem_controllers ?_ ?_ ?_)) rfl
  · rw [twoControllers, Finmap.lookup_insert_of_ne _ hne, Finmap.lookup_insert]
  · rw [twoControllers, Finmap.lookup_insert]
  · intro id h₁ h₂
    rw [twoControllers, Finmap.lookup_insert_of_ne _ h₂, Finmap.lookup_insert_of_ne _ h₁, Finmap.lookup_empty]
  · rw [Finmap.lookup_insert]
  · rw [Finmap.lookup_insert_of_ne _ hne.symm, Finmap.lookup_insert]
  · intro id h₁ h₂
    rw [Finmap.lookup_insert_of_ne _ h₁, Finmap.lookup_insert_of_ne _ h₂, Finmap.lookup_empty]

end CGuard
