import CGuard.AwsMain
import CGuard.AclStore
import CGuard.Lib.RecordText

/-!
# What the status listing says

The text of `CM_GetChannelStatus` in terms of the store: the line about the HomeKit channel, then a section for each right, with a
heading and the credentials that hold the right.
-/

namespace CGuard

open LinkedHeap RecordText

/-- The character in front of a credential. -/
def tab : UInt8 := 9

/-- The first line of the listing. -/
def statusLine (enabled : Bool) : List UInt8 :=
  ascii (if enabled then "[CGuard] HomeKit is enabled!\n" else "[CGuard] HomeKit is disabled!\n")

/-- The heading of a right. -/
def rightHeading (r : Fin rightNum) : List UInt8 := ascii "AADs granted Right " ++ ascii (toString r.val) ++ ascii " :\n"

/-- The sections of the listing. -/
def statusSections (σ : AclStore) : List (List UInt8 × List (List UInt8)) :=
  (List.finRange rightNum).map fun r => (rightHeading r, (σ r).map TypeAuthorizationData.bytes)

/-- The listing. -/
def statusText (enabled : Bool) (σ : AclStore) : List UInt8 := statusLine enabled ++ text tab lineFeed (statusSections σ)

/-- The `while` of `CM_GetChannelStatus` along a chain prints a line for each record. -/
theorem listingLoop_eq {h : Heap ACLListNode} {xs : List (Addr × TypeAuthorizationData)} :
    ∀ {fuel : Nat} {p : Option Addr}, Chain ACLListNode.mk h p xs → xs.length ≤ fuel →
      listingLoop h fuel p = .ok (((payloads xs).map TypeAuthorizationData.bytes).flatMap (line tab lineFeed)) := by
  induction xs with
  | nil =>
    intro fuel p hc _
    obtain rfl : p = none := by cases hc; rfl
    cases fuel <;> rfl
  | cons x xs ih =>
    intro fuel p hc hf
    cases hc with
    | cons hl hs =>
      obtain ⟨fuel, rfl⟩ : ∃ k, fuel = k + 1 := ⟨fuel - 1, by simp only [List.length_cons] at hf; omega⟩
      simp only [List.length_cons, Nat.add_le_add_iff_right] at hf
      have htab : ascii "\t" = [tab] := rfl
      have hfeed : ascii "\n" = [lineFeed] := rfl
      simp only [listingLoop, load_of_lookup hl, ih hs hf, bind, Except.bind, htab, hfeed, payloads_cons, List.map_cons,
        List.flatMap_cons, line, List.nil_append, List.cons_append, List.append_assoc]

/-- The text of sections, section by section. -/
theorem text_eq_flatMap {ι : Type} (heading : ι → List UInt8) (records : ι → List (List UInt8)) (is : List ι) :
    text tab lineFeed (is.map fun i => (heading i, records i)) =
      is.flatMap fun i => heading i ++ (records i).flatMap (line tab lineFeed) := by
  induction is with
  | nil => rfl
  | cons i is ih => rw [List.map_cons, text, ih, List.flatMap_cons]

/-- `CM_GetChannelStatus` prints the listing of what the lists hold. -/
theorem cmGetChannelStatus_eq {d : Device} {σ : AclStore} (h : Represents d.acl σ) :
    cmGetChannelStatus d = .ok (statusText d.gisHomeKitEnabled σ) := by
  obtain ⟨ls, hf, hp⟩ := h
  have hlists : ∀ i, listingLoop d.acl.heap d.acl.heap.keys.card (d.acl.gACL i) =
      .ok (((σ i).map TypeAuthorizationData.bytes).flatMap (line tab lineFeed)) := by
    intro i
    rw [listingLoop_eq (hf.chain i) ((hf.chain i).length_le aclListNode_injective), hp i]
  have hmap : ((List.finRange rightNum).mapM fun i => do
      let lines ← listingLoop d.acl.heap d.acl.heap.keys.card (d.acl.gACL i)
      (.ok (ascii "AADs granted Right " ++ ascii (toString i.val) ++ ascii " :\n" ++ lines) : Except Fault (List UInt8))) =
      .ok ((List.finRange rightNum).map fun i =>
        rightHeading i ++ ((σ i).map TypeAuthorizationData.bytes).flatMap (line tab lineFeed)) := by
    simp only [hlists]
    exact List.mapM_pure
  unfold cmGetChannelStatus
  rw [hmap, statusText, statusSections, text_eq_flatMap, List.flatMap_def]
  rfl

end CGuard
