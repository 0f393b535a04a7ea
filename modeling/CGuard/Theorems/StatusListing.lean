import CGuard.Lemmas.Listing
import CGuard.Theorems.AclRefinement

/-!
# The status listing determines the access control list

The listing of `CM_GetChannelStatus` is read back: no credential, whatever its bytes, makes a listing that another state prints too.
-/

namespace CGuard

open RecordText Machine

/-- A credential of these bytes, if there are as many as a credential has. -/
def TypeAuthorizationData.ofBytes (bs : List UInt8) : Option TypeAuthorizationData :=
  if h : bs.length = authorizationDataLength then some ⟨bs, h⟩ else none

/-- A reader of the listing: whether the HomeKit channel is enabled, and the credentials of each right. -/
def readStatus (listing : List UInt8) : Bool × AclStore :=
  let enabled := (statusLine true).isPrefixOf listing
  let lists := readSections tab authorizationDataLength ((List.finRange rightNum).map rightHeading)
    (listing.drop (statusLine enabled).length)
  (enabled, fun r => (lists.getD r.val []).filterMap TypeAuthorizationData.ofBytes)

namespace StatusListingAux

@[simp] theorem ofBytes_bytes (ad : TypeAuthorizationData) : TypeAuthorizationData.ofBytes ad.bytes = some ad := by
  simp only [TypeAuthorizationData.ofBytes, ad.length_eq, dif_pos]

/-- The credentials of a section, read back. -/
theorem filterMap_ofBytes (ads : List TypeAuthorizationData) :
    (ads.map TypeAuthorizationData.bytes).filterMap TypeAuthorizationData.ofBytes = ads := by
  rw [List.filterMap_map]
  exact (List.filterMap_congr fun ad _ => ofBytes_bytes ad).trans (List.filterMap_some)

/-- The first line says whether the channel is enabled. -/
theorem statusLine_isPrefixOf (enabled : Bool) (rest : List UInt8) :
    (statusLine true).isPrefixOf (statusLine enabled ++ rest) = enabled := by
  cases enabled with
  | true => exact List.isPrefixOf_iff_prefix.mpr (List.prefix_append _ _)
  | false => rfl

/-- No heading can be taken for the line of a credential. -/
theorem isHeading_rightHeading (r : Fin rightNum) : IsHeading tab (rightHeading r) := ⟨65, rfl, by decide⟩

/-- The sections of a listing, read back. -/
theorem readSections_statusSections (σ : AclStore) :
    readSections tab authorizationDataLength ((List.finRange rightNum).map rightHeading) (text tab lineFeed (statusSections σ)) =
      (List.finRange rightNum).map fun r => (σ r).map TypeAuthorizationData.bytes := by
  have hheading : ∀ s ∈ statusSections σ, IsHeading tab s.1 := by
    intro s hs
    obtain ⟨r, -, rfl⟩ := List.mem_map.mp hs
    exact isHeading_rightHeading r
  have hrecords : ∀ s ∈ statusSections σ, ∀ record ∈ s.2, record.length = authorizationDataLength := by
    intro s hs record hrecord
    obtain ⟨r, -, rfl⟩ := List.mem_map.mp hs
    obtain ⟨ad, -, rfl⟩ := List.mem_map.mp hrecord
    exact ad.length_eq
  have hread := @readSections_text _ _ tab lineFeed authorizationDataLength _ hheading hrecords
  simpa only [statusSections, List.map_map, Function.comp_def] using hread

/-- Reading a listing gives back what it was printed from. -/
theorem readStatus_statusText (enabled : Bool) (σ : AclStore) : readStatus (statusText enabled σ) = (enabled, σ) := by
  simp only [readStatus, statusText, statusLine_isPrefixOf, List.drop_left, readSections_statusSections, Prod.mk.injEq, true_and]
  funext r
  have hget : (((List.finRange rightNum).map fun r => (σ r).map TypeAuthorizationData.bytes).getD r.val []) =
      (σ r).map TypeAuthorizationData.bytes := by
    rw [List.getD_eq_getElem?_getD, List.getElem?_map, List.getElem?_eq_getElem (by simp)]
    simp
  rw [hget, filterMap_ofBytes]

end StatusListingAux

open StatusListingAux

/-- For every two values of the flag and every two states that appends and deletes reach, with any bytes in their credentials:
`CM_GetChannelStatus` prints a listing from which the flag and the lists are read back, and if it prints the same for both, the flags are
equal and every right has the same credentials, the same number of times and in the same order. -/
theorem status_determines_acl (d d' : Device) (hd : d.acl.Reachable) (hd' : d'.acl.Reachable) :
    (∃ listing, cmGetChannelStatus d = .ok listing ∧ readStatus listing = (d.gisHomeKitEnabled, d.acl.store)) ∧
      (cmGetChannelStatus d = cmGetChannelStatus d' →
        d.gisHomeKitEnabled = d'.gisHomeKitEnabled ∧ ∀ r, d.acl.store r = d'.acl.store r) := by
  have h := cmGetChannelStatus_eq hd.represents
  have h' := cmGetChannelStatus_eq hd'.represents
  refine ⟨⟨_, h, readStatus_statusText _ _⟩, fun heq => ?_⟩
  rw [h, h', Except.ok.injEq] at heq
  have hread := congrArg readStatus heq
  rw [readStatus_statusText, readStatus_statusText, Prod.mk.injEq] at hread
  exact ⟨hread.1, fun r => congrFun hread.2 r⟩

/-- A credential whose bytes are a line feed and the heading of the other right, and one of tabs. -/
def headingCredential : TypeAuthorizationData where
  bytes := lineFeed :: rightHeading writeRight ++ List.replicate 8 tab
  length_eq := rfl

/-- Two devices of which one holds a crafted credential for reading, and the other the credential of NULs for writing. -/
theorem status_determines_acl_crafted :
    ∃ s s', run aclStep (initSecurityEnforcement Acl.start) [.append (some headingCredential) 0 (some 3)] = .ok (s, [0]) ∧
      run aclStep (initSecurityEnforcement Acl.start) [.append (some (.uniform 0)) 1 (some 5)] = .ok (s', [0]) ∧
      ∃ listing, cmGetChannelStatus { Device.start none with acl := s } = .ok listing ∧
        readStatus listing = (false, s.store) :=
  ⟨_, _, rfl, rfl, (status_determines_acl { Device.start none with acl := _ } { Device.start none with acl := _ }
    ⟨[.append (some headingCredential) 0 (some 3)], [0], rfl⟩ ⟨[.append (some (.uniform 0)) 1 (some 5)], [0], rfl⟩).1⟩

end CGuard
