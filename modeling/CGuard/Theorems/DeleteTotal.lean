import CGuard.Lemmas.Records

/-!
# Deleting a record that may not be there

`CC_DeleteACL` compares the first record of a list before it tests that there is one, and its loop tests every record after that. In the
states that appends and deletes reach this is right for the lists that have a record, and wrong for those that have none.
-/

namespace CGuard

open Machine

/-- Deleting a credential from the list of a right goes well: `CC_DeleteACL` returns; if no record matches it returns -1 and the lists
are as before, and an `a` command whose list starts with the right goes through no null or dangling pointer. -/
structure DeletesSafely (s : Acl) (ad : TypeAuthorizationData) (right : TypeRight) (r : Fin rightNum) : Prop where
  returns : ∃ ret s', ccDeleteACL (some ad) right s = .ok (ret, s')
  unknown : ad ∉ s.store r → ccDeleteACL (some ad) right s = .ok (-1, s)
  command : ad ∉ s.store r → ∀ rights f, (removeAclRecords ad (right :: rights) s).2.2 ≠ .fault f

namespace DeleteTotalAux

variable {s : Acl} {ad : TypeAuthorizationData} {right : TypeRight} {r : Fin rightNum}

/-- Nothing is deleted from a list with a record when none matches. -/
theorem ccDeleteACL_unknown (hs : Represents s s.store) (hr : rightIndex right = some r) (hne : s.gACL r ≠ none)
    (hn : ad ∉ s.store r) : ccDeleteACL (some ad) right s = .ok (-1, s) := by
  obtain ⟨s', hdel, -⟩ := @Represents.delete_in _ _ hs ad _ _ hr hne
  rw [if_neg hn] at hdel
  have hstep : aclStep s (.delete (some ad) right) = .ok (s', -1) := by simp only [aclStep, hdel, Except.map]
  rw [hdel, aclStep_failed hstep (by decide)]

/-- A first entry that is not found ends the process with `exit`. -/
theorem removeAclRecords_unknown (h : ccDeleteACL (some ad) right s = .ok (-1, s)) (rights : List TypeRight) :
    (removeAclRecords ad (right :: rights) s).2.2 = .exit (-1) := by
  simp only [removeAclRecords, recordsLoop, h]
  rfl

end DeleteTotalAux

open DeleteTotalAux

/-- In every state that appends, deletes and checks reach from `InitSecurityEnforcement`, for every credential and every right below
`RIGHT_NUM`: deleting goes well if and only if the list of the right has a record. -/
theorem deletes_safely_iff (s : Acl) (hreach : s.Reachable) (ad : TypeAuthorizationData) (right : TypeRight) (r : Fin rightNum)
    (hr : rightIndex right = some r) : DeletesSafely s ad right r ↔ s.store r ≠ [] := by
  have hs := hreach.represents
  rw [ne_eq, ← hs.head_none_iff r]
  constructor
  · intro h hnone
    obtain ⟨ret, s', hdel⟩ := h.returns
    rw [ccDeleteACL_empty hr hnone] at hdel
    cases hdel
  · intro hne
    obtain ⟨s', hdel, -⟩ := @Represents.delete_in _ _ hs ad _ _ hr hne
    refine ⟨⟨_, s', hdel⟩, ccDeleteACL_unknown hs hr hne, fun hn rights f => ?_⟩
    rw [removeAclRecords_unknown (ccDeleteACL_unknown hs hr hne hn)]
    simp

/-- A list with a record of another credential. -/
theorem deletes_safely_other :
    ∃ s, run aclStep (initSecurityEnforcement Acl.start) [.append (some (.uniform 1)) 0 (some 7)] = .ok (s, [0]) ∧
      s.store ⟨0, by decide⟩ ≠ [] ∧ DeletesSafely s (.uniform 2) 0 ⟨0, by decide⟩ :=
  ⟨_, rfl, by decide, (deletes_safely_iff _ ⟨[.append (some (.uniform 1)) 0 (some 7)], [0], rfl⟩ (.uniform 2) 0 ⟨0, by decide⟩
    rfl).mpr (by decide)⟩

/-- A right that never had a record, and one whose last record has been deleted: the next delete reads through null. -/
theorem deletes_safely_not :
    ∃ s, run aclStep (initSecurityEnforcement Acl.start)
        [.append (some (.uniform 1)) 0 (some 7), .delete (some (.uniform 1)) 0] = .ok (s, [0, 0]) ∧
      (∀ r, s.store r = []) ∧
      ccDeleteACL (some (.uniform 1)) 0 s = .error .nullDereference ∧
      ccDeleteACL (some (.uniform 1)) 1 s = .error .nullDereference ∧
      ¬ DeletesSafely s (.uniform 1) 0 ⟨0, by decide⟩ ∧ ¬ DeletesSafely s (.uniform 1) 1 ⟨1, by decide⟩ := by
  refine ⟨_, rfl, by decide, rfl, rfl, fun h => ?_, fun h => ?_⟩
  · obtain ⟨ret, s', hdel⟩ := h.returns
    cases hdel
  · obtain ⟨ret, s', hdel⟩ := h.returns
    cases hdel

end CGuard
