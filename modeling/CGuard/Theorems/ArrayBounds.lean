import CGuard.Lemmas.RightsText
import CGuard.Theorems.Undecodable

/-!
# The bounds of the rights array

The block behind `rightArray` has as many bytes as the count says, and each of as many entries takes two. The accesses of
`get_ad_rightArray`, `add_ACL_records` and `remove_ACL_records` in their order, and when all of them are in bounds.
-/

namespace CGuard

open CString

/-- `sizeof(typeRight)`. -/
def sizeofTypeRight : Nat := 2

/-- An access: `atoi` of what `strtok` answered, a store to an entry of `rightArray`, or a load of one. -/
inductive RightAccess where
  | atoi (token : Option (List UInt8))
  | store (i : Nat)
  | load (i : Nat)

/-- `atoi` is applied to a text, and an entry lies inside the block. -/
def RightAccess.InBounds (block : Option Nat) : RightAccess → Prop
  | .atoi token => token ≠ none
  | .store i | .load i => ∃ size, block = some size ∧ (i + 1) * sizeofTypeRight ≤ size

/-- The accesses of the `for` of `get_ad_rightArray`. A store goes on whatever it hits; `atoi` of null does not. -/
def parseAccesses : (n i : Nat) → Option (List UInt8) → List UInt8 → List RightAccess
  | 0, _, _, _ => []
  | _ + 1, _, none, _ => [.atoi none]
  | n + 1, i, some token, text =>
    let next := strtok rightDelimiter text
    .atoi (some token) :: .store i :: parseAccesses n (i + 1) next.1 next.2

/-- What `sscanf` reads, if it reads a number. -/
def announcedCount (payload : List UInt8) : Option Int := (cstring (payload.drop rightsOffset)).bind sscanfInt

/-- The count that the handler goes on with. -/
def numberofRights (payload : List UInt8) : Int := (announcedCount payload).getD 0

/-- The accesses of an `A` or `a` command: those of the parser, and a load for each call. -/
def commandAccesses (env : HandlerEnv) (payload : List UInt8) (d : Device) : List RightAccess :=
  let text := (cstring (payload.drop rightsOffset)).getD []
  let first := strtok rightDelimiter (strtok rightDelimiter text).2
  parseAccesses (numberofRights payload).toNat 0 first.1 first.2 ++
    (List.range (iotSubscribeCallbackHandler env payload d).calls.length).map .load

/-- `malloc` answers null, or a block of exactly as many bytes as it is asked for, as a `size_t`. -/
def HandlerEnv.MallocExact (env : HandlerEnv) : Prop := ∀ n size, env.rightBlock n = some size → (size : Int) = n % 2 ^ 64

namespace ArrayBoundsAux

/-- The loop of the model goes on exactly as long as its accesses are in bounds. -/
theorem rightLoop_isSome_iff (block : Option Nat) (n : Nat) :
    ∀ (i : Nat) (rightSplit : Option (List UInt8)) (text : List UInt8),
      (rightLoop block n i rightSplit text).toOption.isSome ↔ ∀ a ∈ parseAccesses n i rightSplit text, a.InBounds block := by
  induction n with
  | zero => intro i rightSplit text; simp [rightLoop, parseAccesses, Except.toOption]
  | succ n ih =>
    intro i rightSplit text
    cases rightSplit with
    | none => simp [rightLoop, parseAccesses, Except.toOption, RightAccess.InBounds]
    | some token =>
      simp only [parseAccesses, List.forall_mem_cons, ← ih]
      cases block with
      | none => simp [rightLoop, Except.toOption, RightAccess.InBounds]
      | some size =>
        rw [rightLoop_succ]
        simp only [RightAccess.InBounds, sizeofTypeRight, Option.some.injEq, exists_eq_left', ne_eq, reduceCtorEq, not_false_eq_true,
          true_and, Nat.mul_comm _ 2]
        split_ifs with hfits
        · simp [hfits]
        · simp [hfits]

/-- Of an announced count, the parser stays in bounds only if it is not positive. -/
theorem count_nonpos {env : HandlerEnv} (hmalloc : env.MallocExact) {payload : List UInt8}
    (h : ∀ a ∈ parseAccesses (numberofRights payload).toNat 0
      (strtok rightDelimiter (strtok rightDelimiter ((cstring (payload.drop rightsOffset)).getD [])).2).1
      (strtok rightDelimiter (strtok rightDelimiter ((cstring (payload.drop rightsOffset)).getD [])).2).2,
      a.InBounds (env.rightBlock (numberofRights payload))) : numberofRights payload ≤ 0 := by
  generalize (strtok rightDelimiter ((cstring (payload.drop rightsOffset)).getD [])).2 = text at h
  rw [← rightLoop_isSome_iff, rightLoop_toOption _ _ 0 _ _ (@strtok_none rightDelimiter text)] at h
  split_ifs at h with hread
  · obtain ⟨-, hzero | hroom⟩ := hread
    · omega
    · -- a block of exactly the count has no room for twice as much
      unfold hasRoom at hroom
      cases hsize : env.rightBlock (numberofRights payload) with
      | none =>
        rw [hsize] at hroom
        cases hroom
      | some size =>
        have hexact := hmalloc _ size hsize
        simp only [hsize, Option.any_some, decide_eq_true_eq] at hroom
        omega
  · simp at h

/-- A command without rights makes no call. -/
theorem calls_of_nonpos (env : HandlerEnv) {payload : List UInt8} (d : Device) (hcmd : isAclCommand payload)
    (h : numberofRights payload ≤ 0) : (iotSubscribeCallbackHandler env payload d).calls = [] := by
  obtain ⟨call, -, record, hrun, -⟩ := handler_records env d hcmd
  rw [hrun, aclCommand_calls, aclArguments_toOption]
  unfold numberofRights announcedCount at h
  cases htext : cstring (payload.drop rightsOffset) with
  | none => rfl
  | some text =>
    rw [htext, Option.bind_some, sscanfInt_getD] at h
    rw [Option.bind_some, commandRights_of_nonpos h]
    cases strncpy base64AuthorizationDataLength (payload.drop adOffset) with
    | none => rfl
    | some field => rfl

end ArrayBoundsAux

open ArrayBoundsAux

/-- For every `A` or `a` payload, on every device, with a `malloc` that answers null or a block of exactly as many bytes as it is asked for:
every access is in bounds if and only if `sscanf` reads no number, or one that is not positive. -/
theorem rights_in_bounds_iff (env : HandlerEnv) (hmalloc : env.MallocExact) (payload : List UInt8) (hcmd : isAclCommand payload)
    (d : Device) :
    (∀ a ∈ commandAccesses env payload d, a.InBounds (env.rightBlock (numberofRights payload))) ↔
      ∀ n, announcedCount payload = some n → n ≤ 0 := by
  constructor
  · intro h n hn
    have hnonpos := count_nonpos hmalloc fun a ha => h a (List.mem_append_left _ ha)
    rwa [numberofRights, hn] at hnonpos
  · intro h a ha
    have hnonpos : numberofRights payload ≤ 0 := by
      unfold numberofRights
      cases hcount : announcedCount payload with
      | none => exact Int.le_refl 0
      | some n => exact h n hcount
    have hzero : (numberofRights payload).toNat = 0 := by omega
    simp only [commandAccesses, hzero, parseAccesses, calls_of_nonpos env d hcmd hnonpos, List.length_nil, List.range_zero,
      List.map_nil, List.append_nil, List.not_mem_nil] at ha

/-- An environment whose `malloc` gives exactly what it is asked for, and null for what no `size_t` is. -/
def HandlerEnv.exact : HandlerEnv where
  __ := HandlerEnv.plain 1
  rightBlock n := if 0 ≤ n ∧ n < 2 ^ 64 then some n.toNat else none
  rightBlock_ge n k h := by
    split_ifs at h
    cases h
    omega

theorem HandlerEnv.exact_mallocExact : HandlerEnv.exact.MallocExact := by
  intro n size h
  simp only [HandlerEnv.exact] at h
  split_ifs at h with hn
  cases h
  omega

/-- A list of no rights. -/
theorem rights_in_bounds_none :
    announcedCount (aclPayload "A" base64OfZeros "0") = some 0 ∧
      ∀ a ∈ commandAccesses .exact (aclPayload "A" base64OfZeros "0") (Device.start none),
        a.InBounds (HandlerEnv.exact.rightBlock (numberofRights (aclPayload "A" base64OfZeros "0"))) := by
  have hcount : announcedCount (aclPayload "A" base64OfZeros "0") = some 0 := by decide
  refine ⟨hcount, (rights_in_bounds_iff .exact HandlerEnv.exact_mallocExact _ (Or.inl rfl) _).mpr fun n hn => ?_⟩
  cases hcount.symm.trans hn
  exact Int.le_refl 0

/-- A list of one right, which is well formed: two bytes are stored in a block of one. A list that announces two rights and has one:
`atoi` is applied to null. -/
theorem rights_in_bounds_not :
    let payload := aclPayload "A" base64OfZeros "1 1"
    let short := aclPayload "A" base64OfZeros "2 1"
    announcedCount payload = some 1 ∧ HandlerEnv.exact.rightBlock (numberofRights payload) = some 1 ∧
      .store 0 ∈ commandAccesses .exact payload (Device.start none) ∧ ¬ (RightAccess.store 0).InBounds (some 1) ∧
      .atoi none ∈ commandAccesses .exact short (Device.start none) ∧ ¬ (RightAccess.atoi none).InBounds (some 2) := by
  intro payload short
  have hstore : ∀ token rest, RightAccess.store 0 ∈ RightAccess.atoi token :: .store 0 :: rest :=
    fun token rest => List.mem_cons_of_mem _ List.mem_cons_self
  have hnull : ∀ token i rest, RightAccess.atoi none ∈ RightAccess.atoi token :: .store i :: .atoi none :: rest :=
    fun token i rest => List.mem_cons_of_mem _ (List.mem_cons_of_mem _ List.mem_cons_self)
  refine ⟨by decide, by decide, hstore _ _, ?_, hnull _ _ _, ?_⟩
  · rintro ⟨size, hsize, hfits⟩
    cases hsize
    exact absurd hfits (by decide)
  · exact fun h => h rfl

end CGuard
