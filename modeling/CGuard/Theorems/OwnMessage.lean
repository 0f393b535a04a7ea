import CGuard.Lemmas.SettledText
import CGuard.Mqtt
import CGuard.Theorems.Undecodable

/-!
# Commands and their own messages

The handler is given the length of the payload and does not use it: the first byte, the field and the rights list are read from
memory. A packet has the same effect whatever an earlier one left in the receive buffer exactly when what is used of it is inside it.
-/

namespace CGuard

open CString

/-- What the handler uses of a payload is inside it: the first byte, and for an `A` or `a` command also the rights list. -/
def SelfContained (payload : List UInt8) : Prop :=
  payload ≠ [] ∧ (isAclCommand payload → rightsOffset < payload.length ∧ TextSettled (payload.drop rightsOffset))

/-- The packet is a PUBLISH packet with this message, and ends with its payload. -/
structure IsPublish (packet : List UInt8) (msg : PublishMessage) : Prop where
  deserialize : deserializePublish packet.length packet = .ok msg
  ends : msg.payload.length = msg.payloadLen

/-- The calls of the handler for a packet that is received into a buffer, when the memory after the buffer is `beyond`. -/
def packetCalls (subscribed : List UInt8 → Bool) (env : HandlerEnv) (packet before beyond : List UInt8) (d : Device) :
    Option (List Call) :=
  (handlePublish subscribed env before.length (receiveBuffer packet before ++ beyond) d).map (·.calls)

/-- The handler makes the same calls for the packet whatever the receive buffer held before. Memory after the buffer holds a NUL
somewhere, so that every text ends. -/
def DependsOnlyOnPacket (packet : List UInt8) : Prop :=
  ∀ (subscribed : List UInt8 → Bool) (env : HandlerEnv) (before₁ before₂ beyond : List UInt8) (d : Device),
    d.WellFormed → 0 ∈ beyond → packet.length ≤ before₁.length → before₁.length = before₂.length →
    packetCalls subscribed env packet before₁ beyond d = packetCalls subscribed env packet before₂ beyond d

namespace OwnMessageAux

/-! ### The calls of a command -/

/-- The calls of an `A` or `a` command for a credential and some rights. -/
def commandCalls (env : HandlerEnv) (cmd : Option UInt8) (ad : TypeAuthorizationData) (s : Acl) (rights : List TypeRight) :
    List Call :=
  if cmd = some 'A'.toUInt8 then (addAclRecords env ad rights s).2.1 else (removeAclRecords ad rights s).2.1

theorem commandCalls_nil (env : HandlerEnv) (cmd : Option UInt8) (ad : TypeAuthorizationData) (s : Acl) :
    commandCalls env cmd ad s [] = [] := by
  unfold commandCalls
  split_ifs <;> rfl

theorem commandCalls_ne_nil (env : HandlerEnv) (cmd : Option UInt8) (ad : TypeAuthorizationData) (s : Acl)
    {rights : List TypeRight} (h : rights ≠ []) : commandCalls env cmd ad s rights ≠ [] := by
  unfold commandCalls
  split_ifs
  · exact recordsLoop_calls_ne_nil h 0 s
  · exact recordsLoop_calls_ne_nil h 0 s

/-- A right without a list ends the calls. -/
theorem commandCalls_stop (env : HandlerEnv) (cmd : Option UInt8) (ad : TypeAuthorizationData) (s : Acl)
    {rights : List TypeRight} (h : ∃ right ∈ rights, rightIndex right = none) (more : List TypeRight) :
    commandCalls env cmd ad s (rights ++ more) = commandCalls env cmd ad s rights := by
  obtain ⟨right, hmem, hnone⟩ := h
  unfold commandCalls addAclRecords removeAclRecords
  split_ifs
  · rw [recordsLoop_append_stop ⟨right, hmem, fun i s s' => addCall_stop env ad hnone i s s'⟩]
  · rw [recordsLoop_append_stop ⟨right, hmem, fun _ s s' => removeCall_stop ad hnone s s'⟩]

/-- There is a device on which the calls of a command show the last of its rights, when all others have a list. -/
theorem exists_device_last (cmd : Option UInt8) (ad : TypeAuthorizationData) (n : Nat) :
    ∃ d : Device, d.WellFormed ∧ ∀ rights x y, rights.length < n → (∀ right ∈ rights, rightIndex right ≠ none) →
      commandCalls (.plain 1) cmd ad d.acl (rights ++ [x]) = commandCalls (.plain 1) cmd ad d.acl (rights ++ [y]) → x = y := by
  by_cases hcmd : cmd = some 'A'.toUInt8
  · refine ⟨Device.start none, Device.wellFormed_start none, fun rights x y _ hrights h => ?_⟩
    unfold commandCalls at h
    rw [if_pos hcmd, if_pos hcmd] at h
    refine @recordsLoop_last _ _ (fun i _ s => ∀ j, i ≤ j → 1 + j ∉ s.heap) ?_ ?_ rights x y hrights 0 _ ?_ h
    · intro i k right s hfresh hr
      obtain ⟨s', hs', hfresh'⟩ := @addCall_ok 1 i ad right s hfresh hr
      exact ⟨s', congrArg Except.ok hs', hfresh'⟩
    · intro x y a b hxy
      cases hxy
      rfl
    · intro j _
      exact Finmap.notMem_empty
  · obtain ⟨s, hs, hcount⟩ := exists_granted ad n
    refine ⟨{ Device.start none with acl := s }, hs, fun rights x y hlen hrights h => ?_⟩
    unfold commandCalls at h
    rw [if_neg hcmd, if_neg hcmd] at h
    refine @recordsLoop_last _ _ (fun _ k s => Represents s s.store ∧ ∀ r, k ≤ (s.store r).count ad) ?_ ?_ rights x y hrights
      0 _ ?_ h
    · intro i k right s hs hr
      exact removeCall_ok hs hr
    · intro x y a b hxy
      cases hxy
      rfl
    · exact ⟨hs, fun r => (Nat.le_of_lt hlen).trans (hcount r)⟩

/-! ### The handler -/

/-- The calls of a command that does not use the rights list depend on its first byte only. -/
theorem handler_other (env : HandlerEnv) {payload payload' : List UInt8} (d : Device) (hhead : payload.head? = payload'.head?)
    (hcmd : ¬ isAclCommand payload) : iotSubscribeCallbackHandler env payload d = iotSubscribeCallbackHandler env payload' d := by
  unfold isAclCommand at hcmd
  unfold iotSubscribeCallbackHandler
  rw [← hhead]
  cases h : payload.head? with
  | none => rfl
  | some b =>
    rw [h, not_or, Option.some_inj, Option.some_inj] at hcmd
    simp only [if_neg hcmd.1, if_neg hcmd.2]

/-- The calls of an `A` or `a` command, given the text of its rights list and the characters of its field. -/
theorem handler_calls {env : HandlerEnv} {payload text field : List UInt8} (d : Device) (hcmd : isAclCommand payload)
    (htext : cstring (payload.drop rightsOffset) = some text)
    (hfield : strncpy base64AuthorizationDataLength (payload.drop adOffset) = some field) :
    (iotSubscribeCallbackHandler env payload d).calls =
      textCalls env (commandCalls env payload.head? (fieldBuffer env field) d.acl) text := by
  have hargs := aclArguments_toOption env payload
  rw [htext, hfield, Option.bind_some, Option.bind_some] at hargs
  unfold textCalls commandCalls
  rcases hcmd with hcmd | hcmd
  · rw [handler_add env d hcmd, aclCommand_calls, hargs]
    cases commandRights env text with
    | none => rfl
    | some rights => exact (if_pos hcmd).symm
  · have hnot : payload.head? ≠ some 'A'.toUInt8 := by
      rw [hcmd]
      decide
    rw [handler_remove env d hcmd, aclCommand_calls, hargs]
    cases commandRights env text with
    | none => rfl
    | some rights => exact (if_neg hnot).symm

/-- The text and the field of a payload whose rights list is settled, in memory that goes on. -/
theorem field_append {payload : List UInt8} (hlen : rightsOffset < payload.length) :
    ∃ field, ∀ tail, strncpy base64AuthorizationDataLength ((payload ++ tail).drop adOffset) = some field ∧
      (payload ++ tail).drop rightsOffset = payload.drop rightsOffset ++ tail := by
  have hfits : base64AuthorizationDataLength ≤ (payload.drop adOffset).length := by
    rw [List.length_drop]
    have : rightsOffset = adOffset + base64AuthorizationDataLength + 9 := rfl
    omega
  obtain ⟨field, hfield⟩ := Option.isSome_iff_exists.mp (strncpy_isSome hfits)
  refine ⟨field, fun tail => ⟨?_, List.drop_append_of_le_length (Nat.le_of_lt hlen)⟩⟩
  have hle : adOffset ≤ payload.length := Nat.le_trans (by decide) (Nat.le_of_lt hlen)
  rw [List.drop_append_of_le_length hle, strncpy_append hfits, hfield]

/-- The calls for a self-contained payload do not depend on what follows it. -/
theorem handler_calls_selfContained (env : HandlerEnv) {payload : List UInt8} (d : Device) (h : SelfContained payload)
    {t₁ t₂ : List UInt8} (h₁ : 0 ∈ t₁) (h₂ : 0 ∈ t₂) :
    (iotSubscribeCallbackHandler env (payload ++ t₁) d).calls = (iotSubscribeCallbackHandler env (payload ++ t₂) d).calls := by
  obtain ⟨hne, hacl⟩ := h
  obtain ⟨b, bs, rfl⟩ := List.exists_cons_of_ne_nil hne
  by_cases hcmd : isAclCommand (b :: bs)
  · obtain ⟨hlen, hsettled⟩ := hacl hcmd
    obtain ⟨field, hfield⟩ := field_append hlen
    have hcalls : ∀ {t text : List UInt8}, cstring ((b :: bs).drop rightsOffset ++ t) = some text →
        (iotSubscribeCallbackHandler env (b :: bs ++ t) d).calls =
          textCalls env (commandCalls env (some b) (fieldBuffer env field) d.acl) text := by
      intro t text htext
      rw [← (hfield t).2] at htext
      exact handler_calls d hcmd htext (hfield t).1
    by_cases hnul : 0 ∈ (b :: bs).drop rightsOffset
    · obtain ⟨text, htext, -⟩ := cstring_of_mem hnul
      have hread : ∀ t, cstring ((b :: bs).drop rightsOffset ++ t) = some text := by
        intro t
        rw [cstring_append_of_mem hnul, htext]
      rw [hcalls (hread t₁), hcalls (hread t₂)]
    · obtain ⟨u₁, hu₁, -⟩ := cstring_of_mem h₁
      obtain ⟨u₂, hu₂, -⟩ := cstring_of_mem h₂
      obtain ⟨cs, hcs⟩ := textCalls_of_settled (commandCalls_nil env (some b) (fieldBuffer env field) d.acl)
        (fun rights more hbad => commandCalls_stop env (some b) (fieldBuffer env field) d.acl hbad more)
        (hsettled.resolve_left hnul)
      rw [hcalls (by rw [cstring_append hnul, hu₁]; rfl), hcalls (by rw [cstring_append hnul, hu₂]; rfl), hcs, hcs]
  · have hhead : (b :: bs ++ t₁).head? = (b :: bs ++ t₂).head? := rfl
    rw [handler_other env d hhead hcmd]

/-- The handler makes the same calls for the payload whatever text follows it in memory. -/
def SameCalls (payload : List UInt8) : Prop :=
  ∀ (d : Device) (u v : List UInt8), d.WellFormed → ∃ y z,
    (iotSubscribeCallbackHandler (.plain 1) (payload ++ (u ++ 0 :: y)) d).calls =
      (iotSubscribeCallbackHandler (.plain 1) (payload ++ (v ++ 0 :: z)) d).calls

/-- A command is there: without one, the first byte is left over. -/
theorem SameCalls.ne_nil {payload : List UInt8} (h : SameCalls payload) : payload ≠ [] := by
  rintro rfl
  obtain ⟨y, z, hsame⟩ := h (Device.start none) ['n'.toUInt8] ['f'.toUInt8] (Device.wellFormed_start none)
  have hon : (iotSubscribeCallbackHandler (.plain 1) ([] ++ (['n'.toUInt8] ++ 0 :: y)) (Device.start none)).calls =
      [.operateDevice true] := rfl
  have hoff : (iotSubscribeCallbackHandler (.plain 1) ([] ++ (['f'.toUInt8] ++ 0 :: z)) (Device.start none)).calls =
      [.operateDevice false] := rfl
  rw [hon, hoff] at hsame
  simp at hsame

/-- What is missing between a short payload and its rights list. -/
def padding (payload : List UInt8) : List UInt8 := List.replicate (rightsOffset - payload.length) 0

/-- A payload that ends before its rights list takes the list and the field from what follows. -/
theorem handler_calls_padding {b : UInt8} {bs xs : List UInt8} (hcmd : isAclCommand (b :: bs))
    (hlen : (b :: bs).length ≤ rightsOffset) (hxs : 0 ∉ xs) (z : List UInt8) :
    ∃ field,
      (iotSubscribeCallbackHandler (.plain 1) (b :: bs ++ (padding (b :: bs) ++ xs ++ 0 :: z)) (Device.start none)).calls =
        textCalls (.plain 1) (commandCalls (.plain 1) (some b) (fieldBuffer (.plain 1) field) Acl.start) xs := by
  have hdrop : (b :: bs ++ (padding (b :: bs) ++ xs ++ 0 :: z)).drop rightsOffset = xs ++ 0 :: z := by
    have hpad : (b :: bs ++ padding (b :: bs)).length = rightsOffset := by
      rw [List.length_append, padding, List.length_replicate]
      omega
    rw [← hpad, ← List.append_assoc, ← List.append_assoc, List.append_assoc, List.drop_left]
  have hfits : base64AuthorizationDataLength ≤ ((b :: bs ++ (padding (b :: bs) ++ xs ++ 0 :: z)).drop adOffset).length := by
    have hle := congrArg List.length hdrop
    rw [List.length_drop] at hle
    have hpos : 0 < (xs ++ 0 :: z).length := by simp
    rw [List.length_drop]
    have : rightsOffset = adOffset + base64AuthorizationDataLength + 9 := rfl
    omega
  obtain ⟨field, hfield⟩ := Option.isSome_iff_exists.mp (strncpy_isSome hfits)
  refine ⟨field, handler_calls (Device.start none) hcmd ?_ hfield⟩
  rw [hdrop]
  exact cstring_append_nul hxs z

/-- The rights list starts in the payload: else one with the count 0 can follow, which makes no call, or one with an entry. -/
theorem SameCalls.rightsOffset_lt {b : UInt8} {bs : List UInt8} (h : SameCalls (b :: bs)) (hcmd : isAclCommand (b :: bs)) :
    rightsOffset < (b :: bs).length := by
  by_contra hlen
  rw [not_lt] at hlen
  obtain ⟨y, z, hsame⟩ := h (Device.start none) (padding (b :: bs) ++ [48]) (padding (b :: bs) ++ [49, 32, 48])
    (Device.wellFormed_start none)
  obtain ⟨field, hzero⟩ := @handler_calls_padding b bs [48] hcmd hlen (by decide) y
  obtain ⟨field', hone⟩ := @handler_calls_padding b bs [49, 32, 48] hcmd hlen (by decide) z
  rw [hzero, hone] at hsame
  refine commandCalls_ne_nil (.plain 1) (some b) (fieldBuffer (.plain 1) field') Acl.start (List.cons_ne_nil 0 []) ?_
  exact hsame.symm.trans (commandCalls_nil _ _ _ _)

/-- The rights list is settled. -/
theorem SameCalls.textSettled {b : UInt8} {bs : List UInt8} (h : SameCalls (b :: bs)) (hcmd : isAclCommand (b :: bs))
    (hlen : rightsOffset < (b :: bs).length) : TextSettled ((b :: bs).drop rightsOffset) := by
  by_cases hnul : 0 ∈ (b :: bs).drop rightsOffset
  · exact Or.inl hnul
  obtain ⟨field, hfield⟩ := field_append hlen
  obtain ⟨d, hd, hlast⟩ := exists_device_last (some b) (fieldBuffer (.plain 1) field) (atoi ((b :: bs).drop rightsOffset)).toNat
  have hcalls : ∀ {u z : List UInt8}, 0 ∉ u →
      (iotSubscribeCallbackHandler (.plain 1) (b :: bs ++ (u ++ 0 :: z)) d).calls =
        textCalls (.plain 1) (commandCalls (.plain 1) (some b) (fieldBuffer (.plain 1) field) d.acl)
          ((b :: bs).drop rightsOffset ++ u) := by
    intro u z hu
    refine handler_calls d hcmd ?_ (hfield _).1
    rw [(hfield _).2, cstring_append hnul, cstring_append_nul hu]
    rfl
  have hsame : SameTextCalls (.plain 1) (commandCalls (.plain 1) (some b) (fieldBuffer (.plain 1) field) d.acl)
      ((b :: bs).drop rightsOffset) := by
    intro u v hu hv
    obtain ⟨y, z, heq⟩ := h d u v hd
    rwa [hcalls hu, hcalls hv] at heq
  have hroom : ∀ n, hasRoom ((HandlerEnv.plain 1).rightBlock n) n.toNat := by
    intro n
    simp [hasRoom, HandlerEnv.plain]
  exact Or.inr (hsame.settled hroom (commandCalls_nil _ _ _ _) (fun _ hrights => commandCalls_ne_nil _ _ _ _ hrights) hlast)

/-- If the calls for a payload do not depend on what follows it, it is self-contained. -/
theorem SameCalls.selfContained {payload : List UInt8} (h : SameCalls payload) : SelfContained payload := by
  obtain ⟨b, bs, rfl⟩ := List.exists_cons_of_ne_nil h.ne_nil
  refine ⟨h.ne_nil, fun hcmd => ?_⟩
  have hlen := h.rightsOffset_lt hcmd
  exact ⟨hlen, h.textSettled hcmd hlen⟩

/-! ### The receive buffer -/

/-- The handler is called with the payload, and what follows the packet in memory. -/
theorem packetCalls_eq {packet before : List UInt8} {msg : PublishMessage}
    (h : deserializePublish packet.length packet = .ok msg) (hlen : packet.length ≤ before.length)
    (subscribed : List UInt8 → Bool) (env : HandlerEnv) (beyond : List UInt8) (d : Device) :
    packetCalls subscribed env packet before beyond d =
      if subscribed msg.topicName then
        some (iotSubscribeCallbackHandler env (msg.payload ++ (before.drop packet.length ++ beyond)) d).calls
      else none := by
  unfold packetCalls handlePublish receiveBuffer
  rw [List.append_assoc, deserializePublish_append (deserializePublish_size h (Or.inr hlen))]
  simp only
  split_ifs <;> rfl

end OwnMessageAux

open OwnMessageAux

/-- For every packet that ends with its payload: the handler makes the same calls whatever was left over in the receive buffer if
and only if what it uses of the payload is inside the payload. -/
theorem calls_depend_only_on_packet_iff (packet : List UInt8) (msg : PublishMessage) (hpacket : IsPublish packet msg) :
    DependsOnlyOnPacket packet ↔ SelfContained msg.payload := by
  have h := hpacket.deserialize
  constructor
  · intro hdep
    refine SameCalls.selfContained fun d u v hd => ?_
    let before (w : List UInt8) : List UInt8 := packet ++ (w ++ List.replicate (u.length + v.length - w.length) 0)
    have hu : (before u).length = packet.length + u.length + v.length := by
      simp only [before, List.length_append, List.length_replicate]
      omega
    have hv : (before v).length = packet.length + u.length + v.length := by
      simp only [before, List.length_append, List.length_replicate]
      omega
    have hsame := hdep (fun _ => true) (.plain 1) (before u) (before v) [0] d hd (by decide) (by omega) (by omega)
    rw [packetCalls_eq h (by omega), packetCalls_eq h (by omega), if_pos rfl, if_pos rfl, Option.some_inj] at hsame
    have hafter : ∀ w, (before w).drop packet.length ++ [0] =
        w ++ 0 :: List.replicate (u.length + v.length - w.length) 0 := by
      intro w
      rw [List.drop_left, List.append_assoc, ← List.replicate_succ', List.replicate_succ]
    rw [hafter, hafter] at hsame
    exact ⟨_, _, hsame⟩
  · intro hself subscribed env before₁ before₂ beyond d _ hbeyond hlen₁ hlen
    rw [packetCalls_eq h hlen₁, packetCalls_eq h (by omega)]
    split_ifs
    · exact congrArg some (handler_calls_selfContained env d hself (List.mem_append_right _ hbeyond)
        (List.mem_append_right _ hbeyond))
    · rfl

/-- A packet with a payload, for the topic "t". -/
def publishPacket (payload : List UInt8) : List UInt8 := [0x30, UInt8.ofNat (payload.length + 3), 0, 1, 116] ++ payload

/-- An `A` command that ends with the bracket after its only right, without a NUL. -/
theorem calls_depend_only_on_packet_add :
    DependsOnlyOnPacket (publishPacket (aclPayload "A" (List.replicate 44 65) "1 {1}").dropLast) := by
  refine (calls_depend_only_on_packet_iff _ ⟨false, 0, false, none, [116],
    (aclPayload "A" (List.replicate 44 65) "1 {1}").dropLast, 64⟩ ⟨rfl, rfl⟩).mpr ⟨by decide, fun _ => ⟨by decide, ?_⟩⟩
  exact Or.inr (Or.inr ⟨by decide, Or.inl (by decide)⟩)

/-- An empty payload: the command is the one that an earlier packet left in the buffer. -/
theorem calls_depend_only_on_packet_not :
    IsPublish (publishPacket []) ⟨false, 0, false, none, [116], [], 0⟩ ∧
      packetCalls (fun _ => true) (.plain 1) (publishPacket []) (publishPacket ['n'.toUInt8]) [0] (Device.start none) =
        some [.operateDevice true] ∧
      packetCalls (fun _ => true) (.plain 1) (publishPacket []) (publishPacket ['f'.toUInt8]) [0] (Device.start none) =
        some [.operateDevice false] ∧
      ¬ DependsOnlyOnPacket (publishPacket []) := by
  have hon : packetCalls (fun _ => true) (.plain 1) (publishPacket []) (publishPacket ['n'.toUInt8]) [0] (Device.start none) =
      some [.operateDevice true] := rfl
  have hoff : packetCalls (fun _ => true) (.plain 1) (publishPacket []) (publishPacket ['f'.toUInt8]) [0] (Device.start none) =
      some [.operateDevice false] := rfl
  refine ⟨⟨rfl, rfl⟩, hon, hoff, fun h => ?_⟩
  have hsame := h (fun _ => true) (.plain 1) (publishPacket ['n'.toUInt8]) (publishPacket ['f'.toUInt8]) [0] (Device.start none)
    (Device.wellFormed_start none) (by decide) (by decide) rfl
  rw [hon, hoff] at hsame
  simp at hsame

end CGuard
