import CGuard.Lemmas.CredentialText
import CGuard.Lemmas.RecordsRun
import CGuard.Lemmas.RightsText
import CGuard.Lib.Decimal
import CGuard.Theorems.Undecodable

/-!
# Commands as they are meant to be written

A credential in canonical base64, the number of rights in decimal, and the rights in decimal with any separators between and after them.
The readers of the handler (`strncpy`, the decoder, `sscanf`, `strtok` and `atoi`) agree on such a text, as long as the number of rights
is an `int`.
-/

namespace CGuard

open CString UndecodableAux

/-- A separator of a rights list: one or more of its delimiters. -/
structure Separator where
  text : List UInt8
  ne_nil : text ≠ []
  delimiters : ∀ b ∈ text, b ∈ ascii " ,{}"

/-! ## Separators -/

/-- A text of delimiters, as a separator. -/
def Separator.ofText (text : List UInt8) (hne : text ≠ []) (h : text.all rightDelimiter = true) : Separator where
  text := text
  ne_nil := hne
  delimiters b hb := of_decide_eq_true (List.all_eq_true.mp h b hb)

theorem Separator.isDelimiter (sep : Separator) : ∀ b ∈ sep.text, rightDelimiter b = true :=
  fun b hb => decide_eq_true (sep.delimiters b hb)

/-- No delimiter is a digit or a NUL. -/
theorem delimiter_spec {b : UInt8} (h : b ∈ ascii " ,{}") : isdigit b = false ∧ b ≠ 0 := by
  have hlist : ascii " ,{}" = [32, 44, 123, 125] := rfl
  rw [hlist] at h
  simp only [List.mem_cons, List.not_mem_nil, or_false] at h
  rcases h with rfl | rfl | rfl | rfl <;> exact ⟨rfl, by decide⟩

/-- A number ends at a separator. -/
theorem Separator.takeWhile_isdigit (sep : Separator) (rest : List UInt8) : (sep.text ++ rest).takeWhile isdigit = [] := by
  obtain ⟨b, bs, hb⟩ := List.exists_cons_of_ne_nil sep.ne_nil
  have hnot : isdigit b = false := (delimiter_spec (sep.delimiters b (by rw [hb]; exact List.mem_cons_self))).1
  rw [hb, List.cons_append, List.takeWhile_cons_of_neg (by simp [hnot])]

theorem Separator.zero_notMem (sep : Separator) : (0 : UInt8) ∉ sep.text := fun h => (delimiter_spec (sep.delimiters 0 h)).2 rfl

/-! ## The text of a command -/

/-- The text of a rights list: the number of its entries, and the entries, each with a separator after it. -/
def rightsText (first : Separator) (entries : List (Fin rightNum × Separator)) : List UInt8 :=
  ascii (toString entries.length) ++ (first.text ++ entries.flatMap fun e => ascii (toString e.1.val) ++ e.2.text)

/-- The text of a command. -/
def writtenCommand (cmd : UInt8) (ad : TypeAuthorizationData) (first : Separator) (entries : List (Fin rightNum × Separator)) :
    List UInt8 :=
  cmd :: (ascii " ad: " ++ (Base64Text.encode ad.bytes ++ (ascii " rights: " ++ rightsText first entries)))

/-- The rights that are written. -/
def writtenRights (entries : List (Fin rightNum × Separator)) : List TypeRight := entries.map fun e => UInt16.ofNat e.1.val

namespace WrittenCommandAux

/-! ### The texts -/

theorem ascii_toString (n : Nat) : ascii (toString n) = decimal n := by
  simp only [ascii, decimal, Nat.toString_eq_repr, Nat.toList_repr]

theorem zero_notMem_decimal (n : Nat) : (0 : UInt8) ∉ decimal n := by
  intro h
  exact absurd (isdigit_of_mem_decimal n 0 h) (by decide)

/-- A rights list has no NUL. -/
theorem zero_notMem_rightsText (first : Separator) (entries : List (Fin rightNum × Separator)) :
    (0 : UInt8) ∉ rightsText first entries := by
  simp only [rightsText, ascii_toString, List.mem_append, List.mem_flatMap, not_or, not_exists, not_and]
  exact ⟨zero_notMem_decimal _, first.zero_notMem, fun e _ => ⟨zero_notMem_decimal _, e.2.zero_notMem⟩⟩

/-- The count of a rights list, as `atoi` reads it. -/
theorem atoi_rightsText (first : Separator) (entries : List (Fin rightNum × Separator)) :
    atoi (rightsText first entries) = toInt (min (2 ^ 63 - 1) entries.length) := by
  rw [rightsText, ascii_toString, atoi, strtol_decimal _ (first.takeWhile_isdigit _)]

/-- The tokens of a rights list: the count and the entries. -/
theorem tokens_rightsText (first : Separator) (entries : List (Fin rightNum × Separator)) :
    tokens rightDelimiter (rightsText first entries) =
      decimal entries.length :: entries.map fun e => decimal e.1.val := by
  have hword : ∀ n, ∀ b ∈ decimal n, rightDelimiter b = false := fun n b hb =>
    rightDelimiter_of_isdigit (isdigit_of_mem_decimal n b hb)
  have hentries : tokens rightDelimiter (entries.flatMap fun e => ascii (toString e.1.val) ++ e.2.text) =
      entries.map fun e => decimal e.1.val := by
    induction entries with
    | nil => exact tokens_nil
    | cons e entries ih =>
      rw [List.flatMap_cons, List.append_assoc, ascii_toString,
        tokens_word_append (hword _) (decimal_ne_nil _) e.2.isDelimiter e.2.ne_nil, ih, List.map_cons]
  rw [rightsText, ascii_toString,
    tokens_word_append (hword _) (decimal_ne_nil _) first.isDelimiter first.ne_nil, hentries]

/-- The rights that are read from a list of fewer than 2^31 entries are those that are written. -/
theorem commandRights_rightsText {env : HandlerEnv} (first : Separator) {entries : List (Fin rightNum × Separator)}
    (hlen : entries.length < 2 ^ 31) (hroom : entries ≠ [] → hasRoom (env.rightBlock entries.length) entries.length) :
    commandRights env (rightsText first entries) = some (writtenRights entries) := by
  have hcount : atoi (rightsText first entries) = entries.length := by
    rw [rightsText, ascii_toString]
    exact atoi_decimal hlen (first.takeWhile_isdigit _)
  have hright : ∀ r : Fin rightNum, rightOfToken (decimal r.val) = UInt16.ofNat r.val := by decide
  unfold commandRights
  simp only [hcount, Int.toNat_natCast, tokens_rightsText, List.tail_cons, List.length_map]
  rw [if_pos]
  · rw [List.take_of_length_le (by rw [List.length_map]), List.map_map]
    simp only [Function.comp_def, hright]
    rfl
  · refine ⟨Nat.le_refl _, ?_⟩
    by_cases hnil : entries = []
    · exact Or.inl (by rw [hnil]; rfl)
    · exact Or.inr (hroom hnil)

/-! ### The credential -/

/-- The canonical text of a credential. -/
theorem encode_ad (ad : TypeAuthorizationData) :
    (Base64Text.encode ad.bytes).length = base64AuthorizationDataLength ∧ (0 : UInt8) ∉ Base64Text.encode ad.bytes ∧
      mbedtlsBase64Decode authorizationDataLength (Base64Text.encode ad.bytes) = ⟨0, some authorizationDataLength, ad.bytes⟩ := by
  obtain ⟨hlength, hpadded, hbytes⟩ := @Base64Text.encode_spec 10 ad.bytes ad.length_eq
  exact ⟨hlength, Base64Text.zero_notMem_of_isPadded hpadded, (mbedtlsBase64Decode_iff hlength).mpr ⟨hpadded, hbytes.symm⟩⟩

/-- The buffer after the canonical text of a credential has been decoded into it. -/
theorem fieldBuffer_encode (env : HandlerEnv) (ad : TypeAuthorizationData) :
    fieldBuffer env (Base64Text.encode ad.bytes) = ad := by
  rw [fieldBuffer, (encode_ad ad).2.2, overwrite_full env.ad ad.length_eq]

/-! ### The command -/

variable {env : HandlerEnv} {cmd : UInt8} {ad : TypeAuthorizationData} {first : Separator}
  {entries : List (Fin rightNum × Separator)}

/-- What the handler reads from a command, whatever follows its NUL. -/
theorem aclArguments_written (beyond : List UInt8) :
    (aclArguments env (writtenCommand cmd ad first entries ++ 0 :: beyond)).toOption =
      (commandRights env (rightsText first entries)).map fun rights => (ad, rights) := by
  obtain ⟨hlength, hzero, -⟩ := encode_ad ad
  have hfield : (writtenCommand cmd ad first entries ++ 0 :: beyond).drop adOffset =
      Base64Text.encode ad.bytes ++ (ascii " rights: " ++ (rightsText first entries ++ 0 :: beyond)) := by
    have hsplit : writtenCommand cmd ad first entries ++ 0 :: beyond = (cmd :: ascii " ad: ") ++
        (Base64Text.encode ad.bytes ++ (ascii " rights: " ++ (rightsText first entries ++ 0 :: beyond))) := by
      simp only [writtenCommand, List.cons_append, List.append_assoc]
    rw [hsplit]
    exact List.drop_left' rfl
  have htext : (writtenCommand cmd ad first entries ++ 0 :: beyond).drop rightsOffset = rightsText first entries ++ 0 :: beyond := by
    have hsplit : writtenCommand cmd ad first entries ++ 0 :: beyond =
        ((cmd :: ascii " ad: ") ++ Base64Text.encode ad.bytes ++ ascii " rights: ") ++ (rightsText first entries ++ 0 :: beyond) := by
      simp only [writtenCommand, List.cons_append, List.append_assoc]
    rw [hsplit]
    refine List.drop_left' ?_
    rw [List.length_append, List.length_append, hlength]
    rfl
  have hcopy : strncpy base64AuthorizationDataLength
      (Base64Text.encode ad.bytes ++ (ascii " rights: " ++ (rightsText first entries ++ 0 :: beyond))) =
        some (Base64Text.encode ad.bytes) := by
    rw [← hlength]
    exact strncpy_of_no_nul hzero _
  rw [aclArguments_toOption, htext, hfield, cstring_append_nul (zero_notMem_rightsText first entries), hcopy]
  simp only [Option.bind_some, fieldBuffer_encode]

end WrittenCommandAux

open WrittenCommandAux

/-- For every credential, every list of fewer than 2^31 rights, every choice of separators and whatever follows the NUL, on every device: an
`A` command does what `add_ACL_records` does with that credential and those rights, and an `a` command what `remove_ACL_records` does. The
calls are for the rights in their order, and none is made after one that does not return 0. -/
theorem written_command_decoded (env : HandlerEnv) (d : Device) (ad : TypeAuthorizationData) (first : Separator)
    (entries : List (Fin rightNum × Separator)) (beyond : List UInt8) (hlen : entries.length < 2 ^ 31)
    (hroom : entries ≠ [] → hasRoom (env.rightBlock entries.length) entries.length) :
    (iotSubscribeCallbackHandler env (writtenCommand 'A'.toUInt8 ad first entries ++ 0 :: beyond) d =
        d.applied (addAclRecords env ad (writtenRights entries) d.acl) ∧
      CallsInOrder (Call.ccAppendACL ad) (writtenRights entries)
        (iotSubscribeCallbackHandler env (writtenCommand 'A'.toUInt8 ad first entries ++ 0 :: beyond) d).calls) ∧
    (iotSubscribeCallbackHandler env (writtenCommand 'a'.toUInt8 ad first entries ++ 0 :: beyond) d =
        d.applied (removeAclRecords ad (writtenRights entries) d.acl) ∧
      CallsInOrder (Call.ccDeleteACL ad) (writtenRights entries)
        (iotSubscribeCallbackHandler env (writtenCommand 'a'.toUInt8 ad first entries ++ 0 :: beyond) d).calls) := by
  have hargs : ∀ cmd, (aclArguments env (writtenCommand cmd ad first entries ++ 0 :: beyond)).toOption =
      some (ad, writtenRights entries) := by
    intro cmd
    rw [aclArguments_written, commandRights_rightsText first hlen hroom, Option.map_some]
  have hadd := (handler_add env d rfl).trans (aclCommand_applied (hargs 'A'.toUInt8) (addAclRecords env) d)
  have hremove := (handler_remove env d rfl).trans (aclCommand_applied (hargs 'a'.toUInt8) removeAclRecords d)
  refine ⟨⟨hadd, ?_⟩, hremove, ?_⟩
  · rw [hadd]
    exact recordsLoop_inOrder _ _ _ 0 d.acl
  · rw [hremove]
    exact recordsLoop_inOrder _ _ _ 0 d.acl

/-- The separators of "2 {1,0}". -/
def spaceBrace : Separator := .ofText (ascii " \x7b") (by decide) rfl
def comma : Separator := .ofText (ascii ",") (by decide) rfl
def brace : Separator := .ofText (ascii "\x7d") (by decide) rfl

example : rightsText spaceBrace [(⟨1, by decide⟩, comma), (⟨0, by decide⟩, brace)] = ascii "2 {1,0}" := by decide

/-- Two rights that are granted. -/
theorem written_command_decoded_two :
    (iotSubscribeCallbackHandler (.plain 1)
      (writtenCommand 'A'.toUInt8 (.uniform 7) spaceBrace [(⟨1, by decide⟩, comma), (⟨0, by decide⟩, brace)] ++ 0 :: [65])
      (Device.start none)).calls = [.ccAppendACL (.uniform 7) 1 (some 0), .ccAppendACL (.uniform 7) 0 (some 0)] := by
  have h := (written_command_decoded (.plain 1) (Device.start none) (.uniform 7) spaceBrace
    [(⟨1, by decide⟩, comma), (⟨0, by decide⟩, brace)] [65] (by decide) (fun _ => by decide)).1.1
  rw [h]
  decide

/-- An environment whose blocks have room for 2^32 entries, and more. -/
def HandlerEnv.roomy : HandlerEnv where
  __ := HandlerEnv.plain 1
  rightBlock n := some (2 ^ 33 + n.toNat)
  rightBlock_ge n k h := by
    cases h
    omega

/-- The number of 2^32 rights is 0 as an `int`: no call is made. -/
theorem written_command_decoded_not :
    ∃ entries : List (Fin rightNum × Separator), entries = List.replicate (2 ^ 32) (⟨0, by decide⟩, comma) ∧
      hasRoom (HandlerEnv.roomy.rightBlock entries.length) entries.length = true ∧
      (iotSubscribeCallbackHandler .roomy (writtenCommand 'A'.toUInt8 (.uniform 7) comma entries ++ [0]) (Device.start none)).calls = [] ∧
      ¬ CallsInOrder (Call.ccAppendACL (.uniform 7)) (writtenRights entries)
        (iotSubscribeCallbackHandler .roomy (writtenCommand 'A'.toUInt8 (.uniform 7) comma entries ++ [0]) (Device.start none)).calls := by
  obtain ⟨entries, hentries⟩ : ∃ entries : List (Fin rightNum × Separator),
      entries = List.replicate (2 ^ 32) (⟨0, by decide⟩, comma) := ⟨_, rfl⟩
  have hlen : entries.length = 2 ^ 32 := by rw [hentries, List.length_replicate]
  have hcount : atoi (rightsText comma entries) = 0 := by
    rw [atoi_rightsText, hlen]
    decide
  have hargs : (aclArguments .roomy (writtenCommand 'A'.toUInt8 (.uniform 7) comma entries ++ [0])).toOption =
      some (.uniform 7, []) := by
    rw [aclArguments_written, commandRights_of_nonpos (Int.le_of_eq hcount), Option.map_some]
  have hcalls : (iotSubscribeCallbackHandler .roomy (writtenCommand 'A'.toUInt8 (.uniform 7) comma entries ++ [0])
      (Device.start none)).calls = [] := by
    rw [handler_add _ _ rfl, aclCommand_applied hargs (addAclRecords .roomy)]
    rfl
  refine ⟨entries, hentries, ?_, hcalls, ?_⟩
  · rw [hlen]
    decide
  · rw [hcalls]
    obtain ⟨e, es, hcons⟩ := List.exists_cons_of_length_pos (by rw [hlen]; decide : 0 < entries.length)
    rw [hcons]
    rintro ⟨ret, rest, hnil, -⟩
    cases hnil

end CGuard
