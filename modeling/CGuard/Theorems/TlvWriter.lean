import CGuard.Theorems.TlvReader
import CGuard.Lib.Machine

/-!
# What the writer of TLVs leaves

`HAPTLVWriterAppend` adds the text of a TLV behind what has been written, wherever its value lies, and fails only for lack of room. After
any sequence of calls the buffer is the text of what was appended, and the reader gets it back.
-/

namespace CGuard

open ByteMemory Machine

namespace TlvWriterAux

/-- A long value has one fragment more than its rest. -/
theorem numFragments_of_lt {n : Nat} (h : 255 < n) : numFragments n = 1 + numFragments (n - 255) := by
  unfold numFragments
  split_ifs <;> omega

/-- A short value has one fragment. -/
theorem numFragments_of_le {n : Nat} (h : n ≤ 255) : numFragments n = 1 := by
  unfold numFragments
  split_ifs <;> omega

/-- The memory after one round: the rest of the value behind its header, and nothing outside of the room. -/
theorem round_memory (type : UInt8) (m : Mem) (writer : HAPTLVWriter) (p n f : Nat) :
    slice (serializeFragment type (move m (writer.bytes + writer.numBytes + 2) p n) writer f)
        (writer.bytes + writer.numBytes) (2 + n) = type :: UInt8.ofNat f :: slice m p n ∧
      ∀ a, a < writer.bytes + writer.numBytes ∨ writer.bytes + writer.numBytes + 2 + n ≤ a →
        serializeFragment type (move m (writer.bytes + writer.numBytes + 2) p n) writer f a = m a := by
  obtain ⟨b, hb⟩ : ∃ b, writer.bytes + writer.numBytes = b := ⟨_, rfl⟩
  simp only [serializeFragment, hb]
  refine ⟨?_, ?_⟩
  · rw [Nat.add_comm 2 n, slice_succ, slice_succ, slice_update_of_not_mem (Or.inl (by omega)),
      slice_update_of_not_mem (Or.inl (by omega)), slice_move]
    rw [Function.update_of_ne (by omega), Function.update_self, Function.update_self]
  · intro a ha
    rw [Function.update_of_ne (by omega), Function.update_of_ne (by omega), move_of_not_mem (by omega)]

/-- The loop writes the text of the rest of the value, if there is room for it, and nothing outside of the room in any case. -/
theorem serializeFragments_spec (type : UInt8) {n : Nat} : ∀ (m : Mem) (writer : HAPTLVWriter) (room p : Nat),
    (∀ a, a < writer.bytes + writer.numBytes ∨ writer.bytes + writer.numBytes + room ≤ a →
      (serializeFragments type m writer room (some p) n).2.1 a = m a) ∧
    (n + 2 * numFragments n ≤ room →
      (serializeFragments type m writer room (some p) n).1 = .none ∧
      (serializeFragments type m writer room (some p) n).2.2 =
        { writer with numBytes := writer.numBytes + (n + 2 * numFragments n), lastType := type } ∧
      slice (serializeFragments type m writer room (some p) n).2.1 (writer.bytes + writer.numBytes) (n + 2 * numFragments n) =
        encodeTLV type (slice m p n)) ∧
    (room < n + 2 * numFragments n → (serializeFragments type m writer room (some p) n).1 = .outOfResources) := by
  induction n using Nat.strongRecOn with
  | ind n ih =>
    intro m writer room p
    obtain ⟨hround, hframe⟩ := round_memory type m writer p n (min n 255)
    have hpos : 1 ≤ numFragments n := by
      unfold numFragments
      split_ifs <;> omega
    rw [serializeFragments]
    simp only
    by_cases h2 : room < 2
    · rw [if_pos h2]
      exact ⟨fun _ _ => rfl, fun h => by omega, fun _ => rfl⟩
    rw [if_neg h2]
    by_cases hv : room - 2 < n
    · rw [if_pos hv]
      exact ⟨fun _ _ => rfl, fun h => by omega, fun _ => rfl⟩
    rw [if_neg hv]
    by_cases hlast : n - min n 255 = 0
    · have hn : n ≤ 255 := by omega
      have hmin : min n 255 = n := by omega
      have hcount := numFragments_of_le hn
      rw [if_pos hlast, hcount]
      simp only [hmin] at hround hframe ⊢
      refine ⟨fun a ha => hframe a (by omega), fun _ => ⟨trivial, ?_, ?_⟩, fun h => by omega⟩
      · simp only [HAPTLVWriter.mk.injEq, and_true, true_and]
        omega
      · have hlen : (slice m p n).length = n := length_slice _ _ _
        rw [Nat.mul_one, Nat.add_comm n 2, hround, encodeTLV_of_le (by rw [hlen]; exact hn), hlen]
    · have hn : 255 < n := by omega
      have hcount := numFragments_of_lt hn
      rw [if_neg hlast]
      obtain ⟨f, hmin, hf255⟩ : ∃ f, min n 255 = f ∧ f = 255 := ⟨_, rfl, by omega⟩
      rw [← hf255] at hcount
      obtain ⟨b, hb⟩ : ∃ b, writer.bytes + writer.numBytes = b := ⟨_, rfl⟩
      have hplace : writer.bytes + (writer.numBytes + 2 + f) = b + (2 + f) := by omega
      have hplace' : b + 2 + f = b + (2 + f) := by omega
      simp only [hmin, hb, hplace'] at hround hframe ⊢
      obtain ⟨m₁, hm₁⟩ : ∃ m₁, serializeFragment type (move m (b + 2) p n) writer f = m₁ := ⟨_, rfl⟩
      obtain ⟨hf, hok, herr⟩ := ih (n - f) (by omega) m₁ { writer with numBytes := writer.numBytes + 2 + f } (room - 2 - f)
        (b + (2 + f))
      simp only [hm₁] at hround hframe ⊢
      obtain ⟨r, hr⟩ : ∃ r, serializeFragments type m₁ { writer with numBytes := writer.numBytes + 2 + f } (room - 2 - f)
        (some (b + (2 + f))) (n - f) = r := ⟨_, rfl⟩
      simp only [hr, hplace] at hf hok herr ⊢
      refine ⟨fun a ha => ?_, fun h => ?_, fun h => herr (by omega)⟩
      · rw [hf a (by omega), hframe a (by omega)]
      · obtain ⟨h1, h3, h4⟩ := hok (by omega)
        refine ⟨h1, ?_, ?_⟩
        · rw [h3, hcount]
          simp only [HAPTLVWriter.mk.injEq, and_true, true_and]
          omega
        · have hsplit : n + 2 * numFragments n = 2 + f + (n - f + 2 * numFragments (n - f)) := by omega
          have htotal : 2 + n = 2 + f + (n - f) := by omega
          -- the header and the first fragment are below what the other rounds write
          have hfirst : slice r.2.1 b (2 + f) = slice m₁ b (2 + f) := slice_congr fun x _ hx => hf x (Or.inl (by omega))
          have hlen : ((slice m p n).take f).length = f := by rw [List.length_take, length_slice]; omega
          rw [htotal, slice_add, ← List.take_append_drop f (slice m p n)] at hround
          change _ = (type :: UInt8.ofNat f :: (slice m p n).take f) ++ (slice m p n).drop f at hround
          obtain ⟨hhead, hrest⟩ := List.append_inj hround
            (by rw [length_slice, List.length_cons, List.length_cons, hlen]; omega)
          rw [hsplit, slice_add, hfirst, hhead, h4, hrest, @encodeTLV_of_lt type (slice m p n) (by rw [length_slice]; omega),
            hf255]
          rfl

/-- Appending: the text of the TLV behind what was written, or an error if the room is not enough. -/
theorem hapTLVWriterAppend_spec (m : Mem) (writer : HAPTLVWriter) (tlv : HAPTLV) (hnull : tlv.bytes = none → tlv.numBytes = 0)
    (hroom : writer.numBytes ≤ writer.maxBytes) :
    (writer.numBytes + (encodeTLV tlv.type (tlv.value m)).length ≤ writer.maxBytes →
      ∃ m', hapTLVWriterAppend m writer tlv =
          (.none, m', { writer with numBytes := writer.numBytes + (encodeTLV tlv.type (tlv.value m)).length, lastType := tlv.type }) ∧
        slice m' writer.bytes (writer.numBytes + (encodeTLV tlv.type (tlv.value m)).length) =
          slice m writer.bytes writer.numBytes ++ encodeTLV tlv.type (tlv.value m)) ∧
    (writer.maxBytes < writer.numBytes + (encodeTLV tlv.type (tlv.value m)).length →
      (hapTLVWriterAppend m writer tlv).1 = .outOfResources) := by
  obtain ⟨type, bytes, n⟩ := tlv
  rw [length_encodeTLV]
  simp only [hapTLVWriterAppend, HAPTLV.value]
  cases bytes with
  | none =>
    have hn : n = 0 := hnull rfl
    rw [serializeFragments, hn]
    simp only [List.length_nil, numFragments, if_true]
    refine ⟨fun h => ?_, fun h => by rw [if_pos (by omega)]⟩
    rw [if_neg (by omega)]
    refine ⟨_, rfl, ?_⟩
    rw [slice_add]
    congr 1
    · refine slice_congr fun x _ hx => ?_
      rw [serializeFragment, Function.update_of_ne (by omega), Function.update_of_ne (by omega)]
    · rw [serializeFragment, slice_succ, slice_succ, Function.update_of_ne (by omega), Function.update_self, Function.update_self,
        encodeTLV_of_le (by simp)]
      rfl
  | some p =>
    obtain ⟨hframe, hok, herr⟩ := serializeFragments_spec type (n := n) m writer (writer.maxBytes - writer.numBytes) p
    simp only [length_slice]
    refine ⟨fun h => ?_, fun h => herr (by omega)⟩
    obtain ⟨h1, h2, h3⟩ := hok (by omega)
    refine ⟨_, Prod.ext h1 (Prod.ext rfl h2), ?_⟩
    rw [slice_add, h3]
    congr 1
    exact slice_congr fun x _ hx => hframe x (Or.inl (by omega))

/-- What is kept of a writer: it has written the text of `tlvs`. -/
structure Wrote (bytes maxBytes : Nat) (tlvs : List (UInt8 × List UInt8)) (m : Mem) (writer : HAPTLVWriter) : Prop where
  base : writer.bytes = bytes
  capacity : writer.maxBytes = maxBytes
  room : writer.numBytes ≤ writer.maxBytes
  text : slice m bytes writer.numBytes = encodeTLVs tlvs
  separated : Separated tlvs
  last : ∀ t ∈ (tlvs.map Prod.fst).getLast?, t = writer.lastType

/-- A writer that has been created has written nothing. -/
theorem Wrote.start (m : Mem) (bytes maxBytes : Nat) : Wrote bytes maxBytes [] m (hapTLVWriterCreate bytes maxBytes) where
  base := rfl
  capacity := rfl
  room := Nat.zero_le _
  text := rfl
  separated := by simp [Separated]
  last := by simp

/-- The text is as long as the writer counts. -/
theorem Wrote.length {bytes maxBytes : Nat} {tlvs : List (UInt8 × List UInt8)} {m : Mem} {writer : HAPTLVWriter}
    (h : Wrote bytes maxBytes tlvs m writer) : (encodeTLVs tlvs).length = writer.numBytes := by
  rw [← h.text, length_slice]

end TlvWriterAux

open TlvReaderAux TlvWriterAux

/-- Why a call of the writer does not return: an `HAPPrecondition` fails, or it answers with an error. -/
inductive WriterFault where
  | precondition
  | failed (err : HAPError)
  deriving DecidableEq

/-- The memory at a call: what has been written, and around it what the client has put there. -/
def memoryAt (s : Mem × HAPTLVWriter) (client : Mem) : Mem := fun a =>
  if s.2.bytes ≤ a ∧ a < s.2.bytes + s.2.numBytes then s.1 a else client a

/-- One call of `HAPTLVWriterAppend`: before it the client has used the memory around what has been written, in which the value lies. The
output is what has been appended. -/
def writerStep : Step (Mem × HAPTLVWriter) (Mem × HAPTLV) (UInt8 × List UInt8) WriterFault := fun s call =>
  let m := memoryAt s call.1
  if call.2.bytes = none ∧ call.2.numBytes ≠ 0 then .error .precondition
  else if s.2.numBytes ≠ 0 ∧ call.2.type = s.2.lastType then .error .precondition
  else
    match hapTLVWriterAppend m s.2 call.2 with
    | (.none, m', writer) => .ok ((m', writer), (call.2.type, call.2.value m))
    | (err, _, _) => .error (.failed err)

namespace TlvWriterAux

/-- What a call appends if it does not fail. -/
def callTLV (s : Mem × HAPTLVWriter) (call : Mem × HAPTLV) : UInt8 × List UInt8 := (call.2.type, call.2.value (memoryAt s call.1))

/-- A type was appended last exactly if a text was written and the writer has kept that type. -/
theorem Wrote.getLast?_iff {bytes maxBytes : Nat} {tlvs : List (UInt8 × List UInt8)} {m : Mem} {writer : HAPTLVWriter}
    (h : Wrote bytes maxBytes tlvs m writer) (type : UInt8) :
    (tlvs.map Prod.fst).getLast? = some type ↔ writer.numBytes ≠ 0 ∧ type = writer.lastType := by
  have hlen := h.length
  cases htlvs : tlvs with
  | nil =>
    rw [htlvs] at hlen
    simp [← hlen, encodeTLVs]
  | cons x xs =>
    obtain ⟨t, ht⟩ := Option.isSome_iff_exists.mp (show ((tlvs.map Prod.fst).getLast?).isSome by rw [htlvs]; simp)
    have hlast := h.last t ht
    rw [← htlvs, ht, Option.some.injEq, hlast]
    refine ⟨fun heq => ⟨?_, heq.symm⟩, fun heq => heq.2.symm⟩
    rw [← hlen, htlvs, encodeTLVs_cons]
    intro h0
    exact encodeTLV_ne_nil _ _ (List.append_eq_nil_iff.mp (List.length_eq_zero_iff.mp h0)).1

/-- One call appends its TLV to the text. It fails only if the text would not fit with this TLV, and a precondition fails only if the value
is NULL and not empty or the type is the last one. -/
theorem writerStep_spec {bytes maxBytes : Nat} {tlvs : List (UInt8 × List UInt8)} {m : Mem} {writer : HAPTLVWriter}
    (h : Wrote bytes maxBytes tlvs m writer) (call : Mem × HAPTLV) :
    match writerStep (m, writer) call with
    | .ok ((m', writer'), tlv) => tlv = callTLV (m, writer) call ∧ Wrote bytes maxBytes (tlvs ++ [tlv]) m' writer'
    | .error (.failed err) => err = .outOfResources ∧ maxBytes < (encodeTLVs (tlvs ++ [callTLV (m, writer) call])).length
    | .error .precondition =>
      call.2.bytes = none ∧ call.2.numBytes ≠ 0 ∨ (tlvs.map Prod.fst).getLast? = some call.2.type := by
  obtain ⟨client, tlv⟩ := call
  obtain ⟨m₁, hm₁⟩ : ∃ m₁, m₁ = memoryAt (m, writer) client := ⟨_, rfl⟩
  simp only [writerStep, callTLV, ← hm₁]
  by_cases hnull : tlv.bytes = none ∧ tlv.numBytes ≠ 0
  · rw [if_pos hnull]
    exact Or.inl hnull
  rw [if_neg hnull]
  by_cases htype : writer.numBytes ≠ 0 ∧ tlv.type = writer.lastType
  · rw [if_pos htype]
    exact Or.inr ((h.getLast?_iff tlv.type).mpr htype)
  rw [if_neg htype]
  obtain ⟨hok, herr⟩ := hapTLVWriterAppend_spec m₁ writer tlv (fun hb => by by_contra hn; exact hnull ⟨hb, hn⟩) h.room
  have hlen := h.length
  have hsingle : ∀ value, encodeTLVs (tlvs ++ [(tlv.type, value)]) = encodeTLVs tlvs ++ encodeTLV tlv.type value := by
    intro value
    rw [encodeTLVs_append]
    simp
  have hmax := h.capacity
  by_cases hroom : writer.numBytes + (encodeTLV tlv.type (tlv.value m₁)).length ≤ writer.maxBytes
  · obtain ⟨m', happend, htext⟩ := hok hroom
    rw [happend]
    refine ⟨rfl, h.base, h.capacity, hroom, ?_, ?_, ?_⟩
    · have hkept : slice m₁ writer.bytes writer.numBytes = slice m writer.bytes writer.numBytes := by
        refine slice_congr fun x h1 h2 => ?_
        rw [hm₁]
        exact if_pos ⟨h1, h2⟩
      rw [← h.base, htext, hkept, h.base, h.text, hsingle]
    · unfold Separated
      rw [List.map_append, List.isChain_append]
      refine ⟨h.separated, by simp, fun t ht u hu => ?_⟩
      simp only [List.map_cons, List.map_nil, List.head?_cons, Option.mem_def, Option.some.injEq] at hu
      subst hu
      rintro rfl
      exact htype ((h.getLast?_iff _).mp ht)
    · simp
  · have he := herr (by omega)
    obtain ⟨r, hr⟩ : ∃ r, hapTLVWriterAppend m₁ writer tlv = r := ⟨_, rfl⟩
    rw [hr] at he ⊢
    obtain ⟨err, m', writer'⟩ := r
    cases he
    refine ⟨rfl, ?_⟩
    rw [hsingle, List.length_append]
    omega

/-- The calls of a run that returns, one after the other. -/
theorem run_wrote {bytes maxBytes : Nat} {calls : List (Mem × HAPTLV)} :
    ∀ {m m' : Mem} {writer writer' : HAPTLVWriter} {done tlvs : List (UInt8 × List UInt8)}, Wrote bytes maxBytes done m writer →
      run writerStep (m, writer) calls = .ok ((m', writer'), tlvs) →
      tlvs.map Prod.fst = calls.map (·.2.type) ∧ Wrote bytes maxBytes (done ++ tlvs) m' writer' := by
  induction calls with
  | nil =>
    intro m m' writer writer' done tlvs h hrun
    cases hrun
    exact ⟨rfl, by simpa using h⟩
  | cons call calls ih =>
    intro m m' writer writer' done tlvs h hrun
    obtain ⟨⟨m₁, writer₁⟩, tlv, rest, hs, hr, rfl⟩ := run_cons_ok hrun
    have hstep := writerStep_spec h call
    rw [hs] at hstep
    obtain ⟨rfl, hw⟩ := hstep
    obtain ⟨htypes, hw₂⟩ := ih hw hr
    exact ⟨by rw [List.map_cons, List.map_cons, htypes]; rfl, by simpa using hw₂⟩

end TlvWriterAux

/-- After any calls of `HAPTLVWriterAppend` the buffer is the text of what was appended, and whoever asks `HAPTLVReaderGetAll` for types
of which none was appended twice gets these values. A call fails only if the text of what the calls before it have appended does not fit
together with its own TLV, and a precondition of a call fails only if its value is NULL and not empty or its type was appended last. -/
theorem hapTLVWriter_run (m : Mem) (bytes maxBytes : Nat) (calls : List (Mem × HAPTLV)) :
    match run writerStep (m, hapTLVWriterCreate bytes maxBytes) calls with
    | .ok ((m', writer), tlvs) =>
      slice m' bytes writer.numBytes = encodeTLVs tlvs ∧ writer.numBytes ≤ maxBytes ∧ Separated tlvs ∧
        tlvs.map Prod.fst = calls.map (·.2.type) ∧
        ∀ requested : RequestedTypes, AtMostOnce requested.1 tlvs →
          ∃ items m'' reader, hapTLVReaderGetAll m' ⟨bytes, writer.numBytes, maxBytes⟩ requested = .ok (items, m'', reader) ∧
            items.map (HAPTLV.found m'') = requested.1.map (tlvs.lookup ·)
    | .error fault =>
      ∃ before call after s tlvs, calls = before ++ call :: after ∧
        run writerStep (m, hapTLVWriterCreate bytes maxBytes) before = .ok (s, tlvs) ∧
        (fault = .failed .outOfResources ∧
            maxBytes < (encodeTLVs (tlvs ++ [(call.2.type, call.2.value (memoryAt s call.1))])).length ∨
          fault = .precondition ∧
            (call.2.bytes = none ∧ call.2.numBytes ≠ 0 ∨ (tlvs.map Prod.fst).getLast? = some call.2.type)) := by
  have hstart := Wrote.start m bytes maxBytes
  cases hr : run writerStep (m, hapTLVWriterCreate bytes maxBytes) calls with
  | error fault =>
    obtain ⟨before, call, after, ⟨m', writer⟩, tlvs, hcalls, hbefore, hcall⟩ := run_error hr
    refine ⟨before, call, after, (m', writer), tlvs, hcalls, hbefore, ?_⟩
    obtain ⟨-, hw⟩ := run_wrote hstart hbefore
    have hstep := writerStep_spec hw call
    rw [hcall] at hstep
    cases fault with
    | precondition => exact Or.inr ⟨rfl, hstep⟩
    | failed err =>
      obtain ⟨rfl, hfull⟩ := hstep
      exact Or.inl ⟨rfl, hfull⟩
  | ok r =>
    obtain ⟨⟨m', writer⟩, tlvs⟩ := r
    obtain ⟨htypes, hw⟩ := run_wrote hstart hr
    rw [List.nil_append] at hw
    refine ⟨hw.text, hw.capacity ▸ hw.room, hw.separated, htypes, fun requested honce => ?_⟩
    exact getAll_of_text hw.text hw.separated honce

end CGuard
