import CGuard.Lemmas.PairingRequests
import CGuard.Theorems.TlvWriter

/-!
# The responses and the writer of TLVs

`WrittenTLVs` names the TLVs that a `HAPTLVWriter` has written. Here it is what calls of `HAPTLVWriterAppend` leave in the buffer, wherever
the values of the calls lie outside of what is written.
-/

namespace CGuard

open ByteMemory Machine TlvReaderAux TlvWriterAux PairingsAux

/-- Calls whose values are those of the TLVs, when these are appended behind `done`: a value may lie in the free part of the buffer. -/
inductive Provides (bytes : Nat) : List (UInt8 × List UInt8) → List (Mem × HAPTLV) → List (UInt8 × List UInt8) → Prop
  | nil {done : List (UInt8 × List UInt8)} : Provides bytes done [] []
  | empty {done tlvs : List (UInt8 × List UInt8)} {calls : List (Mem × HAPTLV)} {type : UInt8} {client : Mem} :
      Provides bytes (done ++ [(type, [])]) calls tlvs → Provides bytes done ((client, ⟨type, none, 0⟩) :: calls) ((type, []) :: tlvs)
  | value {done tlvs : List (UInt8 × List UInt8)} {calls : List (Mem × HAPTLV)} {type : UInt8} {client : Mem} {p n : Nat} :
      p + n ≤ bytes ∨ bytes + (encodeTLVs done).length ≤ p → Provides bytes (done ++ [(type, slice client p n)]) calls tlvs →
      Provides bytes done ((client, ⟨type, some p, n⟩) :: calls) ((type, slice client p n) :: tlvs)

namespace WrittenTLVsAux

variable {bytes maxBytes : Nat} {done tlvs : List (UInt8 × List UInt8)} {m : Mem} {writer : HAPTLVWriter}

/-- What has been written does not cover the value of a call. -/
theorem slice_memoryAt (h : Wrote bytes maxBytes done m writer) (client : Mem) {p n : Nat}
    (hout : p + n ≤ bytes ∨ bytes + (encodeTLVs done).length ≤ p) : slice (memoryAt (m, writer) client) p n = slice client p n := by
  refine slice_congr fun x hlow hhigh => if_neg ?_
  have hlen := h.length
  have hbase := h.base
  simp only [hbase]
  omega

/-- One call: it appends the TLV that it provides, or there is no room for it. -/
theorem call_written {call : Mem × HAPTLV} {tlv : UInt8 × List UInt8} (h : Wrote bytes maxBytes done m writer)
    (hcall : callTLV (m, writer) call = tlv) (hnull : call.2.bytes = none → call.2.numBytes = 0) (hsep : Separated (done ++ [tlv])) :
    (encodeTLVs (done ++ [tlv])).length ≤ maxBytes ∧
        (∃ m' writer', writerStep (m, writer) call = .ok ((m', writer'), tlv) ∧ Wrote bytes maxBytes (done ++ [tlv]) m' writer') ∨
      maxBytes < (encodeTLVs (done ++ [tlv])).length ∧ writerStep (m, writer) call = .error (.failed .outOfResources) := by
  have hstep := writerStep_spec h call
  subst hcall
  rcases hs : writerStep (m, writer) call with fault | ⟨⟨m', writer'⟩, tlv'⟩ <;> rw [hs] at hstep
  · cases fault with
    | precondition =>
      exfalso
      rcases hstep with ⟨hnone, hne⟩ | hlast
      · exact hne (hnull hnone)
      · unfold Separated at hsep
        rw [List.map_append, List.isChain_append] at hsep
        exact hsep.2.2 _ hlast _ rfl rfl
    | failed err =>
      obtain ⟨rfl, hfull⟩ := hstep
      exact Or.inr ⟨hfull, rfl⟩
  · obtain ⟨rfl, hw⟩ := hstep
    refine Or.inl ⟨?_, m', writer', rfl, hw⟩
    rw [hw.length, ← hw.capacity]
    exact hw.room

/-- The first TLV is separated from what was written, as all are. -/
theorem separated_first {tlv : UInt8 × List UInt8} (h : Separated (done ++ tlv :: tlvs)) : Separated (done ++ [tlv]) := by
  unfold Separated at h ⊢
  rw [List.append_cons, List.map_append] at h
  exact (List.isChain_append.mp h).1

/-- A call that provides a TLV does what `WrittenTLVs.append` says of it, and the calls behind it go on from there. -/
theorem append_cons_run {writer₀ : WrittenTLVs} {call : Mem × HAPTLV} {calls : List (Mem × HAPTLV)} {tlv : UInt8 × List UInt8}
    (h : Wrote bytes writer₀.maxBytes writer₀.tlvs m writer) (hcall : callTLV (m, writer) call = tlv)
    (hnull : call.2.bytes = none → call.2.numBytes = 0) (hsep : Separated (writer₀.tlvs ++ tlv :: tlvs))
    (hrest : ∀ {m' writer'}, Wrote bytes writer₀.maxBytes (writer₀.tlvs ++ [tlv]) m' writer' →
      (∃ m'' writer'', run writerStep (m', writer') calls = .ok ((m'', writer''), tlvs) ∧
          Wrote bytes writer₀.maxBytes (writer₀.tlvs ++ [tlv] ++ tlvs) m'' writer'' ∧
          WrittenTLVs.append { writer₀ with tlvs := writer₀.tlvs ++ [tlv] } tlvs =
            (.none, { writer₀ with tlvs := writer₀.tlvs ++ [tlv] ++ tlvs })) ∨
        run writerStep (m', writer') calls = .error (.failed .outOfResources) ∧
          ∃ writer₁, WrittenTLVs.append { writer₀ with tlvs := writer₀.tlvs ++ [tlv] } tlvs = (.outOfResources, writer₁)) :
    (∃ m'' writer'', run writerStep (m, writer) (call :: calls) = .ok ((m'', writer''), tlv :: tlvs) ∧
        Wrote bytes writer₀.maxBytes (writer₀.tlvs ++ tlv :: tlvs) m'' writer'' ∧
        writer₀.append (tlv :: tlvs) = (.none, { writer₀ with tlvs := writer₀.tlvs ++ tlv :: tlvs })) ∨
      run writerStep (m, writer) (call :: calls) = .error (.failed .outOfResources) ∧
        ∃ writer₁, writer₀.append (tlv :: tlvs) = (.outOfResources, writer₁) := by
  rw [WrittenTLVs.append, List.append_cons]
  rcases call_written h hcall hnull (separated_first hsep) with ⟨hfits, m', writer', hstep, hw⟩ | ⟨hfull, hstep⟩
  · rw [if_pos hfits]
    refine (hrest hw).imp ?_ ?_
    · rintro ⟨m'', writer'', hrun, hw', happend⟩
      exact ⟨m'', writer'', run_cons hstep hrun, hw', happend⟩
    · rintro ⟨hrun, happend⟩
      exact ⟨by simp only [run, hstep, hrun], happend⟩
  · rw [if_neg (by omega)]
    exact Or.inr ⟨by rw [run, hstep], _, rfl⟩

end WrittenTLVsAux

open WrittenTLVsAux

/-- The calls of `HAPTLVWriterAppend` that provide TLVs do what `WrittenTLVs.append` says: they leave the text of these TLVs behind what was
written, or one of them answers that there is no room. -/
theorem WrittenTLVs.append_run {bytes : Nat} {calls : List (Mem × HAPTLV)} {tlvs : List (UInt8 × List UInt8)} {writer₀ : WrittenTLVs}
    {m : Mem} {writer : HAPTLVWriter} (h : Wrote bytes writer₀.maxBytes writer₀.tlvs m writer)
    (hprovides : Provides bytes writer₀.tlvs calls tlvs) (hsep : Separated (writer₀.tlvs ++ tlvs)) :
    (∃ m' writer', run writerStep (m, writer) calls = .ok ((m', writer'), tlvs) ∧
        Wrote bytes writer₀.maxBytes (writer₀.tlvs ++ tlvs) m' writer' ∧
        writer₀.append tlvs = (.none, { writer₀ with tlvs := writer₀.tlvs ++ tlvs })) ∨
      run writerStep (m, writer) calls = .error (.failed .outOfResources) ∧ ∃ writer₁, writer₀.append tlvs = (.outOfResources, writer₁) := by
  obtain ⟨done, hdone⟩ : ∃ done, writer₀.tlvs = done := ⟨_, rfl⟩
  rw [hdone] at hprovides
  induction hprovides generalizing writer₀ m writer with
  | nil =>
    rw [List.append_nil]
    exact Or.inl ⟨m, writer, rfl, h, rfl⟩
  | empty hprovides ih =>
    subst hdone
    refine append_cons_run h rfl (fun _ => rfl) hsep fun hw => @ih ⟨writer₀.maxBytes, _⟩ _ _ hw ?_ rfl
    rwa [List.append_assoc, List.singleton_append]
  | value hout hprovides ih =>
    subst hdone
    refine append_cons_run h ?_ (fun hnone => by cases hnone) hsep fun hw => @ih ⟨writer₀.maxBytes, _⟩ _ _ hw ?_ rfl
    · exact Prod.ext rfl (slice_memoryAt h _ hout)
    · rwa [List.append_assoc, List.singleton_append]

end CGuard
