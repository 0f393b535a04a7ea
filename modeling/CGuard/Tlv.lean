import CGuard.KeyValueStore
import CGuard.Lib.ByteMemory

/-!
# The TLV8 format

`HAPTLVReader.c` and `HAPTLVWriter.c` of the HomeKit ADK: the reader merges the fragments of a value in the buffer that it reads, and the
writer moves a value that may lie in the buffer that it writes. Both work in one memory, and a pointer is an address of it.
-/

namespace CGuard

open ByteMemory

/-- The memory of the process. -/
abbrev Mem : Type := Nat → UInt8

/-- (HAPTLV.h) `HAPTLV`: the type, and the value as a pointer, which may be NULL, and a length. -/
structure HAPTLV where
  type : UInt8
  bytes : Option Nat
  numBytes : Nat
  deriving DecidableEq

/-- What the value pointer of a TLV names in a memory. -/
def HAPTLV.value (m : Mem) (tlv : HAPTLV) : List UInt8 :=
  match tlv.bytes with
  | none => []
  | some p => slice m p tlv.numBytes

/-! ## Reader -/

/-- (HAPTLV+Internal.h) `HAPTLVReader`, with sequential access. -/
structure HAPTLVReader where
  bytes : Nat
  numBytes : Nat
  maxBytes : Nat

/-- "Merge TLV body": the fragment at the offset `o`, of which `numFragments` came before, moves to the end of the value, and the space
that the headers took is zeroed. -/
def mergeTLVBody (m : Mem) (bytes o numFragments numFragmentBytes : Nat) : Mem :=
  fill (move m (bytes + (o - 2 * numFragments)) (bytes + o + 2) numFragmentBytes)
    (bytes + (o + numFragmentBytes + 2 - 2 * (numFragments + 1))) (2 * (numFragments + 1)) 0

/-- "Read additional chunks (long TLV)": the loop of `HAPTLVReaderGetNext`, with the offset `o`, the bytes that are left after it, the
number of fragments and the length of the value so far. -/
def readAdditionalChunks (type : UInt8) (bytes : Nat) (m : Mem) (o maxBytes numFragments numBytes : Nat) :
    Except HAPError (Mem × Nat × Nat) :=
  if maxBytes ≠ 0 ∧ m (bytes + o) = type then
    if maxBytes < 2 then .error .invalidData
    else if numBytes ≠ numFragments * 255 then .error .invalidData
    else
      let numFragmentBytes := (m (bytes + o + 1)).toNat
      if numFragmentBytes = 0 then .error .invalidData
      else if maxBytes - 2 < numFragmentBytes then .error .invalidData
      else
        readAdditionalChunks type bytes (mergeTLVBody m bytes o numFragments numFragmentBytes) (o + numFragmentBytes + 2)
          (maxBytes - 2 - numFragmentBytes) (numFragments + 1) (numBytes + numFragmentBytes)
  else .ok (m, o, numBytes)
termination_by maxBytes

/-- (HAPTLVReader.c) `HAPTLVReaderGetNext`: the next TLV, if there is one, the memory in which its value has been merged, and the
reader after it. -/
def hapTLVReaderGetNext (m : Mem) (reader : HAPTLVReader) : Except HAPError (Option HAPTLV × Mem × HAPTLVReader) :=
  let maxBytes := reader.numBytes
  if maxBytes = 0 then .ok (none, m, reader)
  else if maxBytes < 2 then .error .invalidData
  else
    let type := m reader.bytes
    let numFragmentBytes := (m (reader.bytes + 1)).toNat
    if maxBytes - 2 < numFragmentBytes then .error .invalidData
    else do
      let (m, o, numBytes) ← readAdditionalChunks type reader.bytes (mergeTLVBody m reader.bytes 0 0 numFragmentBytes)
        (numFragmentBytes + 2) (maxBytes - 2 - numFragmentBytes) 1 numFragmentBytes
      .ok (some ⟨type, some reader.bytes, numBytes⟩, m,
        { bytes := reader.bytes + o, numBytes := reader.numBytes - o, maxBytes := reader.maxBytes - o })

/-- "Match TLV": the TLV is saved in the requested item of its type, which must not have one yet. Other types are ignored. -/
def matchTLV (tlv : HAPTLV) : List HAPTLV → Except HAPError (List HAPTLV)
  | [] => .ok []
  | item :: items =>
    if item.type = tlv.type then
      if item.bytes.isSome then .error .invalidData else .ok (tlv :: items)
    else (matchTLV tlv items).map (item :: ·)

/-- The loop only moves on. -/
theorem readAdditionalChunks_le {type : UInt8} {bytes maxBytes : Nat} :
    ∀ {m m' : Mem} {o numFragments numBytes o' n' : Nat},
      readAdditionalChunks type bytes m o maxBytes numFragments numBytes = .ok (m', o', n') → o ≤ o' := by
  induction maxBytes using Nat.strongRecOn with
  | ind maxBytes ih =>
    intro m m' o numFragments numBytes o' n' h
    rw [readAdditionalChunks] at h
    simp only at h
    split_ifs at h with hc h2 hn h0 hl
    · have := ih _ (by omega) h
      omega
    · cases h
      exact Nat.le_refl _

/-- A TLV takes at least two bytes of what is left to read. -/
theorem hapTLVReaderGetNext_lt {m m' : Mem} {reader reader' : HAPTLVReader} {tlv : HAPTLV}
    (h : hapTLVReaderGetNext m reader = .ok (some tlv, m', reader')) : reader'.numBytes < reader.numBytes := by
  unfold hapTLVReaderGetNext at h
  simp only at h
  split_ifs at h with h0 h2 hl
  · cases h
  · obtain ⟨⟨m₁, o, numBytes⟩, hr, h⟩ := bind_ok h
    cases h
    have := readAdditionalChunks_le hr
    show reader.numBytes - o < reader.numBytes
    omega

/-- The loop of `HAPTLVReaderGetAll`. -/
def getAllLoop (m : Mem) (reader : HAPTLVReader) (items : List HAPTLV) : Except HAPError (List HAPTLV × Mem × HAPTLVReader) :=
  match _h : hapTLVReaderGetNext m reader with
  | .error err => .error err
  | .ok (none, m, reader) => .ok (items, m, reader)
  | .ok (some tlv, m, reader') =>
    match matchTLV tlv items with
    | .error err => .error err
    | .ok items => getAllLoop m reader' items
termination_by reader.numBytes
decreasing_by exact hapTLVReaderGetNext_lt _h

/-- The types a caller asks for, which are distinct ("Check for duplicate type"). -/
abbrev RequestedTypes : Type := { types : List UInt8 // types.Nodup }

/-- "Initialize TLV": the items before the first TLV is read. -/
def initializeTLVs (types : List UInt8) : List HAPTLV := types.map fun type => ⟨type, none, 0⟩

/-- (HAPTLVReader.c) `HAPTLVReaderGetAll`: an item that has not been found is NULL. -/
def hapTLVReaderGetAll (m : Mem) (reader : HAPTLVReader) (requested : RequestedTypes) :
    Except HAPError (List HAPTLV × Mem × HAPTLVReader) :=
  getAllLoop m reader (initializeTLVs requested.1)

/-! ## Writer -/

/-- (HAPTLV+Internal.h) `HAPTLVWriter`. -/
structure HAPTLVWriter where
  bytes : Nat
  maxBytes : Nat
  numBytes : Nat
  lastType : UInt8

/-- (HAPTLVWriter.c) `HAPTLVWriterCreate`. -/
def hapTLVWriterCreate (bytes maxBytes : Nat) : HAPTLVWriter where
  bytes := bytes
  maxBytes := maxBytes
  numBytes := 0
  lastType := 0

/-- "Serialize fragment": the two bytes of the header. -/
def serializeFragment (type : UInt8) (m : Mem) (writer : HAPTLVWriter) (numFragmentBytes : Nat) : Mem :=
  Function.update (Function.update m (writer.bytes + writer.numBytes) type) (writer.bytes + writer.numBytes + 1)
    (UInt8.ofNat numFragmentBytes)

/-- The loop of `HAPTLVWriterAppend`, with the room that is left and the rest of the value. A failure leaves the fragments that have
been written. -/
def serializeFragments (type : UInt8) (m : Mem) (writer : HAPTLVWriter) (maxDestinationBytes : Nat) (valueBytes : Option Nat)
    (numValueBytes : Nat) : HAPError × Mem × HAPTLVWriter :=
  let numFragmentBytes := min numValueBytes 255
  if maxDestinationBytes < 2 then (.outOfResources, m, writer)
  else
    match valueBytes with
    | some p =>
      if maxDestinationBytes - 2 < numValueBytes then (.outOfResources, m, writer)
      else
        -- the whole rest of the value is copied, with the fragments that follow
        let m := move m (writer.bytes + writer.numBytes + 2) p numValueBytes
        let m := serializeFragment type m writer numFragmentBytes
        let writer' := { writer with numBytes := writer.numBytes + 2 + numFragmentBytes }
        if numValueBytes - numFragmentBytes = 0 then (.none, m, { writer' with lastType := type })
        else
          serializeFragments type m writer' (maxDestinationBytes - 2 - numFragmentBytes)
            (some (writer.bytes + writer.numBytes + 2 + numFragmentBytes)) (numValueBytes - numFragmentBytes)
    | none => (.none, serializeFragment type m writer 0, { writer with numBytes := writer.numBytes + 2, lastType := type })
termination_by numValueBytes
decreasing_by omega

/-- (HAPTLVWriter.c) `HAPTLVWriterAppend` of a TLV whose type is not the last one, and whose length is 0 if its value is NULL. -/
def hapTLVWriterAppend (m : Mem) (writer : HAPTLVWriter) (tlv : HAPTLV) : HAPError × Mem × HAPTLVWriter :=
  serializeFragments tlv.type m writer (writer.maxBytes - writer.numBytes) tlv.bytes tlv.numBytes

end CGuard
