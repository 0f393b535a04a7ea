import CGuard.Lemmas.IpSecurity
import CGuard.Lib.Machine
import CGuard.Theorems.ChaChaPoly

/-!
# The secured stream

`HAPIPSecurityProtocolEncryptData` makes frames in place that any receiver with the same key and counter turns back into the data, and the
inbound buffer of a session is a stream of plaintext that the requests are taken from.
-/

namespace CGuard

open ByteMemory Machine

/-- The inbound side of a session as it is meant: what the reader of the requests has in front of it, the part of a frame that has come,
and the security of the session. -/
structure SecureStream where
  unread : List UInt8
  pending : List UInt8
  session : HAPSessionSecurity
  deriving DecidableEq

/-- What comes in, through the channel once the session is secured. -/
def SecureStream.receive (aead : ChaCha20Poly1305) (t : SecureStream) (chunk : List UInt8) : Option Opened :=
  if t.session.active then openFrames aead t.session.controllerToAccessory (t.pending ++ chunk)
  else some ⟨t.pending ++ chunk, [], t.session.controllerToAccessory⟩

/-- One event. The bytes of a request that has been handled are taken off the front, and where the part of a frame was, there are the
bytes now that were as many places before it. -/
def SecureStream.step (aead : ChaCha20Poly1305) (capacity : Nat) (t : SecureStream) (event : InboundEvent) :
    Except InboundFault (SecureStream × List UInt8) :=
  if capacity - (t.unread.length + t.pending.length) < event.chunk.length then .error .precondition
  else
    match t.receive aead event.chunk with
    | none => .error .decryption
    | some o =>
      let unread := t.unread ++ o.plaintext
      let session := { t.session with controllerToAccessory := o.channel }
      match event.request with
      | none =>
        if unread.length + o.rest.length = capacity then .error .bufferTooSmall else .ok (⟨unread, o.rest, session⟩, o.plaintext)
      | some (n, secured) =>
        if unread.length < n then .error .precondition
        else
          .ok (⟨unread.drop n, (unread.drop (unread.length - n) ++ o.rest).take o.rest.length, secured.getD session⟩, o.plaintext)

/-- The buffer of a session holds the stream. -/
structure HoldsStream (capacity : Nat) (s : Inbound) (t : SecureStream) : Prop where
  session : s.session = t.session
  limit : s.buffer.limit = capacity
  size : s.buffer.capacity = capacity
  mark : s.inboundBufferMark = t.unread.length
  position : s.buffer.position = t.unread.length + t.pending.length
  within : s.buffer.position ≤ capacity
  unread : slice s.buffer.data 0 t.unread.length = t.unread
  pending : slice s.buffer.data t.unread.length t.pending.length = t.pending

/-- (HAPIPAccessoryServer.c) the inbound side of a session that has been opened. -/
def Inbound.opened (data : Mem) (capacity : Nat) (session : HAPSessionSecurity) : Inbound :=
  ⟨⟨data, capacity, 0, capacity⟩, 0, session⟩

/-- The bytes that have come. -/
def arrived (events : List InboundEvent) : List UInt8 := (events.map (·.chunk)).flatten

/-- How many bytes the requests have that have been handled. -/
def handledBytes (events : List InboundEvent) : Nat := (events.map fun e => (e.request.map Prod.fst).getD 0).sum

/-- No handler of a request gives the session another security. -/
def KeepsSession (events : List InboundEvent) : Prop := ∀ e ∈ events, ∀ r, e.request = some r → r.2 = none

/-- Whenever a request is handled, the frames that have come are whole. -/
def WholeFrames (aead : ChaCha20Poly1305) (channel : HAPSessionChannelState) (events : List InboundEvent) : Prop :=
  ∀ pre e post, events = pre ++ e :: post → e.request ≠ none → ∀ o, openFrames aead channel (arrived (pre ++ [e])) = some o → o.rest = []

namespace SecureStreamAux

theorem arrived_cons (e : InboundEvent) (events : List InboundEvent) : arrived (e :: events) = e.chunk ++ arrived events := rfl

theorem handledBytes_cons (e : InboundEvent) (events : List InboundEvent) :
    handledBytes (e :: events) = handledBytes [e] + handledBytes events := by
  simp [handledBytes]

theorem holdsStream_opened (data : Mem) (capacity : Nat) (session : HAPSessionSecurity) :
    HoldsStream capacity (Inbound.opened data capacity session) ⟨[], [], session⟩ where
  session := rfl
  limit := rfl
  size := rfl
  mark := rfl
  position := rfl
  within := Nat.zero_le _
  unread := rfl
  pending := rfl

/-- What has been decrypted in the buffer is what the stream receives. -/
theorem receive_spec (aead : ChaCha20Poly1305) {capacity : Nat} {s : Inbound} {t : SecureStream} (h : HoldsStream capacity s t)
    (chunk : List UInt8) (hroom : chunk.length ≤ capacity - (t.unread.length + t.pending.length)) :
    let limit := s.buffer.position + chunk.length
    let data := store s.buffer.data s.buffer.position chunk
    let result := if s.session.active then hapIPSecurityProtocolDecryptData aead s.session data s.inboundBufferMark limit
      else (.none, data, limit, limit, s.session)
    match t.receive aead chunk with
    | none => result.1 = .invalidData
    | some o =>
      ∃ data', result = (.none, data', t.unread.length + o.plaintext.length, t.unread.length + o.plaintext.length + o.rest.length,
          { t.session with controllerToAccessory := o.channel }) ∧
        slice data' 0 (t.unread.length + o.plaintext.length) = t.unread ++ o.plaintext ∧
        slice data' (t.unread.length + o.plaintext.length) o.rest.length = o.rest ∧
        t.unread.length + o.plaintext.length + o.rest.length ≤ capacity := by
  obtain ⟨data, hdata⟩ : ∃ data, store s.buffer.data s.buffer.position chunk = data := ⟨_, rfl⟩
  have hlow : slice data 0 t.unread.length = t.unread := by
    rw [← hdata, slice_store_of_disjoint (Or.inl (by rw [h.position]; omega)), h.unread]
  have hcome : slice data t.unread.length (t.pending.length + chunk.length) = t.pending ++ chunk := by
    rw [slice_add, ← hdata, slice_store_of_disjoint (Or.inl (by rw [h.position])), h.pending, h.position, slice_store]
  have hwithin := h.within
  rw [h.position] at hwithin
  simp only [hdata, SecureStream.receive, h.session, h.mark]
  by_cases hactive : t.session.active = true
  · simp only [if_pos hactive]
    have hspec := @decryptData_spec aead (t.pending.length + chunk.length) t.session data t.unread.length
      (s.buffer.position + chunk.length) (by rw [h.position]; omega) hactive (by rw [h.position]; omega)
    rw [hcome] at hspec
    cases ho : openFrames aead t.session.controllerToAccessory (t.pending ++ chunk) with
    | none =>
      rw [ho] at hspec
      exact hspec
    | some o =>
      rw [ho] at hspec
      obtain ⟨data', hrun, hp, hr, hfit, hframe⟩ := hspec
      refine ⟨data', hrun, ?_, hr, by omega⟩
      rw [slice_add, Nat.zero_add, hp]
      congr 1
      rw [← hlow, length_slice]
      exact slice_congr fun x _ hx => hframe x (by omega)
  · simp only [if_neg hactive, List.length_append, List.length_nil]
    refine ⟨data, ?_, ?_, rfl, by omega⟩
    · rw [h.position, Nat.add_assoc]
      rfl
    · rw [slice_add, Nat.zero_add, hlow, hcome]

/-- One event in the buffer is one step of the stream. -/
theorem handleInput_agree (aead : ChaCha20Poly1305) {capacity : Nat} (s : Inbound) (t : SecureStream) (event : InboundEvent)
    (h : HoldsStream capacity s t) :
    Agree (HoldsStream capacity) (handleInput aead s event) (SecureStream.step aead capacity t event) := by
  simp only [handleInput, SecureStream.step, h.limit, h.size]
  rw [h.position]
  by_cases hroom : capacity - (t.unread.length + t.pending.length) < event.chunk.length
  · rw [if_pos hroom, if_pos hroom]
    rfl
  · rw [if_neg hroom, if_neg hroom]
    have hspec := receive_spec aead h event.chunk (by omega)
    simp only [h.position] at hspec
    cases ho : t.receive aead event.chunk with
    | none =>
      rw [ho] at hspec
      split
      · rename_i hresult
        rw [hresult] at hspec
        cases hspec
      · rfl
    | some o =>
      rw [ho] at hspec
      obtain ⟨data', hresult, hunread, hpending, hfit⟩ := hspec
      rw [hresult]
      obtain ⟨u, hu⟩ : ∃ u, t.unread ++ o.plaintext = u := ⟨_, rfl⟩
      have hulen : t.unread.length + o.plaintext.length = u.length := by rw [← hu, List.length_append]
      rw [hu] at hunread
      have hout : slice data' s.inboundBufferMark (u.length - s.inboundBufferMark) = o.plaintext := by
        rw [← hulen, h.mark, Nat.add_sub_cancel_left]
        rw [slice_add, Nat.zero_add, ← hu] at hunread
        exact (List.append_inj' hunread (by simp)).2
      simp only [hulen, hu, hout] at hunread hpending hfit ⊢
      cases hr : event.request with
      | none =>
        simp only
        by_cases hfull : u.length + o.rest.length = capacity
        · rw [if_pos hfull, if_pos hfull]
          rfl
        · rw [if_neg hfull, if_neg hfull]
          exact ⟨⟨rfl, rfl, rfl, rfl, rfl, hfit, hunread, hpending⟩, rfl⟩
      | some handled =>
        obtain ⟨n, secured⟩ := handled
        simp only
        by_cases hn : u.length < n
        · rw [if_pos hn, if_pos hn]
          rfl
        · rw [if_neg hn, if_neg hn]
          have hrestlen : ((u.drop (u.length - n) ++ o.rest).take o.rest.length).length = o.rest.length := by
            rw [List.length_take, List.length_append]
            omega
          refine ⟨⟨rfl, rfl, rfl, ?_, ?_, ?_, ?_, ?_⟩, rfl⟩
          · simp only [hapIPByteBufferShiftLeft, List.length_drop]
          · simp only [hapIPByteBufferShiftLeft, List.length_drop, hrestlen]
            omega
          · simp only [hapIPByteBufferShiftLeft]
            omega
          · simp only [hapIPByteBufferShiftLeft, List.length_drop]
            rw [slice_move, ← congrArg (List.drop n) hunread, drop_slice, Nat.zero_add]
          · simp only [hapIPByteBufferShiftLeft, List.length_drop, hrestlen]
            rw [slice_move_of_disjoint (Or.inr (by omega))]
            have hsuffix : u.drop (u.length - n) = slice data' (u.length - n) n := by
              rw [← hunread, drop_slice, length_slice, Nat.zero_add]
              congr 1
              omega
            have hjoin : slice data' (u.length - n) n ++ o.rest = slice data' (u.length - n) (n + o.rest.length) := by
              rw [slice_add, Nat.sub_add_cancel (by omega), hpending]
            rw [hsuffix, hjoin, take_slice, Nat.min_eq_left (by omega)]

/-- A step whose handler leaves the security alone takes the request off the front, and keeps the part of a frame unless there is a
request while it is pending. -/
theorem step_spec (aead : ChaCha20Poly1305) (capacity : Nat) (t : SecureStream) {e : InboundEvent}
    (hkeep : ∀ r, e.request = some r → r.2 = none) :
    match SecureStream.step aead capacity t e with
    | .ok (t', out) =>
      ∃ o, t.receive aead e.chunk = some o ∧ out = o.plaintext ∧ handledBytes [e] ≤ (t.unread ++ o.plaintext).length ∧
        t'.unread = (t.unread ++ o.plaintext).drop (handledBytes [e]) ∧
        t'.session = { t.session with controllerToAccessory := o.channel } ∧ (e.request = none ∨ o.rest = [] → t'.pending = o.rest)
    | .error .decryption => t.receive aead e.chunk = none
    | .error _ => True := by
  rw [SecureStream.step]
  by_cases hroom : capacity - (t.unread.length + t.pending.length) < e.chunk.length
  · rw [if_pos hroom]
    trivial
  · rw [if_neg hroom]
    cases ho : t.receive aead e.chunk with
    | none => rfl
    | some o =>
      cases hr : e.request with
      | none =>
        have hn : handledBytes [e] = 0 := by simp [handledBytes, hr]
        by_cases hfull : (t.unread ++ o.plaintext).length + o.rest.length = capacity
        · simp only [if_pos hfull]
        · simp only [if_neg hfull, hn]
          exact ⟨o, rfl, rfl, Nat.zero_le _, rfl, rfl, fun _ => rfl⟩
      | some handled =>
        obtain ⟨n, secured⟩ := handled
        have hnone : secured = none := hkeep _ hr
        subst hnone
        have hn : handledBytes [e] = n := by simp [handledBytes, hr]
        by_cases hlt : (t.unread ++ o.plaintext).length < n
        · simp only [if_pos hlt]
        · simp only [if_neg hlt, hn]
          refine ⟨o, rfl, rfl, Nat.le_of_not_lt hlt, rfl, rfl, ?_⟩
          rintro (hno | hrest)
          · cases hno
          · rw [hrest]
            rfl

/-- While the session is not secured, the stream is what comes less what has been handled. -/
theorem clear_run (aead : ChaCha20Poly1305) (capacity : Nat) {session : HAPSessionSecurity} (hclear : session.active = false)
    {events : List InboundEvent} : ∀ {u : List UInt8}, KeepsSession events →
    match run (SecureStream.step aead capacity) ⟨u, [], session⟩ events with
    | .ok (t, outs) =>
      handledBytes events ≤ (u ++ arrived events).length ∧ t = ⟨(u ++ arrived events).drop (handledBytes events), [], session⟩ ∧
        outs.flatten = arrived events
    | .error fault => fault ≠ .decryption := by
  induction events with
  | nil => exact fun {u} _ => ⟨Nat.zero_le _, by simp [arrived, handledBytes], rfl⟩
  | cons e es ih =>
    intro u hkeep
    have hstep := step_spec aead capacity ⟨u, [], session⟩ (hkeep e List.mem_cons_self)
    have hreceive : SecureStream.receive aead ⟨u, [], session⟩ e.chunk = some ⟨e.chunk, [], session.controllerToAccessory⟩ := by
      rw [SecureStream.receive, if_neg (by rw [hclear]; decide)]
      rfl
    rw [run]
    cases hs : SecureStream.step aead capacity ⟨u, [], session⟩ e with
    | error fault =>
      rw [hs] at hstep
      rintro rfl
      rw [hreceive] at hstep
      cases hstep
    | ok r =>
      rw [hs] at hstep
      obtain ⟨t', out⟩ := r
      obtain ⟨o, ho, rfl, hle, hunread, hsession, hpending⟩ := hstep
      rw [hreceive] at ho
      cases ho
      have ht' : t' = ⟨(u ++ e.chunk).drop (handledBytes [e]), [], session⟩ := by
        obtain ⟨u', r', session'⟩ := t'
        simp only [SecureStream.mk.injEq]
        exact ⟨hunread, hpending (Or.inr rfl), hsession⟩
      subst ht'
      have hrest := @ih ((u ++ e.chunk).drop (handledBytes [e])) fun e' he' => hkeep e' (List.mem_cons_of_mem e he')
      dsimp only
      cases hrun : run (SecureStream.step aead capacity) ⟨(u ++ e.chunk).drop (handledBytes [e]), [], session⟩ es with
      | error fault =>
        rw [hrun] at hrest
        exact hrest
      | ok r =>
        rw [hrun] at hrest
        obtain ⟨hle', ht, hout⟩ := hrest
        refine ⟨?_, ?_, ?_⟩
        · rw [handledBytes_cons e es, arrived_cons, ← List.append_assoc]
          rw [List.length_append, List.length_drop] at hle'
          rw [List.length_append]
          dsimp only at hle
          omega
        · rw [ht, ← List.drop_append_of_le_length hle, List.drop_drop, handledBytes_cons e es, arrived_cons, List.append_assoc]
        · rw [List.flatten_cons, hout, arrived_cons]

/-- Once the session is secured, the stream is what is opened of all that comes, however it was cut. -/
theorem secured_run (aead : ChaCha20Poly1305) (capacity : Nat) {events : List InboundEvent} :
    ∀ {u r : List UInt8} {session : HAPSessionSecurity}, session.active = true → KeepsSession events →
    openFrames aead session.controllerToAccessory r = some ⟨[], r, session.controllerToAccessory⟩ →
    (∀ pre e post, events = pre ++ e :: post → e.request ≠ none → ∀ o,
      openFrames aead session.controllerToAccessory (r ++ arrived (pre ++ [e])) = some o → o.rest = []) →
    match run (SecureStream.step aead capacity) ⟨u, r, session⟩ events with
    | .ok (t, outs) =>
      ∃ o, openFrames aead session.controllerToAccessory (r ++ arrived events) = some o ∧ outs.flatten = o.plaintext ∧
        t = ⟨(u ++ o.plaintext).drop (handledBytes events), o.rest, { session with controllerToAccessory := o.channel }⟩
    | .error .decryption => openFrames aead session.controllerToAccessory (r ++ arrived events) = none
    | .error _ => True := by
  induction events with
  | nil =>
    intro u r session _ _ hr _
    exact ⟨_, by rw [arrived, List.map_nil, List.flatten_nil, List.append_nil]; exact hr, rfl, by simp [handledBytes]⟩
  | cons e es ih =>
    intro u r session hactive hkeep _ hwhole
    have hall := @openFrames_append aead session.controllerToAccessory (r ++ e.chunk) (arrived es)
    rw [List.append_assoc, ← arrived_cons] at hall
    have hstep := step_spec aead capacity ⟨u, r, session⟩ (hkeep e List.mem_cons_self)
    rw [SecureStream.receive, if_pos hactive] at hstep
    rw [run]
    cases hs : SecureStream.step aead capacity ⟨u, r, session⟩ e with
    | error fault =>
      rw [hs] at hstep
      cases fault with
      | precondition => trivial
      | bufferTooSmall => trivial
      | decryption => rw [hall, hstep]; rfl
    | ok result =>
      rw [hs] at hstep
      obtain ⟨t', out⟩ := result
      obtain ⟨o, ho, rfl, hle, hunread, hsession, hpending⟩ := hstep
      have hpending' : t'.pending = o.rest := by
        refine hpending ?_
        by_cases hreq : e.request = none
        · exact Or.inl hreq
        · refine Or.inr (hwhole [] e es rfl hreq o ?_)
          rw [List.nil_append, arrived_cons]
          simpa [arrived] using ho
      have ht' : t' = ⟨(u ++ o.plaintext).drop (handledBytes [e]), o.rest, { session with controllerToAccessory := o.channel }⟩ := by
        obtain ⟨u', r', session'⟩ := t'
        simp only [SecureStream.mk.injEq]
        exact ⟨hunread, hpending', hsession⟩
      subst ht'
      rw [ho, Option.bind_some] at hall
      have hrest := @ih ((u ++ o.plaintext).drop (handledBytes [e])) o.rest { session with controllerToAccessory := o.channel } hactive
        (fun e' he' => hkeep e' (List.mem_cons_of_mem e he')) (openFrames_rest ho) (by
          intro pre e' post hes hreq o' ho'
          refine hwhole (e :: pre) e' post (by rw [hes]; rfl) hreq { o' with plaintext := o.plaintext ++ o'.plaintext } ?_
          rw [List.cons_append, arrived_cons, ← List.append_assoc, openFrames_append, ho, Option.bind_some, ho']
          rfl)
      dsimp only
      cases hrun : run (SecureStream.step aead capacity)
        ⟨(u ++ o.plaintext).drop (handledBytes [e]), o.rest, { session with controllerToAccessory := o.channel }⟩ es with
      | error fault =>
        rw [hrun] at hrest
        cases fault with
        | precondition => trivial
        | bufferTooSmall => trivial
        | decryption => rw [hall, hrest]; rfl
      | ok result =>
        rw [hrun] at hrest
        obtain ⟨o', ho', hout, ht⟩ := hrest
        refine ⟨{ o' with plaintext := o.plaintext ++ o'.plaintext }, ?_, ?_, ?_⟩
        · rw [hall, ho']
          rfl
        · rw [List.flatten_cons, hout]
        · rw [ht, ← List.drop_append_of_le_length hle, List.drop_drop, handledBytes_cons e es, List.append_assoc]

/-- The whole life of a stream: in the clear, then secured by the handler of a request. -/
theorem secure_run (aead : ChaCha20Poly1305) (capacity : Nat) {session secured : HAPSessionSecurity} (hclear : session.active = false)
    (hsecured : secured.active = true) {clear events : List InboundEvent} (chunk : List UInt8) (n : Nat)
    (hkeepClear : KeepsSession clear) (hkeep : KeepsSession events) (hwhole : WholeFrames aead secured.controllerToAccessory events) :
    match run (SecureStream.step aead capacity) ⟨[], [], session⟩ (clear ++ ⟨chunk, some (n, some secured)⟩ :: events) with
    | .ok (t, outs) =>
      ∃ o, openFrames aead secured.controllerToAccessory (arrived events) = some o ∧
        outs.flatten = arrived clear ++ chunk ++ o.plaintext ∧
        t = ⟨((arrived clear ++ chunk).drop (handledBytes clear + n) ++ o.plaintext).drop (handledBytes events), o.rest,
          { secured with controllerToAccessory := o.channel }⟩
    | .error .decryption => openFrames aead secured.controllerToAccessory (arrived events) = none
    | .error _ => True := by
  have hfirst := @clear_run aead capacity session hclear clear [] hkeepClear
  rw [run_append_eq]
  cases hrun : run (SecureStream.step aead capacity) ⟨[], [], session⟩ clear with
  | error fault =>
    rw [hrun] at hfirst
    cases fault with
    | decryption => exact absurd rfl hfirst
    | precondition => trivial
    | bufferTooSmall => trivial
  | ok r =>
    rw [hrun] at hfirst
    obtain ⟨t, outs⟩ := r
    obtain ⟨hle, rfl, hout⟩ := hfirst
    rw [List.nil_append] at hle
    obtain ⟨u, hu⟩ : ∃ u, ([] ++ arrived clear).drop (handledBytes clear) = u := ⟨_, rfl⟩
    simp only [hu]
    rw [run, SecureStream.step]
    by_cases hroom : capacity - (u.length + ([] : List UInt8).length) < chunk.length
    · simp only [if_pos hroom]
    · rw [if_neg hroom, SecureStream.receive, if_neg (by rw [hclear]; decide)]
      simp only [List.nil_append, List.append_nil, List.length_nil, List.take_zero, Option.getD_some]
      by_cases hn : (u ++ chunk).length < n
      · simp only [if_pos hn]
      · rw [if_neg hn]
        have hrest := @secured_run aead capacity events ((u ++ chunk).drop n) [] secured hsecured hkeep
          (openFrames_of_incomplete (Or.inl (by simp))) hwhole
        rw [List.nil_append] at hrest
        dsimp only
        cases hrun' : run (SecureStream.step aead capacity) ⟨(u ++ chunk).drop n, [], secured⟩ events with
        | error fault =>
          rw [hrun'] at hrest
          cases fault <;> exact hrest
        | ok r =>
          rw [hrun'] at hrest
          obtain ⟨o, ho, hout', ht⟩ := hrest
          refine ⟨o, ho, ?_, ?_⟩
          · rw [List.flatten_append, List.flatten_cons, hout, hout', List.append_assoc]
          · rw [ht, ← hu, List.nil_append, ← List.drop_append_of_le_length hle, List.drop_drop]

/-- What `HAPIPSecurityProtocolEncryptData` has done, or why it has failed. -/
theorem encryptData_cases (aead : ChaCha20Poly1305) (session : HAPSessionSecurity) (buffer : HAPIPByteBuffer) :
    (∃ data', buffer.position + hapIPSecurityProtocolGetNumEncryptedBytes buffer.numBytes ≤ buffer.capacity ∧
      hapIPSecurityProtocolEncryptData aead session buffer =
        .ok ({ buffer with data := data', limit := buffer.position + hapIPSecurityProtocolGetNumEncryptedBytes buffer.numBytes },
          { session with accessoryToController := session.accessoryToController.advance (numFrames buffer.numBytes) }) ∧
      slice data' buffer.position (hapIPSecurityProtocolGetNumEncryptedBytes buffer.numBytes) =
        sealFrames aead session.accessoryToController buffer.bytes ∧
      ∀ a, a < buffer.position ∨ buffer.position + hapIPSecurityProtocolGetNumEncryptedBytes buffer.numBytes ≤ a →
        data' a = buffer.data a) ∨
    ∃ err, hapIPSecurityProtocolEncryptData aead session buffer = .error err ∧
      (¬(buffer.position ≤ buffer.limit ∧ buffer.limit ≤ buffer.capacity) ∨
        buffer.capacity < buffer.position + hapIPSecurityProtocolGetNumEncryptedBytes buffer.numBytes ∨
        0 < buffer.numBytes ∧ session.active = false) := by
  by_cases hwhy : ¬(buffer.position ≤ buffer.limit ∧ buffer.limit ≤ buffer.capacity) ∨
      buffer.capacity < buffer.position + hapIPSecurityProtocolGetNumEncryptedBytes buffer.numBytes ∨
      0 < buffer.numBytes ∧ session.active = false
  · obtain ⟨err, hrun⟩ := encryptData_error aead hwhy
    exact Or.inr ⟨err, hrun, hwhy⟩
  · rw [not_or, not_or, not_not, Nat.not_lt, not_and, Bool.not_eq_false] at hwhy
    obtain ⟨hpre, hroom, hactive⟩ := hwhy
    obtain ⟨data', hrun, hbytes, hframe⟩ := encryptData_ok aead hpre hroom hactive
    exact Or.inl ⟨data', hroom, hrun, hbytes, hframe⟩

end SecureStreamAux

open SecureStreamAux

/-- For all events the buffer of a session does what the stream does, from the moment the session is opened: the same outputs, or the same
reason to close it. -/
theorem handleInput_refines (aead : ChaCha20Poly1305) (data : Mem) (capacity : Nat) (session : HAPSessionSecurity)
    (events : List InboundEvent) :
    Agree (HoldsStream capacity) (run (handleInput aead) (Inbound.opened data capacity session) events)
      (run (SecureStream.step aead capacity) ⟨[], [], session⟩ events) :=
  run_agree (handleInput_agree aead) events _ _ (holdsStream_opened data capacity session)

/-- The session is secured by the handler of a request. From then on the requests are taken from the bytes that had come in the clear
behind that request, and after them from what is opened of all that comes, however it was cut; a session is closed for a frame only if
the bytes that came cannot be opened. This needs that no request is handled while a part of a frame is pending. -/
theorem securedStream_spec (aead : ChaCha20Poly1305) (data : Mem) (capacity : Nat) (session secured : HAPSessionSecurity)
    (clear events : List InboundEvent) (chunk : List UInt8) (n : Nat) (hclear : session.active = false) (hsecured : secured.active = true)
    (hkeepClear : KeepsSession clear) (hkeep : KeepsSession events) (hwhole : WholeFrames aead secured.controllerToAccessory events) :
    (∀ s outs, run (handleInput aead) (Inbound.opened data capacity session) (clear ++ ⟨chunk, some (n, some secured)⟩ :: events) =
        .ok (s, outs) →
      ∃ o, openFrames aead secured.controllerToAccessory (arrived events) = some o ∧
        outs.flatten = arrived clear ++ chunk ++ o.plaintext ∧
        slice s.buffer.data 0 s.inboundBufferMark =
          ((arrived clear ++ chunk).drop (handledBytes clear + n) ++ o.plaintext).drop (handledBytes events) ∧
        slice s.buffer.data s.inboundBufferMark (s.buffer.position - s.inboundBufferMark) = o.rest ∧
        s.session = { secured with controllerToAccessory := o.channel }) ∧
      (run (handleInput aead) (Inbound.opened data capacity session) (clear ++ ⟨chunk, some (n, some secured)⟩ :: events) =
        .error .decryption → openFrames aead secured.controllerToAccessory (arrived events) = none) := by
  have hspec := secure_run aead capacity hclear hsecured chunk n hkeepClear hkeep hwhole
  rcases (run_agree (handleInput_agree aead) (clear ++ ⟨chunk, some (n, some secured)⟩ :: events) _ _
    (holdsStream_opened data capacity session)).cases with
    ⟨fault, hrun, hrun'⟩ | ⟨s, t, outs, hrun, hrun', hholds⟩ <;> rw [hrun] <;> rw [hrun'] at hspec
  · refine ⟨fun s outs h => (by cases h), fun h => ?_⟩
    cases h
    exact hspec
  · refine ⟨fun s' outs' h => ?_, fun h => (by cases h)⟩
    cases h
    obtain ⟨o, ho, hout, rfl⟩ := hspec
    refine ⟨o, ho, hout, ?_, ?_, hholds.session⟩
    · rw [hholds.mark]
      exact hholds.unread
    · rw [hholds.mark, hholds.position, Nat.add_sub_cancel_left]
      exact hholds.pending

/-- A session that is secured. -/
def securedSession : HAPSessionSecurity := { HAPSessionSecurity.zero with active := true }

/-- One frame, and the request in it. -/
def oneFrame : InboundEvent where
  chunk := sealFrames mbedTls securedSession.controllerToAccessory [71, 69, 84]
  request := some (3, none)

theorem keepsSession_oneFrame : KeepsSession [oneFrame] := by
  intro e he r hr
  rw [List.mem_singleton.mp he, oneFrame] at hr
  cases hr
  rfl

theorem wholeFrames_oneFrame : WholeFrames mbedTls securedSession.controllerToAccessory [oneFrame] := by
  intro pre e post hsplit _ o ho
  cases pre with
  | nil =>
    cases hsplit
    have hopen := @openFrames_sealFrames mbedTls securedSession.controllerToAccessory [71, 69, 84]
    rw [List.nil_append, arrived_cons, oneFrame] at ho
    simp only [arrived, List.map_nil, List.flatten_nil, List.append_nil] at ho
    rw [hopen] at ho
    cases ho
    rfl
  | cons e' pre =>
    have := congrArg List.length hsplit
    simp only [List.length_cons, List.length_nil, List.cons_append, List.length_append] at this
    omega

/-- The bytes of `oneFrame` are opened. -/
theorem openFrames_oneFrame :
    openFrames mbedTls securedSession.controllerToAccessory (arrived [oneFrame]) =
      some ⟨[71, 69, 84], [], securedSession.controllerToAccessory.advance 1⟩ := by
  rw [arrived_cons, oneFrame]
  simp only [arrived, List.map_nil, List.flatten_nil, List.append_nil]
  rw [openFrames_sealFrames]
  rfl

/-- There is room for `oneFrame` behind the bytes of a few requests. -/
theorem step_oneFrame {u : List UInt8} (hu : u.length ≤ 200) :
    SecureStream.step mbedTls 256 ⟨u, [], securedSession⟩ oneFrame =
      .ok (⟨(u ++ [71, 69, 84]).drop 3, [],
        { securedSession with controllerToAccessory := securedSession.controllerToAccessory.advance 1 }⟩, [71, 69, 84]) := by
  have hlen : oneFrame.chunk.length = 21 := by
    rw [oneFrame, sealFrames, if_neg (by decide), List.length_append, List.length_append, length_encrypt]
    rw [show List.drop maxFrameBytes [(71 : UInt8), 69, 84] = [] from rfl, sealFrames_nil]
    rfl
  have hopen := openFrames_oneFrame
  rw [arrived_cons, show arrived [] = [] from rfl, List.append_nil] at hopen
  have hreceive : SecureStream.receive mbedTls ⟨u, [], securedSession⟩ oneFrame.chunk =
      some ⟨[71, 69, 84], [], securedSession.controllerToAccessory.advance 1⟩ := by
    have hactive : (⟨u, [], securedSession⟩ : SecureStream).session.active = true := rfl
    rw [SecureStream.receive, if_pos hactive, List.nil_append, hopen]
  have hrequest : oneFrame.request = some (3, none) := rfl
  have hcomplete : ¬(u ++ [(71 : UInt8), 69, 84]).length < 3 := by simp
  rw [SecureStream.step, if_neg (by simp only [hlen, List.length_nil]; omega), hreceive]
  simp only [hrequest, if_neg hcomplete]
  simp only [List.length_nil, List.take_zero, Option.getD_none]

/-- The handler of a request of three bytes secures the session, and two bytes have come behind that request. Then the frame comes. -/
theorem securedStream_spec_oneFrame :
    ∃ s outs, run (handleInput mbedTls) (Inbound.opened (fun _ => 0) 256 .zero)
        ([] ++ ⟨[1, 2, 3, 4, 5], some (3, some securedSession)⟩ :: [oneFrame]) = .ok (s, outs) ∧
      outs.flatten = [1, 2, 3, 4, 5, 71, 69, 84] ∧ slice s.buffer.data 0 s.inboundBufferMark = [69, 84] ∧
      slice s.buffer.data s.inboundBufferMark (s.buffer.position - s.inboundBufferMark) = [] ∧
      s.session = { securedSession with controllerToAccessory := securedSession.controllerToAccessory.advance 1 } := by
  have hclear : SecureStream.step mbedTls 256 ⟨[], [], .zero⟩ ⟨[1, 2, 3, 4, 5], some (3, some securedSession)⟩ =
      .ok (⟨[4, 5], [], securedSession⟩, [1, 2, 3, 4, 5]) := rfl
  have hstream := run_cons hclear (run_cons (step_oneFrame (show [4, 5].length ≤ 200 by decide)) (run_nil _))
  have hagree := handleInput_refines mbedTls (fun _ => 0) 256 .zero
    ([] ++ ⟨[1, 2, 3, 4, 5], some (3, some securedSession)⟩ :: [oneFrame])
  rw [List.nil_append, hstream] at hagree
  rcases hagree.cases with ⟨e, -, h⟩ | ⟨s, t, outs, hrun, -, -⟩
  · cases h
  obtain ⟨o, ho, hout, hunread, hrest, hsession⟩ := (securedStream_spec mbedTls (fun _ => 0) 256 .zero securedSession [] [oneFrame]
    [1, 2, 3, 4, 5] 3 rfl rfl (fun _ he => absurd he List.not_mem_nil) keepsSession_oneFrame wholeFrames_oneFrame).1 s outs hrun
  rw [openFrames_oneFrame] at ho
  cases ho
  exact ⟨s, outs, hrun, hout, hunread, hrest, hsession⟩

/-- `HAPIPSecurityProtocolEncryptData` fails only for lack of room or of a secured session. Otherwise it leaves the frames where the data
was, as long as `HAPIPSecurityProtocolGetNumEncryptedBytes` says, writes nothing else, and wherever a receiver whose channel is the
sender's has them in memory, `HAPIPSecurityProtocolDecryptData` turns them back into the data. -/
theorem hapIPSecurityProtocolEncryptData_spec (aead : ChaCha20Poly1305) (session : HAPSessionSecurity) (buffer : HAPIPByteBuffer) :
    match hapIPSecurityProtocolEncryptData aead session buffer with
    | .ok (buffer', session') =>
      buffer'.position = buffer.position ∧ buffer'.capacity = buffer.capacity ∧ buffer'.limit ≤ buffer.capacity ∧
        buffer'.limit = buffer.position + hapIPSecurityProtocolGetNumEncryptedBytes buffer.numBytes ∧
        (∀ a, a < buffer.position ∨ buffer'.limit ≤ a → buffer'.data a = buffer.data a) ∧
        ∀ (receiver : HAPSessionSecurity) (data : Mem) (position : Nat), receiver.active = true →
          receiver.controllerToAccessory = session.accessoryToController → slice data position buffer'.numBytes = buffer'.bytes →
          ∃ data', hapIPSecurityProtocolDecryptData aead receiver data position (position + buffer'.numBytes) =
              (.none, data', position + buffer.numBytes, position + buffer.numBytes,
                { receiver with controllerToAccessory := session'.accessoryToController }) ∧
            slice data' position buffer.numBytes = buffer.bytes ∧
            ∀ a, a < position ∨ position + buffer'.numBytes ≤ a → data' a = data a
    | .error _ =>
      ¬(buffer.position ≤ buffer.limit ∧ buffer.limit ≤ buffer.capacity) ∨
        buffer.capacity < buffer.position + hapIPSecurityProtocolGetNumEncryptedBytes buffer.numBytes ∨
        0 < buffer.numBytes ∧ session.active = false := by
  rcases encryptData_cases aead session buffer with ⟨data', hroom, hrun, hbytes, hframe⟩ | ⟨err, hrun, hwhy⟩
  · rw [hrun]
    refine ⟨rfl, rfl, hroom, rfl, hframe, fun receiver data position hactive hchannel hdata => ?_⟩
    obtain ⟨k, hk⟩ : ∃ k, hapIPSecurityProtocolGetNumEncryptedBytes buffer.numBytes = k := ⟨_, rfl⟩
    simp only [numBytes_mk, bytes_mk, hk] at hdata hbytes ⊢
    have hspec := @decryptData_spec aead k receiver data position (position + k) (by omega) hactive (by omega)
    rw [hdata, hbytes, hchannel, openFrames_sealFrames] at hspec
    simp only [length_bytes, List.length_nil, Nat.add_zero] at hspec
    obtain ⟨data'', hopen, hplain, -, -, hkept⟩ := hspec
    exact ⟨data'', hopen, hplain, hkept⟩
  · rw [hrun]
    exact hwhy

/-- What a peer sends that runs the same protocol: some buffers of data one after the other. The output is the data and its frames. -/
def sendData (aead : ChaCha20Poly1305) (session : HAPSessionSecurity) (buffer : HAPIPByteBuffer) :
    Except HomeKitError (HAPSessionSecurity × List UInt8 × List UInt8) :=
  match hapIPSecurityProtocolEncryptData aead session buffer with
  | .error e => .error e
  | .ok (buffer', session') => .ok (session', buffer.bytes, buffer'.bytes)

/-- The frames of a run open to the data of the run. -/
theorem openFrames_run (aead : ChaCha20Poly1305) {buffers : List HAPIPByteBuffer} :
    ∀ {session session' : HAPSessionSecurity} {sent : List (List UInt8 × List UInt8)},
      run (sendData aead) session buffers = .ok (session', sent) →
      openFrames aead session.accessoryToController (sent.map Prod.snd).flatten =
        some ⟨(sent.map Prod.fst).flatten, [], session'.accessoryToController⟩ := by
  induction buffers with
  | nil =>
    rintro session session' sent h
    cases h
    exact openFrames_of_incomplete (Or.inl (by simp))
  | cons buffer buffers ih =>
    intro session session' sent h
    obtain ⟨session₁, out, sent', hs, hr, rfl⟩ := run_cons_ok h
    rw [sendData] at hs
    rcases encryptData_cases aead session buffer with ⟨data', hroom, hrun, hbytes, -⟩ | ⟨err, hrun, -⟩
    · rw [hrun] at hs
      cases hs
      have hrest := ih hr
      rw [List.map_cons, List.map_cons, List.flatten_cons, List.flatten_cons, openFrames_append, bytes_mk, hbytes,
        openFrames_sealFrames, Option.bind_some, List.nil_append, length_bytes, hrest]
      rfl
    · rw [hrun] at hs
      cases hs

/-- A peer sends buffers of data, and any part of what it has sent has come, cut in any way: the session is not closed for a frame, and
what the reader of the requests gets is the data that far, all of it once everything has come. -/
theorem secureStream_endToEnd (aead : ChaCha20Poly1305) (sender receiver : HAPSessionSecurity) (buffers : List HAPIPByteBuffer)
    (data : Mem) (capacity : Nat) (events : List InboundEvent) (sender' : HAPSessionSecurity) (sent : List (List UInt8 × List UInt8))
    (hactive : receiver.active = true) (hchannel : receiver.controllerToAccessory = sender.accessoryToController)
    (hkeep : KeepsSession events) (hwhole : WholeFrames aead receiver.controllerToAccessory events)
    (hsend : run (sendData aead) sender buffers = .ok (sender', sent)) (hcome : arrived events <+: (sent.map Prod.snd).flatten) :
    (∀ s outs, run (handleInput aead) (Inbound.opened data capacity receiver) events = .ok (s, outs) →
      outs.flatten <+: (sent.map Prod.fst).flatten ∧
        (arrived events = (sent.map Prod.snd).flatten →
          outs.flatten = (sent.map Prod.fst).flatten ∧ s.session.controllerToAccessory = sender'.accessoryToController)) ∧
      run (handleInput aead) (Inbound.opened data capacity receiver) events ≠ .error .decryption := by
  obtain ⟨later, hlater⟩ := hcome
  have hall := openFrames_run aead hsend
  rw [← hchannel, ← hlater] at hall
  obtain ⟨o, ho, hprefix⟩ := openFrames_prefix hall
  have hstream := @secured_run aead capacity events [] [] receiver hactive hkeep (openFrames_of_incomplete (Or.inl (by simp))) hwhole
  have hagree := (run_agree (handleInput_agree aead) events _ _ (holdsStream_opened data capacity receiver)).cases
  rw [List.nil_append, ho] at hstream
  rcases hagree with ⟨fault, hrun, hrun'⟩ | ⟨s, t, outs, hrun, hrun', hholds⟩ <;> rw [hrun] <;> rw [hrun'] at hstream
  · refine ⟨fun s outs h => (by cases h), fun h => ?_⟩
    cases h
    cases hstream
  · refine ⟨fun s' outs' h => ?_, fun h => (by cases h)⟩
    cases h
    obtain ⟨o', ho', hout, rfl⟩ := hstream
    cases ho'
    refine ⟨hout ▸ hprefix, fun hwholly => ?_⟩
    rw [hout]
    rw [← hlater, List.self_eq_append_right] at hwholly
    rw [hwholly, List.append_nil, ho] at hall
    cases hall
    exact ⟨rfl, congrArg _ hholds.session⟩

/-- The frame is sent and comes as it was sent. -/
theorem secureStream_endToEnd_oneFrame :
    ∃ sender' sent s outs, run (sendData mbedTls) securedSession [⟨fun a => [71, 69, 84].getD a 0, 256, 0, 3⟩] = .ok (sender', sent) ∧
      run (handleInput mbedTls) (Inbound.opened (fun _ => 0) 256 securedSession) [oneFrame] = .ok (s, outs) ∧
      outs.flatten = [71, 69, 84] ∧ s.session.controllerToAccessory = sender'.accessoryToController := by
  obtain ⟨data', hrun, hbytes, -⟩ := @encryptData_ok mbedTls securedSession
    ⟨fun a => [71, 69, 84].getD a 0, 256, 0, 3⟩ (by decide) (by decide) (fun _ => rfl)
  have hsend : run (sendData mbedTls) securedSession [⟨fun a => [71, 69, 84].getD a 0, 256, 0, 3⟩] = .ok (_, [_]) :=
    run_cons (by rw [sendData, hrun]) (run_nil _)
  have hagree := handleInput_refines mbedTls (fun _ => 0) 256 securedSession [oneFrame]
  rw [run_cons (step_oneFrame (Nat.zero_le _)) (run_nil _)] at hagree
  rcases hagree.cases with ⟨e, -, h⟩ | ⟨s, t, outs, hreceive, -, -⟩
  · cases h
  have hdata : HAPIPByteBuffer.bytes ⟨fun a => [71, 69, 84].getD a 0, 256, 0, 3⟩ = [71, 69, 84] := by decide
  have hkeys : securedSession.accessoryToController = securedSession.controllerToAccessory := by decide
  have harrived : arrived [oneFrame] = oneFrame.chunk := List.append_nil _
  have hsent : arrived [oneFrame] = [sealFrames mbedTls securedSession.accessoryToController [71, 69, 84]].flatten := by
    rw [harrived, hkeys, oneFrame, List.flatten_singleton]
  have hspec := secureStream_endToEnd mbedTls securedSession securedSession _ (fun _ => 0) 256 [oneFrame] _ _ rfl rfl
    keepsSession_oneFrame wholeFrames_oneFrame hsend
  simp only [List.map_cons, List.map_nil, bytes_mk, hbytes, hdata, ← hsent] at hspec
  obtain ⟨hout, hchannel⟩ := ((hspec (List.prefix_refl _)).1 s outs hreceive).2 trivial
  exact ⟨_, _, s, outs, hsend, hreceive, hout, hchannel⟩

end CGuard
