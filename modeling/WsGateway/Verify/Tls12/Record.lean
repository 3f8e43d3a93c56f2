import WsGateway.Verify.Tls12.Calls

/-!
# Records in the stream

What `receive` looks at first: whether the stream holds a complete record. The
rest of its work depends on the state of the handshake.
-/

namespace WsGateway.Network.Tls12

open Library

/-- The record header at the front of a byte string. -/
def headerOf (bytes : List UInt8) : RecordHeader := Packed.decode (bytes.take RecordHeader.sizeof)

/-- The header of the first record in a stream. -/
def firstRecord (s : Stream) : RecordHeader := headerOf s.content

/-- A stream that holds a complete record of the right version. -/
structure HoldsRecord (s : Stream) : Prop where
  header : RecordHeader.sizeof ≤ s.size
  version : (firstRecord s).version = kTls12
  complete : RecordHeader.sizeof + (firstRecord s).size ≤ s.size

/-- The bytes after the first record. -/
def afterRecord (s : Stream) : List UInt8 :=
  s.content.drop (RecordHeader.sizeof + (firstRecord s).size)

theorem length_afterRecord (s : Stream) :
    (afterRecord s).length = s.size - (RecordHeader.sizeof + (firstRecord s).size) := by
  simp [afterRecord]

theorem peekObject_record {s : Stream} (h : RecordHeader.sizeof ≤ s.size) :
    s.peekObject RecordHeader = some (firstRecord s) :=
  s.peekObject_of_le RecordHeader h

/-- A transaction that reads a record header. -/
theorem popObject_record {t : Stream.ReadTransaction} (h : RecordHeader.sizeof ≤ t.rest.length) :
    t.popObject RecordHeader = some (headerOf t.rest, t.skip RecordHeader.sizeof) :=
  Stream.ReadTransaction.popObject_of_le RecordHeader h

/-- A record of the right version. -/
def recordBytes (contentType : ContentType) (payload : List UInt8) : List UInt8 :=
  RecordHeader.bytes ⟨contentType, kTls12, payload.length⟩ ++ payload

section Bytes

variable {s : Stream} {contentType : ContentType} {payload t x y : List UInt8}

theorem length_recordBytes (contentType : ContentType) (payload : List UInt8) :
    (recordBytes contentType payload).length = RecordHeader.sizeof + payload.length := by
  simp [recordBytes, RecordHeader.bytes, RecordHeader.sizeof]
  omega

theorem headerOf_recordBytes (hlt : payload.length < 2 ^ 16) :
    headerOf (recordBytes contentType payload ++ t) = ⟨contentType, kTls12, payload.length⟩ := by
  have hsize : beNat (beBytes 2 payload.length) = payload.length := beNat_beBytes_of_lt (by omega)
  rw [headerOf, recordBytes, List.append_assoc, List.take_left' (by simp [RecordHeader.bytes]; rfl)]
  change RecordHeader.mk _ _ (beNat (List.take 2 (List.drop 3
    ([contentType, kTls12.major, kTls12.minor] ++ beBytes 2 payload.length)))) = _
  rw [List.drop_left' (by rfl), List.take_of_length_le (by simp), hsize]
  rfl

theorem firstRecord_recordBytes (hlt : payload.length < 2 ^ 16)
    (hs : s.content = recordBytes contentType payload ++ t) :
    firstRecord s = ⟨contentType, kTls12, payload.length⟩ := by
  rw [firstRecord, hs, headerOf_recordBytes hlt]

theorem size_recordBytes (hs : s.content = recordBytes contentType payload ++ t) :
    s.size = RecordHeader.sizeof + payload.length + t.length := by
  rw [← Stream.length_content, hs, List.length_append, length_recordBytes]

theorem holdsRecord_recordBytes (hlt : payload.length < 2 ^ 16)
    (hs : s.content = recordBytes contentType payload ++ t) : HoldsRecord s := by
  have hsize := size_recordBytes hs
  have hfirst := firstRecord_recordBytes hlt hs
  refine ⟨by omega, ?_, ?_⟩
  · rw [hfirst]
  · rw [hfirst]
    simp only
    omega

theorem afterRecord_recordBytes (hlt : payload.length < 2 ^ 16)
    (hs : s.content = recordBytes contentType payload ++ t) : afterRecord s = t := by
  rw [afterRecord, firstRecord_recordBytes hlt hs, hs]
  exact List.drop_left' (length_recordBytes contentType payload)

end Bytes

/-- A part of a record that is not all of it. -/
def ProperPart (x : List UInt8) : Prop :=
  ∃ contentType payload y, payload.length < 2 ^ 16 ∧ x ++ y = recordBytes contentType payload ∧
    y ≠ []

theorem properPart_nil : ProperPart [] :=
  ⟨.ApplicationData, [], _, by decide, rfl, by simp⟩

/-- A beginning that is shorter than the first record. -/
theorem properPart_of_lt {contentType : ContentType} {payload x future rest : List UInt8}
    (hlt : payload.length < 2 ^ 16)
    (hx : x ++ future = recordBytes contentType payload ++ rest)
    (hlen : x.length < (recordBytes contentType payload).length) : ProperPart x := by
  obtain ⟨y, hy, -⟩ | ⟨y, hy, -⟩ := List.append_eq_append_iff.mp hx
  · refine ⟨contentType, payload, y, hlt, hy.symm, ?_⟩
    rintro rfl
    rw [List.append_nil] at hy
    rw [hy] at hlen
    exact Nat.lt_irrefl _ hlen
  · have hle := congrArg List.length hy
    rw [List.length_append] at hle
    omega

/-- The stream of a client that was given these bytes. -/
def sampleStream (bytes : List UInt8) : Stream :=
  after (Stream.pushBytes (.ofList bytes) (Stream.new 20600))

namespace Client

variable {c : Client}

/-- The client after the record header was taken. -/
def afterHeader (c : Client) (h : RecordHeader.sizeof ≤ c.stream.size) : Client :=
  { c with stream := c.stream.advance RecordHeader.sizeof h }

theorem drop_afterHeader (h : RecordHeader.sizeof ≤ c.stream.size) :
    (c.afterHeader h).stream.content = c.stream.content.drop RecordHeader.sizeof :=
  c.stream.content_advance h

theorem onStream_popObject_record (h : RecordHeader.sizeof ≤ c.stream.size) :
    onStream (Stream.popObject RecordHeader) c =
      .ok (some (firstRecord c.stream)) (c.afterHeader h) :=
  onStream_of_ok (c.stream.popObject_of_le RecordHeader h)

/-- With a complete record in the stream `receive` takes a handshake step or the record. -/
theorem receiveOnce_complete (env : Env) (hrec : HoldsRecord c.stream) : receiveOnce env c =
    if c.handshakeState = .ServerFinished then
      (receiveRecord env.ossl (firstRecord c.stream) >>= fun plaintext => pure (.done plaintext)) c
    else
      (processHandshake env >>= fun _ => get >>= fun c =>
        if c.stream.size ≥ RecordHeader.sizeof then pure .again else pure (.done none)) c := by
  have hne : c.stream.empty = false := by
    have h := hrec.header
    have hpos : c.stream.size ≠ 0 := by unfold RecordHeader.sizeof at h; omega
    simpa [Stream.empty] using hpos
  have hver : ((firstRecord c.stream).version == kTls12) = true := by simpa using hrec.version
  rw [receiveOnce, bind_of_ok (get_apply c), if_neg (by simp [hne]),
    peekObject_record hrec.header]
  dsimp only
  rw [require_bind, if_pos hver, c.stream.peek_of_le hrec.complete]
  dsimp only
  by_cases hstate : c.handshakeState = .ServerFinished
  · rw [if_neg (by simpa using hstate), if_pos hstate]
  · rw [if_pos (by simpa using hstate), if_neg hstate]

/-- Without a complete record `receive` waits or throws, unless it is time for the ClientHello. -/
theorem receiveOnce_waits (env : Env)
    (hhello : ¬ (c.handshakeState = .ClientHelloToSend ∧ c.stream.size = 0))
    (hrec : ¬ HoldsRecord c.stream) :
    receiveOnce env c = .ok (.done none) c ∨ ∃ e, receiveOnce env c = .error e c := by
  rw [receiveOnce, bind_of_ok (get_apply c), if_neg (by simpa [Stream.empty] using hhello)]
  by_cases hsize : RecordHeader.sizeof ≤ c.stream.size
  · rw [peekObject_record hsize]
    dsimp only
    rw [require_bind]
    by_cases hver : (firstRecord c.stream).version = kTls12
    · have hlt : c.stream.size < RecordHeader.sizeof + (firstRecord c.stream).size := by
        by_contra h
        exact hrec ⟨hsize, hver, by omega⟩
      rw [if_pos (by simpa using hver), c.stream.peek_of_gt hlt]
      exact Or.inl rfl
    · rw [if_neg (by simpa using hver)]
      exact Or.inr ⟨_, rfl⟩
  · rw [c.stream.peekObject_of_gt RecordHeader (Nat.lt_of_not_le hsize)]
    exact Or.inl rfl

/-- The first call of `receive` is for the ClientHello. -/
theorem receiveOnce_clientHello {env : Env} (hstate : c.handshakeState = .ClientHelloToSend)
    (hempty : c.stream.content = []) : receiveOnce env c =
      (sendClientHello env >>= fun _ =>
        setHandshakeState .ServerHello >>= fun _ => pure (.done none)) c := by
  have hsize : c.stream.empty = true := by
    rw [Stream.empty, ← Stream.length_content, hempty]
    rfl
  rw [receiveOnce, bind_of_ok (get_apply c), if_pos (by simp [hstate, hsize])]

/-- What one call of `receive` does, by the part of its code it comes to. -/
theorem receiveOnce_related {env : Env} {R : Client → Client → Prop} [Std.Refl R]
    (hhello : c.handshakeState = .ClientHelloToSend → R c
      (after ((sendClientHello env >>= fun _ => setHandshakeState .ServerHello) c)))
    (hstep : HoldsRecord c.stream → c.handshakeState ≠ .ServerFinished →
      R c (after (processHandshake env c)))
    (hrecord : HoldsRecord c.stream → c.handshakeState = .ServerFinished →
      R c (after (receiveRecord env.ossl (firstRecord c.stream) c))) :
    R c (after (receiveOnce env c)) := by
  by_cases hstart : c.handshakeState = .ClientHelloToSend ∧ c.stream.size = 0
  · have hempty : c.stream.content = [] := by
      rw [← List.length_eq_zero_iff, Stream.length_content, hstart.2]
    have h := hhello hstart.1
    rw [bind_apply] at h
    rw [receiveOnce_clientHello hstart.1 hempty, bind_apply]
    cases hsend : sendClientHello env c with
    | error e c₁ => rw [hsend] at h; exact h
    | ok _ c₁ => rw [hsend] at h; exact h
  by_cases hrec : HoldsRecord c.stream
  · rw [receiveOnce_complete env hrec]
    split
    · next hstate =>
      have h := hrecord hrec hstate
      rw [bind_apply]
      cases hr : receiveRecord env.ossl (firstRecord c.stream) c with
      | error e c₁ => rw [hr] at h; exact h
      | ok plaintext c₁ => rw [hr] at h; exact h
    · next hstate =>
      have h := hstep hrec hstate
      rw [bind_apply]
      cases hp : processHandshake env c with
      | error e c₁ => rw [hp] at h; exact h
      | ok _ c₁ =>
        rw [hp] at h
        dsimp only
        rw [bind_of_ok (get_apply c₁)]
        split
        · exact h
        · exact h
  · rcases receiveOnce_waits env hstart hrec with hw | ⟨e, hw⟩
    · rw [hw]
      exact Std.Refl.refl c
    · rw [hw]
      exact Std.Refl.refl c

/-- Only a complete record after the handshake gives a plaintext. -/
theorem receiveOnce_none {env : Env} {plaintext : Option (List UInt8)} {c' : Client}
    (hfinished : ¬ (HoldsRecord c.stream ∧ c.handshakeState = .ServerFinished))
    (h : receiveOnce env c = .ok (.done plaintext) c') : plaintext = none := by
  by_cases hstart : c.handshakeState = .ClientHelloToSend ∧ c.stream.size = 0
  · have hempty : c.stream.content = [] := by
      rw [← List.length_eq_zero_iff, Stream.length_content, hstart.2]
    rw [receiveOnce_clientHello hstart.1 hempty] at h
    obtain ⟨_, c₁, -, h⟩ := bind_eq_ok h
    obtain ⟨_, c₂, -, h⟩ := bind_eq_ok h
    cases h
    rfl
  by_cases hrec : HoldsRecord c.stream
  · rw [receiveOnce_complete env hrec, if_neg fun hstate => hfinished ⟨hrec, hstate⟩] at h
    obtain ⟨_, c₁, -, h⟩ := bind_eq_ok h
    rw [bind_of_ok (get_apply c₁)] at h
    split at h
    · cases h
    · cases h
      rfl
  · rcases receiveOnce_waits env hstart hrec with hw | ⟨e, hw⟩
    · rw [hw] at h
      cases h
      rfl
    · rw [hw] at h
      cases h

/-- A handshake that is complete stays so. -/
def StaysFinished (c c' : Client) : Prop :=
  c.handshakeState = .ServerFinished → c'.handshakeState = .ServerFinished

instance : Std.Refl StaysFinished := ⟨fun _ => id⟩

instance : IsTrans Client StaysFinished := ⟨fun _ _ _ h h' => h' ∘ h⟩

theorem receive_staysFinished (env : Env) : Moves StaysFinished (receive env) := by
  refine receive_moves fun c => receiveOnce_related ?_ ?_ ?_
  · intro hstart hstate
    rw [hstart] at hstate
    cases hstate
  · intro _ hne hstate
    exact absurd hstate hne
  · intro _ hstate _
    exact (receiveRecord_quiet _ _ c).state.trans hstate

theorem receiveFuel_some {env : Env} {fuel : Nat} {plaintext : List UInt8} {c' : Client}
    (h : receiveFuel env fuel c = some (.ok (some plaintext) c')) :
    c'.handshakeState = .ServerFinished := by
  induction fuel generalizing c with
  | zero => cases h
  | succ fuel ih =>
    rw [receiveFuel] at h
    cases honce : receiveOnce env c with
    | error e d => rw [honce] at h; cases h
    | ok next d =>
      rw [honce] at h
      cases next with
      | again => exact ih h
      | done r =>
        cases h
        by_cases hfinished : HoldsRecord c.stream ∧ c.handshakeState = .ServerFinished
        · obtain ⟨hrec, hstate⟩ := hfinished
          rw [receiveOnce_complete env hrec, if_pos hstate] at honce
          obtain ⟨_, d', hrecord, hret⟩ := bind_eq_ok honce
          cases hret
          have hquiet := receiveRecord_quiet env.ossl (firstRecord c.stream) c
          rw [hrecord] at hquiet
          exact hquiet.state.trans hstate
        · exact absurd (receiveOnce_none hfinished honce) (by simp)

/-- A plaintext is returned after the handshake only. -/
theorem receive_some {env : Env} {plaintext : List UInt8} {c' : Client}
    (h : receive env c = .ok (some plaintext) c') : c'.handshakeState = .ServerFinished := by
  unfold receive at h
  cases hfuel : receiveFuel env (c.stream.size + 1) c with
  | none => rw [hfuel] at h; cases h
  | some r =>
    rw [hfuel, Option.getD_some] at h
    exact receiveFuel_some (h ▸ hfuel)

/-- A call that does not go on with itself. -/
theorem receive_of_done {env : Env} {plaintext : Option (List UInt8)} {c' : Client}
    (h : receiveOnce env c = .ok (.done plaintext) c') : receive env c = .ok plaintext c' := by
  unfold receive
  rw [receiveFuel, h]
  rfl

/-- `receive` has nothing to do: the ClientHello is not due, and no record is complete. -/
structure Waits (c : Client) : Prop where
  hello : ¬ (c.handshakeState = .ClientHelloToSend ∧ c.stream.size = 0)
  part : RecordHeader.sizeof ≤ c.stream.size → (firstRecord c.stream).version = kTls12 ∧
    c.stream.size < RecordHeader.sizeof + (firstRecord c.stream).size

theorem Waits.receiveOnce_eq (h : c.Waits) (env : Env) :
    receiveOnce env c = .ok (.done none) c := by
  rw [receiveOnce, bind_of_ok (get_apply c), if_neg (by simpa [Stream.empty] using h.hello)]
  by_cases hsize : RecordHeader.sizeof ≤ c.stream.size
  · obtain ⟨hver, hlt⟩ := h.part hsize
    rw [peekObject_record hsize]
    dsimp only
    rw [require_bind, if_pos (by simpa using hver), c.stream.peek_of_gt hlt]
    rfl
  · rw [c.stream.peekObject_of_gt RecordHeader (Nat.lt_of_not_le hsize)]
    rfl

theorem Waits.receive_eq (h : c.Waits) (env : Env) : receive env c = .ok none c :=
  receive_of_done (h.receiveOnce_eq env)

theorem waits_of_properPart {x : List UInt8} (hx : ProperPart x)
    (hstate : c.handshakeState ≠ .ClientHelloToSend) (hs : c.stream.content = x) : c.Waits := by
  obtain ⟨contentType, payload, y, hlt, hxy, hy⟩ := hx
  have hlen := congrArg List.length hxy
  have hpos : 0 < y.length := List.length_pos_iff.mpr hy
  rw [List.length_append, length_recordBytes, ← hs, Stream.length_content] at hlen
  refine ⟨fun h => hstate h.1, fun hsize => ?_⟩
  have hfirst : firstRecord c.stream = ⟨contentType, kTls12, payload.length⟩ := by
    have hheader := @headerOf_recordBytes contentType payload [] hlt
    rw [List.append_nil, ← hxy, headerOf, List.take_append_of_le_length
      (by rw [← hs, Stream.length_content]; exact hsize)] at hheader
    rw [firstRecord, headerOf, hs, hheader]
  rw [hfirst]
  exact ⟨rfl, by dsimp only; omega⟩

/-- On a proper part of a record `receive` waits. -/
theorem receiveOnce_properPart {env : Env} {x : List UInt8} (hx : ProperPart x)
    (hstate : c.handshakeState ≠ .ClientHelloToSend) (hs : c.stream.content = x) :
    receiveOnce env c = .ok (.done none) c :=
  (waits_of_properPart hx hstate hs).receiveOnce_eq env

theorem receive_properPart {env : Env} {x : List UInt8} (hx : ProperPart x)
    (hstate : c.handshakeState ≠ .ClientHelloToSend) (hs : c.stream.content = x) :
    receive env c = .ok none c :=
  receive_of_done (receiveOnce_properPart hx hstate hs)

end Client

end WsGateway.Network.Tls12
