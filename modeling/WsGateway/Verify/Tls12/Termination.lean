import WsGateway.Verify.Tls12.Record

/-!
# Termination of `receive`

`receive` calls itself while a record header is left in the stream. Every
handshake step takes at least the record header, except the last one: while the
server's Finished record is incomplete, `process_server_finished` gives up its
read transaction and takes nothing, and the call repeats itself for ever. This
file shows that the recursion ends exactly if it does not run into such a state.
-/

namespace WsGateway.Network.Tls12

open Library

/-- What is left of a record of the handshake that has not arrived in full. -/
def CutOff (bytes : List UInt8) : Prop :=
  bytes.length < RecordHeader.sizeof ∨
    ((headerOf bytes).contentType = .Handshake ∧
      bytes.length < RecordHeader.sizeof + (headerOf bytes).size)

/-- The position of a state in the handshake. -/
def HandshakeState.index : HandshakeState → Nat
  | .ClientHelloToSend => 0
  | .ServerHello => 1
  | .ServerCertificate => 2
  | .ServerKeyExchange => 3
  | .ServerHelloDone => 4
  | .ClientKeyExchange => 5
  | .ClientFinished => 6
  | .ServerFinished => 7

namespace Client

variable {env : Env} {c c' : Client}

/-- `receive` in the state `c` calls itself in the state `c'`. -/
def Recurs (env : Env) (c c' : Client) : Prop := receiveOnce env c = .ok .again c'

/-- `receive` in the state `c` comes to call itself in the state `c'`. -/
def Calls (env : Env) : Client → Client → Prop := Relation.ReflTransGen (Recurs env)

/-- `receive` returns or throws after finitely many calls. -/
def Terminates (env : Env) (c : Client) : Prop := ∃ fuel r, receiveFuel env fuel c = some r

/-- The server's ChangeCipherSpec record is complete and the record after it is not. -/
structure Stalled (c : Client) : Prop where
  state : c.handshakeState = .ClientFinished
  record : HoldsRecord c.stream
  type : (firstRecord c.stream).contentType = .ChangeCipher
  first : c.stream.buffer (c.stream.read + RecordHeader.sizeof) = 1
  cut : CutOff (afterRecord c.stream)

/-! ## One call -/

/-- A recursive call has taken a handshake step on a complete record. -/
theorem Recurs.inv (h : Recurs env c c') : HoldsRecord c.stream ∧
    c.handshakeState ≠ .ServerFinished ∧ processHandshake env c = .ok () c' ∧
      RecordHeader.sizeof ≤ c'.stream.size := by
  unfold Recurs at h
  by_cases hhello : c.handshakeState = .ClientHelloToSend ∧ c.stream.size = 0
  · rw [receiveOnce, bind_of_ok (get_apply c), if_pos (by simpa [Stream.empty] using hhello)] at h
    obtain ⟨_, c₁, -, h⟩ := bind_eq_ok h
    obtain ⟨_, c₂, -, h⟩ := bind_eq_ok h
    cases h
  by_cases hrec : HoldsRecord c.stream
  · rw [receiveOnce_complete env hrec] at h
    split at h
    · obtain ⟨_, c₁, -, h⟩ := bind_eq_ok h
      cases h
    · next hstate =>
      obtain ⟨_, c₁, hstep, h⟩ := bind_eq_ok h
      rw [bind_of_ok (get_apply c₁)] at h
      split at h
      · cases h
        exact ⟨hrec, hstate, hstep, ‹_›⟩
      · cases h
  · rcases receiveOnce_waits env hhello hrec with hw | ⟨e, hw⟩ <;> rw [hw] at h <;> cases h

/-! ## The steps that take a record header -/

/-- A step that takes the record header leaves at least five bytes less. -/
theorem PopsHeader.consumes {α : Type} {x : Prog Client α} (hx : PopsHeader Updates x)
    (h : RecordHeader.sizeof ≤ c.stream.size) :
    (after (x c)).stream.size + RecordHeader.sizeof ≤ c.stream.size := by
  obtain ⟨f, rfl, hf⟩ := hx
  rw [bind_of_ok (onStream_popObject_record h)]
  have hsuffix := (hf (some (firstRecord c.stream)) (c.afterHeader h)).suffix.length_le
  have hsize : (c.afterHeader h).stream.size = c.stream.size - RecordHeader.sizeof :=
    Stream.size_advance _ h
  rw [Stream.length_content, Stream.length_content] at hsuffix
  omega

theorem PopsHeader.of_quiet {α : Type} {x : Prog Client α} (h : PopsHeader Quiet x) :
    PopsHeader Updates x := by
  obtain ⟨f, hx, hf⟩ := h
  exact ⟨f, hx, fun header => updates_of_quiet (hf header)⟩

/-- What follows a step cannot give bytes back. -/
theorem consumes_seq {α β : Type} {x : Prog Client α} {f : α → Prog Client β}
    (hx : PopsHeader Updates x) (hf : ∀ a, Moves Updates (f a))
    (h : RecordHeader.sizeof ≤ c.stream.size) :
    (after ((x >>= f) c)).stream.size + RecordHeader.sizeof ≤ c.stream.size := by
  obtain ⟨g, rfl, hg⟩ := hx
  rw [bind_assoc]
  exact PopsHeader.consumes ⟨_, rfl, fun header => Moves.seq (hg header) hf⟩ h

/-- Every handshake step but the last takes at least the record header. -/
theorem processHandshake_consumes (env : Env) (h : RecordHeader.sizeof ≤ c.stream.size)
    (hstate : c.handshakeState ≠ .ClientFinished) (hok : processHandshake env c = .ok () c') :
    c'.stream.size + RecordHeader.sizeof ≤ c.stream.size := by
  have hafter : after (processHandshake env c) = c' := by rw [hok]; rfl
  rw [processHandshake, bind_of_ok (get_apply c)] at hok hafter
  rw [← hafter]
  cases hs : c.handshakeState with
  | ServerHello =>
    refine consumes_seq processServerHello_popsHeader.of_quiet (fun done => ?_) h
    refine Moves.seq (updates_of_quiet (quiet_require _ _)) fun _ => ?_
    exact setHandshakeState_updates (by simp [HandshakeState.Keyed])
  | ServerCertificate => exact processServerCertificate_popsHeader.consumes h
  | ServerKeyExchange =>
    refine consumes_seq processServerKeyExchange_popsHeader.of_quiet (fun done => ?_) h
    cases done
    · exact Moves.ret _
    · exact setHandshakeState_updates (by simp [HandshakeState.Keyed])
  | ServerHelloDone =>
    refine consumes_seq processServerHelloDone_popsHeader.of_quiet (fun done => ?_) h
    cases done
    · exact Moves.ret _
    · exact clientFinished_updates env
  | ClientFinished => exact absurd hs hstate
  | ClientHelloToSend => rw [hs] at hok; cases hok
  | ClientKeyExchange => rw [hs] at hok; cases hok
  | ServerFinished => rw [hs] at hok; cases hok

/-! ## The last step -/

/-- The transaction of `process_server_finished` on a stream with a complete record. -/
theorem readServerFinished_cases {s : Stream} (hrec : HoldsRecord s) :
    (∃ e, readServerFinished s.readTransaction = .error e ∧
      ¬ ((firstRecord s).contentType = .ChangeCipher ∧
        s.buffer (s.read + RecordHeader.sizeof) = 1 ∧ CutOff (afterRecord s))) ∨
    (readServerFinished s.readTransaction = .ok none ∧
      (firstRecord s).contentType = .ChangeCipher ∧
      s.buffer (s.read + RecordHeader.sizeof) = 1 ∧ CutOff (afterRecord s)) ∨
    (∃ read, readServerFinished s.readTransaction = .ok (some read) ∧
      2 * RecordHeader.sizeof ≤ read.readIt ∧ read.readIt ≤ s.size ∧
      ¬ CutOff (afterRecord s) ∧ (firstRecord s).contentType = .ChangeCipher ∧
      s.buffer (s.read + RecordHeader.sizeof) = 1 ∧
      (headerOf (afterRecord s)).contentType = .Handshake) := by
  have hsize := hrec.complete
  have hfront : (s.readTransaction.skip RecordHeader.sizeof).front =
      s.buffer (s.read + RecordHeader.sizeof) := rfl
  let read₁ := (s.readTransaction.skip RecordHeader.sizeof).skip (firstRecord s).size
  have hrest₁ : read₁.rest = afterRecord s := by simp [read₁, afterRecord]
  let read₂ := read₁.skip RecordHeader.sizeof
  have hrest₂ : read₂.rest.length = (afterRecord s).length - RecordHeader.sizeof := by
    rw [Stream.ReadTransaction.rest_skip, hrest₁, List.length_drop]
  generalize hr : readServerFinished s.readTransaction = r
  unfold readServerFinished at hr
  rw [popObject_record (by simpa using hrec.header), Stream.rest_readTransaction,
    ← firstRecord] at hr
  dsimp only at hr
  by_cases htype : (firstRecord s).contentType = .ChangeCipher
  swap
  · rw [if_pos (by simpa using htype)] at hr
    exact Or.inl ⟨_, hr.symm, fun h => htype h.1⟩
  rw [if_neg (by simpa using htype), hfront,
    Stream.ReadTransaction.pop_of_le (by simp; omega)] at hr
  dsimp only at hr
  by_cases hfirst : s.buffer (s.read + RecordHeader.sizeof) = 1
  swap
  · rw [if_pos (by simpa using hfirst)] at hr
    exact Or.inl ⟨_, hr.symm, fun h => hfirst h.2.1⟩
  rw [if_neg (by simpa using hfirst)] at hr
  -- From here on the transaction reads the record that should hold the Finished message.
  have hread₁ : (s.readTransaction.skip RecordHeader.sizeof).skip (firstRecord s).size = read₁ := rfl
  rw [hread₁] at hr
  by_cases hlen : (afterRecord s).length < RecordHeader.sizeof
  · rw [Stream.ReadTransaction.popObject_of_gt RecordHeader (by rw [hrest₁]; exact hlen)] at hr
    exact Or.inr (Or.inl ⟨hr.symm, htype, hfirst, Or.inl hlen⟩)
  rw [popObject_record (by rw [hrest₁]; exact Nat.le_of_not_lt hlen), hrest₁] at hr
  dsimp only at hr
  by_cases htype₂ : (headerOf (afterRecord s)).contentType = .Handshake
  swap
  · rw [if_pos (by simpa using htype₂)] at hr
    refine Or.inl ⟨_, hr.symm, ?_⟩
    rintro ⟨-, -, h | ⟨h, -⟩⟩
    · exact hlen h
    · exact htype₂ h
  rw [if_neg (by simpa using htype₂)] at hr
  by_cases hcut : (afterRecord s).length < RecordHeader.sizeof + (headerOf (afterRecord s)).size
  · have hgt : read₂.rest.length < (headerOf (afterRecord s)).size := by omega
    rw [Stream.ReadTransaction.pop_of_gt hgt] at hr
    exact Or.inr (Or.inl ⟨hr.symm, htype, hfirst, Or.inr ⟨htype₂, hcut⟩⟩)
  · have hle : (headerOf (afterRecord s)).size ≤ read₂.rest.length := by omega
    have hafter := length_afterRecord s
    rw [Stream.ReadTransaction.pop_of_le hle] at hr
    refine Or.inr (Or.inr ⟨_, hr.symm, ?_, ?_, ?_, htype, hfirst, htype₂⟩)
    · simp [read₁, read₂]
      omega
    · simp [read₁, read₂]
      omega
    · rintro (h | ⟨-, h⟩)
      · exact hlen h
      · exact hcut h

/-- The step in the state `ClientFinished`, from what its transaction reads. -/
theorem processHandshake_finished (env : Env) (hstate : c.handshakeState = .ClientFinished) :
    processHandshake env c = match readServerFinished c.stream.readTransaction with
      | .error e => .error e c
      | .ok none => .ok () c
      | .ok (some read) =>
        (onStream (Stream.commit read) >>= fun _ => setHandshakeState .ServerFinished) c := by
  rw [processHandshake, bind_of_ok (get_apply c), hstate, processServerFinished]
  dsimp only
  rw [bind_assoc, bind_of_ok (get_apply c)]
  cases readServerFinished c.stream.readTransaction with
  | error e => rfl
  | ok read =>
    cases read with
    | none => rfl
    | some read =>
      change ((onStream (Stream.commit read) >>= fun _ => pure true) >>= fun done =>
        if done = true then setHandshakeState .ServerFinished else pure ()) c = _
      rw [bind_assoc]
      rfl

/-- In a stalled state the call repeats itself. -/
theorem Stalled.recurs (env : Env) (h : Stalled c) : Recurs env c c := by
  have hne : c.handshakeState ≠ .ServerFinished := by simp [h.state]
  have hread : readServerFinished c.stream.readTransaction = .ok none := by
    rcases readServerFinished_cases h.record with ⟨e, -, hno⟩ | ⟨hr, -⟩ |
      ⟨read, -, -, -, hno, -⟩
    · exact absurd ⟨h.type, h.first, h.cut⟩ hno
    · exact hr
    · exact absurd h.cut hno
  rw [Recurs, receiveOnce_complete env h.record, if_neg hne]
  have hstep : processHandshake env c = .ok () c := by
    rw [processHandshake_finished env h.state, hread]
  rw [bind_of_ok hstep, bind_of_ok (get_apply c), if_pos h.record.header]
  rfl

/-- A recursive call takes at least a record header from the stream, except in a stalled state. -/
theorem Recurs.step (h : Recurs env c c') :
    (Stalled c ∧ c' = c) ∨
      (¬ Stalled c ∧ c'.stream.size + RecordHeader.sizeof ≤ c.stream.size) := by
  obtain ⟨hrec, -, hok, -⟩ := h.inv
  by_cases hstate : c.handshakeState = .ClientFinished
  · rw [processHandshake_finished env hstate] at hok
    rcases readServerFinished_cases hrec with ⟨e, hr, -⟩ | ⟨hr, htype, hfirst, hcut⟩ |
      ⟨read, hr, hlow, hhigh, hcut, -⟩
    · rw [hr] at hok; cases hok
    · rw [hr] at hok
      cases hok
      exact Or.inl ⟨⟨hstate, hrec, htype, hfirst, hcut⟩, rfl⟩
    · rw [hr] at hok
      refine Or.inr ⟨fun hs => hcut hs.cut, ?_⟩
      dsimp only at hok
      rw [bind_of_ok (onStream_of_ok (Stream.commit_of_le hhigh))] at hok
      cases hok
      change (c.stream.advance read.readIt hhigh).size + RecordHeader.sizeof ≤ c.stream.size
      rw [Stream.size_advance]
      omega
  · exact Or.inr ⟨fun hs => hstate hs.state, processHandshake_consumes env hrec.header hstate hok⟩

/-! ## The recursion -/

theorem receiveFuel_of_recurs {fuel : Nat} (h : Recurs env c c') :
    receiveFuel env (fuel + 1) c = receiveFuel env fuel c' := by
  rw [receiveFuel, h]

/-- A call that does not recur ends. -/
theorem receiveFuel_of_not_recurs (fuel : Nat) (h : ∀ c', ¬ Recurs env c c') :
    ∃ r, receiveFuel env (fuel + 1) c = some r := by
  rw [receiveFuel]
  cases hr : receiveOnce env c with
  | error e c' => exact ⟨_, rfl⟩
  | ok next c' =>
    cases next with
    | done plaintext => exact ⟨_, rfl⟩
    | again => exact absurd hr (h c')

/-- Without a stalled state in sight as many calls as the stream has bytes are enough. -/
theorem receiveFuel_of_not_stalled (h : ∀ d, Calls env c d → ¬ Stalled d) {fuel : Nat}
    (hfuel : c.stream.size < fuel) : ∃ r, receiveFuel env fuel c = some r := by
  induction fuel generalizing c with
  | zero => omega
  | succ fuel ih =>
    by_cases hrec : ∃ c', Recurs env c c'
    · obtain ⟨c', hrec⟩ := hrec
      rw [receiveFuel_of_recurs hrec]
      rcases hrec.step with ⟨hs, -⟩ | ⟨-, hsize⟩
      · exact absurd hs (h c .refl)
      · refine ih (fun d hd => h d (Relation.ReflTransGen.head hrec hd)) ?_
        unfold RecordHeader.sizeof at hsize
        omega
    · exact receiveFuel_of_not_recurs fuel fun c' hc' => hrec ⟨c', hc'⟩

/-- A stalled state never ends. -/
theorem Stalled.receiveFuel_eq_none (env : Env) (h : Stalled c) (fuel : Nat) :
    receiveFuel env fuel c = none := by
  induction fuel with
  | zero => rfl
  | succ fuel ih => rw [receiveFuel_of_recurs (h.recurs env), ih]

/-- A call that ends has ended all the calls it made. -/
theorem Terminates.of_calls (h : Terminates env c) (hd : Calls env c c') : Terminates env c' := by
  induction hd with
  | refl => exact h
  | tail _ hstep ih =>
    obtain ⟨fuel, r, hr⟩ := ih
    cases fuel with
    | zero => cases hr
    | succ fuel => exact ⟨fuel, r, receiveFuel_of_recurs hstep ▸ hr⟩

theorem Terminates.not_stalled (h : Terminates env c) {d : Client} (hd : Calls env c d) :
    ¬ Stalled d := by
  intro hs
  obtain ⟨fuel, r, hr⟩ := h.of_calls hd
  rw [hs.receiveFuel_eq_none] at hr
  cases hr

/-- **Termination of `receive`**: it ends, with every recursive call made on a smaller stream or
later in the handshake, exactly if the recursion meets no state in which the server's
ChangeCipherSpec record is complete and the record after it is not. -/
theorem terminates_iff_not_stalled (env : Env) (c : Client) :
    (Terminates env c ∧ ∀ d d', Calls env c d → Recurs env d d' →
      d'.stream.size < d.stream.size ∨ d.handshakeState.index < d'.handshakeState.index) ↔
      ∀ d, Calls env c d → ¬ Stalled d := by
  constructor
  · rintro ⟨hterm, -⟩ d hd
    exact hterm.not_stalled hd
  · intro h
    obtain ⟨r, hr⟩ := receiveFuel_of_not_stalled h (Nat.lt_succ_self _)
    refine ⟨⟨_, r, hr⟩, fun d d' hd hrec => Or.inl ?_⟩
    rcases hrec.step with ⟨hs, -⟩ | ⟨-, hsize⟩
    · exact absurd hs (h d hd)
    · unfold RecordHeader.sizeof at hsize
      omega

/-- `receive` gives the result of the recursion: its bound is never in the way. -/
theorem receive_eq (h : Terminates env c) :
    receiveFuel env (c.stream.size + 1) c = some (receive env c) := by
  obtain ⟨r, hr⟩ := receiveFuel_of_not_stalled (fun _ => h.not_stalled) (Nat.lt_succ_self _)
  rw [receive, hr]
  rfl

/-- A client that waits for the server's Finished message and has got the ChangeCipherSpec record
before it. -/
def waitingClient : Client :=
  { Client.init [] Tcp.Client.connecting with
    handshakeState := .ClientFinished
    stream := sampleStream [0x14, 3, 3, 0, 1, 1] }

/-- A segment that ends right after the ChangeCipherSpec record makes `receive` call itself for
ever. -/
theorem waitingClient_not_terminates : ¬ Terminates sampleEnv waitingClient := by
  have hs : Stalled waitingClient :=
    ⟨rfl, ⟨by decide, by decide, by decide⟩, by decide, by decide, Or.inl (by decide)⟩
  exact fun h => h.not_stalled .refl hs

end Client

end WsGateway.Network.Tls12
