import WsGateway.Verify.Tls12.Keys
import WsGateway.Verify.Tls12.Termination

/-!
# What moves the handshake on

Each handshake state waits for one message of the server. The steps look at
different parts of the record they are given: none of the first four asks for its
content type, the first does not ask for the type of the message, the next three
read that type from the bytes behind the record header even if the record is
empty, and the last does not ask how long the ChangeCipherSpec message is. In the
runs in which the server does not make use of that, every advance is caused by the
record that the state waits for.
-/

namespace WsGateway.Network.Tls12

open Library

/-- The state after the one that waits for a message. -/
def HandshakeState.next : HandshakeState → HandshakeState
  | .ServerHello => .ServerCertificate
  | .ServerCertificate => .ServerKeyExchange
  | .ServerKeyExchange => .ServerHelloDone
  | .ServerHelloDone => .ClientFinished
  | .ClientFinished => .ServerFinished
  | s => s

/-- The states that wait for a message of the server. -/
def HandshakeState.Awaits (s : HandshakeState) : Prop := s.next ≠ s

instance (s : HandshakeState) : Decidable s.Awaits := inferInstanceAs (Decidable (s.next ≠ s))

/-- `server_hello`, which the client does not look for. -/
def kServerHello : HandshakeType := 0x02

/-- The payload of the first record in a stream. -/
def recordPayload (s : Stream) : List UInt8 :=
  (s.content.drop RecordHeader.sizeof).take (firstRecord s).size

/-- The first byte behind the first record header in a stream. -/
def typeByte (s : Stream) : Option UInt8 := (s.content.drop RecordHeader.sizeof).head?

/-- A handshake record that starts with a message of this type. -/
structure HandshakeRecord (handshakeType : HandshakeType) (s : Stream) : Prop where
  complete : HoldsRecord s
  contentType : (firstRecord s).contentType = .Handshake
  handshakeType : (recordPayload s).head? = some handshakeType

/-- A ChangeCipherSpec record and the complete handshake record after it. -/
structure FinishedRecords (s : Stream) : Prop where
  complete : HoldsRecord s
  contentType : (firstRecord s).contentType = .ChangeCipher
  payload : recordPayload s = [1]
  next : RecordHeader.sizeof ≤ (afterRecord s).length
  nextType : (headerOf (afterRecord s)).contentType = .Handshake
  nextComplete : RecordHeader.sizeof + (headerOf (afterRecord s)).size ≤ (afterRecord s).length

namespace Client

/-- The stream starts with what the handshake state waits for. -/
def Expected (c : Client) : Prop :=
  match c.handshakeState with
  | .ServerHello => HandshakeRecord kServerHello c.stream
  | .ServerCertificate => HandshakeRecord .Certificate c.stream
  | .ServerKeyExchange => HandshakeRecord .ServerKeyExchange c.stream
  | .ServerHelloDone => HandshakeRecord .ServerHelloDone c.stream
  | .ClientFinished => FinishedRecords c.stream
  | _ => False

/-- The bytes behind the first record header read as a ServerHello. -/
def ReadsHello (s : Stream) : Prop :=
  ∃ t : Stream.ReadTransaction, t.rest = s.content.drop RecordHeader.sizeof ∧
    ∃ hello, readServerHello t = .ok (some hello)

/-- The server does not send a record that passes for another one: what reads as a ServerHello is
one, what has the type of the message awaited behind its header is a handshake record that is not
empty, and a ChangeCipherSpec message has at most one byte. -/
def Regular (c : Client) : Prop :=
  HoldsRecord c.stream →
    match c.handshakeState with
    | .ServerHello => ReadsHello c.stream →
        (firstRecord c.stream).contentType = .Handshake ∧ (firstRecord c.stream).size ≠ 0 ∧
          typeByte c.stream = some kServerHello
    | .ServerCertificate => typeByte c.stream = some HandshakeType.Certificate →
        (firstRecord c.stream).contentType = .Handshake ∧ (firstRecord c.stream).size ≠ 0
    | .ServerKeyExchange => typeByte c.stream = some HandshakeType.ServerKeyExchange →
        (firstRecord c.stream).contentType = .Handshake ∧ (firstRecord c.stream).size ≠ 0
    | .ServerHelloDone => typeByte c.stream = some HandshakeType.ServerHelloDone →
        (firstRecord c.stream).contentType = .Handshake ∧ (firstRecord c.stream).size ≠ 0
    | .ClientFinished => (firstRecord c.stream).contentType = .ChangeCipher →
        (firstRecord c.stream).size ≤ 1
    | _ => True

/-- The handshake stays where it is, or moves on because of what it waits for. -/
def Accepts (c c' : Client) : Prop :=
  c'.handshakeState = c.handshakeState ∨
    (c.handshakeState = .ClientHelloToSend ∧ c'.handshakeState = .ServerHello) ∨
    (Expected c ∧ c'.handshakeState = c.handshakeState.next)

instance : Std.Refl Accepts := ⟨fun _ => Or.inl rfl⟩

section Accepts

variable {env : Env} {c c' : Client} {s : Stream}

/-- A record that is not empty starts with the byte behind its header. -/
theorem head_recordPayload (h : (firstRecord s).size ≠ 0) :
    (recordPayload s).head? = typeByte s := by
  rw [recordPayload, typeByte, List.head?_take, if_neg h]

/-- A transaction that reads a handshake header. -/
theorem popObject_type {t t' : Stream.ReadTransaction} {header : HandshakeHeader}
    (h : t.popObject HandshakeHeader = some (header, t')) :
    t.rest.head? = some header.handshakeType := by
  by_cases hlen : Packed.size HandshakeHeader ≤ t.rest.length
  · rw [Stream.ReadTransaction.popObject_of_le HandshakeHeader hlen] at h
    cases h
    have hpos : 4 ≤ t.rest.length := hlen
    cases hrest : t.rest with
    | nil => rw [hrest] at hpos; cases hpos
    | cons b bs => rfl
  · rw [Stream.ReadTransaction.popObject_of_gt HandshakeHeader (Nat.lt_of_not_le hlen)] at h
    cases h

theorem readServerKeyExchange_type {t : Stream.ReadTransaction}
    {r : List UInt8 × Stream.ReadTransaction} (h : readServerKeyExchange t = .ok (some r)) :
    t.rest.head? = some HandshakeType.ServerKeyExchange := by
  unfold readServerKeyExchange at h
  cases hpop : t.popObject HandshakeHeader with
  | none => rw [hpop] at h; cases h
  | some popped =>
    obtain ⟨header, t'⟩ := popped
    rw [hpop] at h
    dsimp only at h
    split at h
    · cases h
    · next htype =>
      rw [popObject_type hpop]
      simpa using htype

theorem readServerHelloDone_type {t t' : Stream.ReadTransaction}
    (h : readServerHelloDone t = .ok (some t')) :
    t.rest.head? = some HandshakeType.ServerHelloDone := by
  unfold readServerHelloDone at h
  cases hpop : t.popObject HandshakeHeader with
  | none => rw [hpop] at h; cases h
  | some popped =>
    obtain ⟨header, t'⟩ := popped
    rw [hpop] at h
    dsimp only at h
    split at h
    · cases h
    · next htype =>
      rw [popObject_type hpop]
      simpa using htype

/-- `process_server_hello` has read a ServerHello. -/
theorem processServerHello_true (hrec : HoldsRecord c.stream)
    (h : processServerHello c = .ok true c') : ReadsHello c.stream := by
  rw [processServerHello, bind_of_ok (onStream_popObject_record hrec.header)] at h
  dsimp only at h
  rw [bind_of_ok (get_apply _)] at h
  cases hpeek : (c.afterHeader hrec.header).stream.peek (firstRecord c.stream).size with
  | none => rw [hpeek] at h; cases h
  | some _ =>
    rw [hpeek] at h
    obtain ⟨hello, c₁, hread, h⟩ := bind_eq_ok h
    obtain ⟨hparsed, rfl⟩ := ofExcept_eq_ok hread
    cases hello with
    | none => cases h
    | some hello =>
      refine ⟨_, ?_, hello, hparsed⟩
      rw [Stream.rest_readTransaction, drop_afterHeader]

/-- `process_server_key_exchange` has read the type of its message. -/
theorem processServerKeyExchange_true (hrec : HoldsRecord c.stream)
    (h : processServerKeyExchange c = .ok true c') :
    typeByte c.stream = some HandshakeType.ServerKeyExchange := by
  rw [processServerKeyExchange, bind_of_ok (onStream_popObject_record hrec.header)] at h
  dsimp only at h
  rw [bind_of_ok (get_apply _)] at h
  obtain ⟨parsed, c₁, hread, h⟩ := bind_eq_ok h
  obtain ⟨hparsed, rfl⟩ := ofExcept_eq_ok hread
  cases parsed with
  | none => cases h
  | some parsed =>
    have htype := readServerKeyExchange_type hparsed
    rwa [Stream.rest_readTransaction, drop_afterHeader] at htype

/-- `process_server_hello_done` has read the type of its message. -/
theorem processServerHelloDone_true (hrec : HoldsRecord c.stream)
    (h : processServerHelloDone c = .ok true c') :
    typeByte c.stream = some HandshakeType.ServerHelloDone := by
  rw [processServerHelloDone, bind_of_ok (onStream_popObject_record hrec.header)] at h
  dsimp only at h
  rw [bind_of_ok (get_apply _)] at h
  obtain ⟨read, c₁, hread, h⟩ := bind_eq_ok h
  obtain ⟨hparsed, rfl⟩ := ofExcept_eq_ok hread
  cases read with
  | none => cases h
  | some read =>
    have htype := readServerHelloDone_type hparsed
    rwa [Stream.rest_readTransaction, drop_afterHeader] at htype

/-- The certificate step moves on only behind the type of its message. -/
theorem processServerCertificate_accepts (hrec : HoldsRecord c.stream) :
    (after (processServerCertificate c)).handshakeState = c.handshakeState ∨
      (typeByte c.stream = some HandshakeType.Certificate ∧
        (after (processServerCertificate c)).handshakeState = .ServerKeyExchange) := by
  rw [processServerCertificate, bind_of_ok (onStream_popObject_record hrec.header)]
  dsimp only
  rw [bind_of_ok (get_apply _)]
  cases hpeek : (c.afterHeader hrec.header).stream.peekObject HandshakeHeader with
  | none => exact Or.inl rfl
  | some header =>
    dsimp only
    have htype : typeByte c.stream = some header.handshakeType := by
      by_cases hlen : 4 ≤ (c.afterHeader hrec.header).stream.size
      · rw [Stream.peekObject_of_le _ HandshakeHeader hlen] at hpeek
        cases hpeek
        rw [typeByte, ← drop_afterHeader hrec.header]
        rw [← Stream.length_content] at hlen
        cases hcontent : (c.afterHeader hrec.header).stream.content with
        | nil => rw [hcontent] at hlen; cases hlen
        | cons b bs => rfl
      · rw [Stream.peekObject_of_gt _ HandshakeHeader (Nat.lt_of_not_le hlen)] at hpeek
        cases hpeek
    rw [require_bind]
    split
    · next hcert =>
      have hquiet := onStream_pop_quiet (firstRecord c.stream).size (c.afterHeader hrec.header)
      rw [bind_apply]
      cases hpop : onStream (Stream.pop (firstRecord c.stream).size)
        (c.afterHeader hrec.header) with
      | error e d =>
        rw [hpop] at hquiet
        exact Or.inl hquiet.state
      | ok payload d =>
        rw [hpop] at hquiet
        cases payload with
        | none => exact Or.inl hquiet.state
        | some payload =>
          refine Or.inr ⟨?_, rfl⟩
          rw [htype, beq_iff_eq.mp hcert]
    · exact Or.inl rfl

/-- The byte behind the record header, as `process_server_finished` looks at it. -/
theorem typeByte_of_lt (h : RecordHeader.sizeof < s.size) :
    typeByte s = some (s.buffer (s.read + RecordHeader.sizeof)) := by
  rw [typeByte, List.head?_drop]
  exact Memory.getElem?_bytes s.buffer h

/-- The two records of a last step that moves on. -/
theorem finishedRecords_of_read (hrec : HoldsRecord s) (hcut : ¬ CutOff (afterRecord s))
    (htype : (firstRecord s).contentType = .ChangeCipher)
    (hfirst : s.buffer (s.read + RecordHeader.sizeof) = 1)
    (hnext : (headerOf (afterRecord s)).contentType = .Handshake)
    (hsize : (firstRecord s).size ≤ 1) : FinishedRecords s := by
  have hlong : RecordHeader.sizeof ≤ (afterRecord s).length :=
    Nat.le_of_not_lt fun h => hcut (Or.inl h)
  have hcomplete : RecordHeader.sizeof + (headerOf (afterRecord s)).size ≤
      (afterRecord s).length := Nat.le_of_not_lt fun h => hcut (Or.inr ⟨hnext, h⟩)
  have hlen := length_afterRecord s
  have hbyte : typeByte s = some 1 := by
    rw [typeByte_of_lt (by unfold RecordHeader.sizeof at *; omega), hfirst]
  refine ⟨hrec, htype, ?_, hlong, hnext, hcomplete⟩
  by_cases hzero : (firstRecord s).size = 0
  · -- an empty message has the next header behind it, which is not that of a handshake record
    have hafter : (afterRecord s).head? = some 1 := by
      rw [afterRecord, hzero, Nat.add_zero]
      exact hbyte
    cases hbytes : afterRecord s with
    | nil => rw [hbytes] at hlong; cases hlong
    | cons b bs =>
      rw [hbytes] at hafter hnext
      cases hafter
      cases hnext
  · have hone : (firstRecord s).size = 1 := by omega
    rw [typeByte] at hbyte
    rw [recordPayload, hone]
    cases hbytes : s.content.drop RecordHeader.sizeof with
    | nil => rw [hbytes] at hbyte; cases hbyte
    | cons b bs =>
      rw [hbytes] at hbyte
      cases hbyte
      rfl

/-- A step that parses a record and then moves on. -/
theorem Accepts.of_parse {x : Prog Client Bool} {f : Bool → Prog Client Unit}
    (hx : PopsHeader Quiet x)
    (hfalse : ∀ d, (after (f false d)).handshakeState = d.handshakeState)
    (htrue : ∀ d, x c = .ok true d → Expected c ∧
      ((after (f true d)).handshakeState = d.handshakeState ∨
        (after (f true d)).handshakeState = c.handshakeState.next)) :
    Accepts c (after ((x >>= f) c)) := by
  have hquiet := hx.quiet c
  rw [bind_apply]
  cases hdone : x c with
  | error e d => rw [hdone] at hquiet; exact Or.inl hquiet.state
  | ok done d =>
    rw [hdone] at hquiet
    cases done with
    | false => exact Or.inl ((hfalse d).trans hquiet.state)
    | true =>
      obtain ⟨hexpected, hsame | hnext⟩ := htrue d hdone
      · exact Or.inl (hsame.trans hquiet.state)
      · exact Or.inr (Or.inr ⟨hexpected, hnext⟩)

/-- A regular last step. -/
theorem processServerFinished_accepts (env : Env) (hreg : Regular c) (hrec : HoldsRecord c.stream)
    (hfinished : c.handshakeState = .ClientFinished) :
    Accepts c (after (processHandshake env c)) := by
  have hregular := hreg hrec
  rw [hfinished] at hregular
  rw [processHandshake_finished env hfinished]
  rcases readServerFinished_cases hrec with ⟨e, hr, -⟩ | ⟨hr, -⟩ |
    ⟨read, hr, -, hhigh, hcut, htype, hfirst, hnext⟩
  · rw [hr]
    exact Or.inl rfl
  · rw [hr]
    exact Or.inl rfl
  · rw [hr]
    dsimp only
    rw [bind_of_ok (onStream_of_ok (Stream.commit_of_le hhigh))]
    refine Or.inr (Or.inr ⟨?_, by rw [hfinished]; rfl⟩)
    rw [Expected, hfinished]
    exact finishedRecords_of_read hrec hcut htype hfirst hnext (hregular htype)

/-- A regular handshake step. -/
theorem processHandshake_accepts (env : Env) (hreg : Regular c) (hrec : HoldsRecord c.stream) :
    Accepts c (after (processHandshake env c)) := by
  have hregular := hreg hrec
  by_cases hfinished : c.handshakeState = .ClientFinished
  · exact processServerFinished_accepts env hreg hrec hfinished
  rw [processHandshake, bind_of_ok (get_apply c)]
  cases hstate : c.handshakeState with
  | ServerHello =>
    rw [hstate] at hregular
    refine Accepts.of_parse processServerHello_popsHeader (fun _ => rfl) fun d hdone => ?_
    obtain ⟨htype, hsize, hbyte⟩ := hregular (processServerHello_true hrec hdone)
    rw [Expected, hstate]
    exact ⟨⟨hrec, htype, (head_recordPayload hsize).trans hbyte⟩, Or.inr rfl⟩
  | ServerCertificate =>
    rw [hstate] at hregular
    rcases processServerCertificate_accepts hrec with h | ⟨hbyte, h⟩
    · exact Or.inl h
    · obtain ⟨htype, hsize⟩ := hregular hbyte
      refine Or.inr (Or.inr ⟨?_, by rw [hstate]; exact h⟩)
      rw [Expected, hstate]
      exact ⟨hrec, htype, (head_recordPayload hsize).trans hbyte⟩
  | ServerKeyExchange =>
    rw [hstate] at hregular
    refine Accepts.of_parse processServerKeyExchange_popsHeader (fun _ => rfl) fun d hdone => ?_
    have hbyte := processServerKeyExchange_true hrec hdone
    obtain ⟨htype, hsize⟩ := hregular hbyte
    rw [Expected, hstate]
    exact ⟨⟨hrec, htype, (head_recordPayload hsize).trans hbyte⟩, Or.inr rfl⟩
  | ServerHelloDone =>
    rw [hstate] at hregular
    refine Accepts.of_parse processServerHelloDone_popsHeader (fun _ => rfl) fun d hdone => ?_
    have hbyte := processServerHelloDone_true hrec hdone
    obtain ⟨htype, hsize⟩ := hregular hbyte
    have hsend := sendClientKeyExchangeAndFinished_reached env d
    rw [Expected, hstate, if_pos rfl, bind_apply]
    refine ⟨⟨hrec, htype, (head_recordPayload hsize).trans hbyte⟩, ?_⟩
    cases hflight : sendClientKeyExchangeAndFinished env d with
    | error e t => exact Or.inl (hsend.error hflight).2
    | ok _ t => exact Or.inr rfl
  | ClientFinished => exact absurd hstate hfinished
  | ClientHelloToSend => exact Or.inl rfl
  | ClientKeyExchange => exact Or.inl rfl
  | ServerFinished => exact Or.inl rfl

/-- A regular call of `receive`. -/
theorem receiveOnce_accepts (env : Env) (hreg : Regular c) :
    Accepts c (after (receiveOnce env c)) := by
  refine receiveOnce_related (fun hstate => ?_) (fun hrec _ => ?_) (fun _ _ => ?_)
  · have hsend := sendClientHello_reached env c
    rw [bind_apply]
    cases hhello : sendClientHello env c with
    | error e d => exact Or.inl (hsend.error hhello).2
    | ok _ d => exact Or.inr (Or.inl ⟨hstate, rfl⟩)
  · exact processHandshake_accepts env hreg hrec
  · exact Or.inl (receiveRecord_quiet _ _ c).state

/-! ## Runs -/

/-- The states in which a call of `receive` was made or called itself. -/
def visits (past : List (Client × Call)) : List Client :=
  past.filterMap fun x => match x.2 with
    | .receive => some x.1
    | _ => none

/-- A run of the client, with the states in which a call of `receive` was made or called itself. -/
def Trace (env : Env) (visited : List Client) (c : Client) : Prop :=
  ∃ past, Run env past c ∧ visits past = visited

theorem visits_concat (past : List (Client × Call)) (c : Client) (call : Call) :
    visits (past ++ [(c, call)]) = visits past ++ visits [(c, call)] :=
  List.filterMap_append

theorem mem_visits {past : List (Client × Call)} {c : Client} {call : Call} {d : Client} :
    d ∈ visits past → d ∈ visits (past ++ [(c, call)]) := by
  rw [visits_concat]
  exact List.mem_append_left _

/-- Every state that the handshake has passed was left on what it waits for. -/
def Passed (visited : List Client) (c : Client) : Prop :=
  ∀ s : HandshakeState, s.Awaits → s.index < c.handshakeState.index →
    ∃ d ∈ visited, d.handshakeState = s ∧ Expected d

theorem Passed.of_state {visited : List Client} (h : Passed visited c)
    (hstate : c'.handshakeState = c.handshakeState) : Passed visited c' := by
  unfold Passed
  rw [hstate]
  exact h

/-- No state that waits for a message lies between two states that follow each other. -/
theorem index_lt_next {s s' : HandshakeState} (h : s.Awaits) (hlt : s.index < s'.next.index)
    (hnot : ¬ s.index < s'.index) : s = s' := by
  cases s <;> cases s' <;> simp_all [HandshakeState.index, HandshakeState.next, HandshakeState.Awaits]

theorem Passed.receive {visited : List Client} (h : Passed visited c)
    (haccepts : Accepts c c') : Passed (visited ++ [c]) c' := by
  intro s hs hlt
  have hkeep : s.index < c.handshakeState.index →
      ∃ d ∈ visited ++ [c], d.handshakeState = s ∧ Expected d := by
    intro hlt
    obtain ⟨d, hd, hexpected⟩ := h s hs hlt
    exact ⟨d, List.mem_append_left _ hd, hexpected⟩
  rcases haccepts with hstate | ⟨-, hstate⟩ | ⟨hexpected, hstate⟩
  · exact hkeep (hstate ▸ hlt)
  · rw [hstate] at hlt
    exfalso
    cases s <;> simp_all [HandshakeState.index, HandshakeState.next, HandshakeState.Awaits]
  · rw [hstate] at hlt
    by_cases hbefore : s.index < c.handshakeState.index
    · exact hkeep hbefore
    · exact ⟨c, by simp, (index_lt_next hs hlt hbefore).symm, hexpected⟩

theorem construct_state (env : Env) (c : Client) :
    (after (construct env c)).handshakeState = c.handshakeState := by
  have hquiet := quiet_generateClientRandom env.ossl c
  rw [construct, bind_apply]
  cases hr : generateClientRandom env.ossl c with
  | error e d => rw [hr] at hquiet; exact hquiet.state
  | ok _ d =>
    rw [hr] at hquiet
    exact (congrArg handshakeState (after_zoom _ _ _ d)).trans hquiet.state

end Accepts

/-- **Handshake acceptance**: in every run in which the server is regular whenever `receive` looks
at the stream, every call leaves the handshake where it is or moves it on because of the record
that its state waits for; so a handshake that has passed a state was given that record in it. -/
theorem handshake_acceptance (env : Env) (visited : List Client) (c : Client)
    (h : Trace env visited c) (hregular : ∀ d ∈ visited, Regular d) :
    (∀ d ∈ visited, Accepts d (after (receiveOnce env d))) ∧ Passed visited c := by
  refine ⟨fun d hd => receiveOnce_accepts env (hregular d hd), ?_⟩
  obtain ⟨past, hrun, rfl⟩ := h
  revert hregular
  refine hrun.invariant (I := fun past c => (∀ d ∈ visits past, Regular d) → Passed (visits past) c)
    (fun sniHostname tcp _ s _ hlt => ?_) fun past c call ih hregular => ?_
  · have hstart := construct_state env (.init sniHostname tcp)
    rw [constructed, hstart] at hlt
    cases hlt
  · have hpassed := ih fun d hd => hregular d (mem_visits hd)
    rw [visits_concat] at hregular ⊢
    cases call with
    | receive => exact hpassed.receive (receiveOnce_accepts env (hregular c (by simp [visits])))
    | processPacket p =>
      exact (List.append_nil _).symm ▸ hpassed.of_state (processPacket_state env p c)
    | pushString str =>
      exact (List.append_nil _).symm ▸
        hpassed.of_state (quiet_onSendBuffer (Stream.pushString str) c).state
    | flush fails =>
      exact (List.append_nil _).symm ▸ hpassed.of_state
        ((flushWith_reached fails env c).mono (fun _ _ h => h.2) (fun _ _ h => h.2)).after

/-! ### A ServerHello of another content type -/

/-- The client that waits for the ServerHello and is given one in a record of this type. -/
def awaitingClient (contentType : ContentType) : Client :=
  after (processPacket sampleEnv
    (Tcp.Client.segment 1 ([contentType, 3, 3, 0, 44, 2, 0, 0, 40, 3, 3] ++ List.replicate 32 0 ++
      [0, 0xC0, 0x2F, 0, 0, 0])) (after (receiveOnce sampleEnv connectedClient)))

theorem awaitingClient_trace (contentType : ContentType) :
    Trace sampleEnv [connectedClient, awaitingClient contentType]
      (after (receiveOnce sampleEnv (awaitingClient contentType))) := by
  have hstart := Run.construct sampleEnv [] (.new Tcp.Client.sampleConnection {} 7 0)
  have hconnected : Run sampleEnv [(_, .processPacket _)] connectedClient := hstart.call _
  have hgreeted : Run sampleEnv [(_, .processPacket _), (connectedClient, .receive)]
      (after (receiveOnce sampleEnv connectedClient)) := hconnected.call .receive
  have hawaiting : Run sampleEnv [(_, .processPacket _), (connectedClient, .receive),
      (_, .processPacket _)] (awaitingClient contentType) := hgreeted.call _
  exact ⟨_, hawaiting.call .receive, rfl⟩

/-- A record with a ServerHello stands in the stream of a client that waits for one. -/
theorem awaitingClient_stream : ∀ t ∈ [ContentType.Handshake, .ApplicationData],
    (awaitingClient t).handshakeState = .ServerHello ∧
      firstRecord (awaitingClient t).stream = ⟨t, kTls12, 44⟩ ∧
      (after (receiveOnce sampleEnv (awaitingClient t))).handshakeState = .ServerCertificate := by
  decide +kernel

theorem connectedClient_regular : Regular connectedClient := by
  intro hrec
  have hstate : connectedClient.handshakeState = .ClientHelloToSend := by decide +kernel
  rw [hstate]
  trivial

theorem awaitingClient_accepted :
    ∃ d ∈ [connectedClient, awaitingClient .Handshake], d.handshakeState = .ServerHello ∧ Expected d := by
  obtain ⟨hstate, hfirst, hafter⟩ := awaitingClient_stream .Handshake (by decide)
  have hregular : Regular (awaitingClient .Handshake) := by
    intro hrec
    rw [hstate]
    intro _
    exact ⟨by rw [hfirst], by rw [hfirst]; decide, by decide +kernel⟩
  have hall : ∀ d ∈ [connectedClient, awaitingClient .Handshake], Regular d := by
    simpa using ⟨connectedClient_regular, hregular⟩
  exact (handshake_acceptance sampleEnv _ _ (awaitingClient_trace .Handshake) hall).2 .ServerHello
    (by decide) (by decide +kernel)

/-- A ServerHello in a record of application data moves the handshake on. -/
theorem applicationData_hello_accepted :
    Trace sampleEnv [connectedClient, awaitingClient .ApplicationData]
        (after (receiveOnce sampleEnv (awaitingClient .ApplicationData))) ∧
      (firstRecord (awaitingClient .ApplicationData).stream).contentType = .ApplicationData ∧
      (awaitingClient .ApplicationData).handshakeState = .ServerHello ∧
      (after (receiveOnce sampleEnv (awaitingClient .ApplicationData))).handshakeState =
        .ServerCertificate ∧
      ¬ Accepts (awaitingClient .ApplicationData)
        (after (receiveOnce sampleEnv (awaitingClient .ApplicationData))) := by
  obtain ⟨hstate, hfirst, hafter⟩ := awaitingClient_stream .ApplicationData (by decide)
  have htype : (firstRecord (awaitingClient .ApplicationData).stream).contentType =
      .ApplicationData := by rw [hfirst]
  refine ⟨awaitingClient_trace _, htype, hstate, hafter, ?_⟩
  rintro (h | ⟨h, -⟩ | ⟨hexpected, -⟩)
  · rw [hafter, hstate] at h
    cases h
  · rw [hstate] at h
    cases h
  · rw [Expected, hstate] at hexpected
    have hhandshake := hexpected.contentType
    rw [htype] at hhandshake
    cases hhandshake

end Client

end WsGateway.Network.Tls12
