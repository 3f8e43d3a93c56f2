import WsGateway.Verify.Base.Queue
import WsGateway.Verify.Tls12.DataFrames
import WsGateway.Verify.Tls12.Runs
import WsGateway.Verify.Wss.Upgrade

/-!
# The order of `next_message`

`next_message` reads what TLS has, moves the state machine on and falls through to
`extract_payload`. Before the TLS handshake is complete there is nothing to
extract, and while the response is awaited the call returns early. But the call
that sends the upgrade request goes on to extract, so a frame that the server has
sent before it could see the request is taken. In the runs without such a frame
a payload is returned and bytes are taken by a connected client only, and the card
gets the request once.
-/

namespace WsGateway.Network.Wss

open Library

namespace Client

/-! ## Runs -/

/-- A call on the client. -/
inductive Call where
  | processPacket (p : Tcp.PacketView)
  | nextMessage

/-- The client that a call leaves behind, also if it throws. -/
def Call.run (env : Env) (c : Client) : Call → Client
  | .processPacket p => after (Client.processPacket env p c)
  | .nextMessage => after (Client.nextMessage env c)

/-- The client behind its constructor. -/
def constructed (env : Env) (config : Config) (tcp : Tcp.Client) : Client :=
  after (construct env (.init config tcp))

/-- A run that has come to `c`, with its past: the calls, each with the client it was made on. -/
def Run (env : Env) : List (Client × Call) → Client → Prop :=
  IsRun (Call.run env) fun c => ∃ config tcp, c = constructed env config tcp

/-- The frames with application data that the card took during a call. -/
def dataFrames (env : Env) (x : Client × Call) : List ByteView :=
  (Tcp.Client.framesSince x.1.tls.tcp (x.2.run env x.1).tls.tcp).filter Tls12.carriesData

/-! ## The order -/

/-- What TLS has delivered when a call of `next_message` has read everything it has. -/
def delivered (env : Env) (c : Client) : List UInt8 :=
  (after (receiveAll env (c.tls.stream.size + 1) c)).stream.content

/-- A call of `next_message` finds things in order, if it is one that finds TLS complete in the
initial state: the bytes that TLS has delivered do not begin with a frame, and none are left in the
send buffer by a call that threw. -/
def Orderly (env : Env) (c : Client) : Prop :=
  c.state = .Init → ∀ c₁, receiveAll env (c.tls.stream.size + 1) c = .ok () c₁ →
    c₁.tls.isHandshakeComplete = true →
    Incomplete c₁.stream.content ∧ c₁.tls.sendBuffer.content = []

/-- The call has ended with `extract_payload` on this stream: what it takes comes from there, and
what it returns. -/
structure ExtractsFrom (s : Stream) (r : EStateM.Result Error Client (Option (List UInt8))) :
    Prop where
  stream : (after r).stream = after (extractPayload s)
  payload : ∀ payload c', r = .ok (some payload) c' →
    ∃ code, extractPayload s = .ok (some ⟨code, payload⟩) c'.stream

/-- `accept_handshake` has taken a response off the front of the stream, up to the end of its
header. -/
structure Accepts (c c' : Client) : Prop where
  accepted : acceptHandshake c = .ok true c'
  status : statusLine <:+: c.stream.content
  behind : ∃ i, FirstAt headerEnd c.stream.content i ∧
    c'.stream.content = c.stream.content.drop (i + 4)

/-- A call of `next_message` returns a payload, or takes bytes that TLS has delivered, in a
connected client only; and what it takes when it connects the client is behind the response. -/
structure OnlyConnected (env : Env) (c : Client) : Prop where
  returns : ∀ payload c', nextMessage env c = .ok (some payload) c' → c'.state = .Connected
  keeps : (after (nextMessage env c)).state ≠ .Connected →
    (after (nextMessage env c)).stream.content = delivered env c
  connects : c.state ≠ .Connected → (after (nextMessage env c)).state = .Connected →
    c.state = .HttpHandshake ∧ ∃ c₁ c₂, receiveAll env (c.tls.stream.size + 1) c = .ok () c₁ ∧
      Accepts c₁ c₂ ∧ ExtractsFrom c₂.stream (nextMessage env c)

/-- The payload of the frame is the record in which this client sends the upgrade request. -/
def RequestFrame (env : Env) (c : Client) (frame : ByteView) : Prop :=
  (Tcp.PacketView.ofBytes frame).payload.toList = Tls12.recordBytes .ApplicationData
    (Tls12.Client.sealedBody env.ossl c.tls (upgradeRequest c.config env.secWebSocketKey))

/-- A call of `next_message` in the initial state sends the upgrade request, with TLS complete, and
no other application data. -/
structure SendsRequest (env : Env) (c : Client) : Prop where
  init : c.state = .Init
  sends : ∃ c₁ frame, receiveAll env (c.tls.stream.size + 1) c = .ok () c₁ ∧
    c₁.tls.isHandshakeComplete = true ∧ dataFrames env (c, .nextMessage) = [frame] ∧
    RequestFrame env c₁ frame

/-- The upgrade request is the only application data that the card was given: not yet in the initial
state, and once by a client that has left it. -/
structure RequestedOnce (env : Env) (past : List (Client × Call)) (c : Client) : Prop where
  notYet : c.state = .Init → past.flatMap (dataFrames env) = []
  once : c.state ≠ .Init → ∃ before d rest, past = before ++ (d, .nextMessage) :: rest ∧
    before.flatMap (dataFrames env) = [] ∧ SendsRequest env d ∧
    rest.flatMap (dataFrames env) = []

/-- Until TLS is ready, the client has neither sent nor received anything. -/
def Closed (c : Client) : Prop :=
  c.tls.isHandshakeComplete = false → c.state = .Init ∧ c.stream.content = []

section Calls

variable {env : Env} {c c₁ c' : Client} {n : Nat}

/-! ## Reading from TLS -/

theorem isHandshakeComplete_iff {c : Tls12.Client} :
    c.isHandshakeComplete = true ↔ c.handshakeState = .ServerFinished := by
  simp [Tls12.Client.isHandshakeComplete]

theorem closed_of_finished (h : c.tls.handshakeState = .ServerFinished) : Closed c := by
  intro hfalse
  rw [isHandshakeComplete_iff.mpr h] at hfalse
  cases hfalse

/-- A call on the TLS client that keeps a complete handshake. -/
theorem Closed.onTls {t : Tls12.Client} (h : Closed c)
    (hstays : Tls12.Client.StaysFinished c.tls t) : Closed { c with tls := t } := by
  intro hfalse
  apply h
  by_contra htrue
  have hfinished := hstays (isHandshakeComplete_iff.mp (by simpa using htrue))
  rw [isHandshakeComplete_iff.mpr hfinished] at hfalse
  cases hfalse

theorem receive_closed (env : Env) (h : Closed c) :
    Ends (onTls (Tls12.Client.receive env.toEnv)) c
      (fun r d => Closed d ∧ (r.isSome → d.tls.handshakeState = .ServerFinished))
      (fun _ d => Closed d) := by
  have hstays := Tls12.Client.receive_staysFinished env.toEnv c.tls
  apply Ends.member
  unfold Ends
  cases hreceive : Tls12.Client.receive env.toEnv c.tls with
  | error e t =>
    rw [hreceive] at hstays
    exact h.onTls hstays
  | ok r t =>
    rw [hreceive] at hstays
    refine ⟨h.onTls hstays, fun hsome => ?_⟩
    obtain ⟨bytes, rfl⟩ := Option.isSome_iff_exists.mp hsome
    exact Tls12.Client.receive_some hreceive

/-- What happens to the stream does not concern TLS. -/
theorem onStream_finished {α : Type} (x : Prog Stream α)
    (h : c.tls.handshakeState = .ServerFinished) : Ends (onStream x) c
      (fun _ d => d.tls.handshakeState = .ServerFinished)
      (fun _ d => d.tls.handshakeState = .ServerFinished) := by
  apply Ends.member
  unfold Ends
  cases x c.stream with
  | ok a s => exact h
  | error e s => exact h

/-- Reading what TLS has keeps the client closed or opens TLS. -/
theorem receiveAll_closed (env : Env) (n : Nat) (h : Closed c) :
    Ends (receiveAll env n) c (fun _ d => Closed d) (fun _ d => Closed d) := by
  induction n generalizing c with
  | zero => exact Ends.raise h
  | succ n ih =>
    refine Ends.seq (receive_closed env h) fun r d hd => ?_
    cases r with
    | none => exact Ends.ret hd.1
    | some bytes =>
      have hfinished : ({ d with stream := d.stream.shift } : Client).tls.handshakeState =
          .ServerFinished := hd.2 rfl
      refine Ends.update (Ends.seq ((onStream_finished _ hfinished).mono (fun _ _ h => h) ?_) ?_)
      · exact fun _ d hd => closed_of_finished hd
      · exact fun _ d hd => ih (closed_of_finished hd)

/-- What reading from TLS leaves as it is; and the card gets no application data. -/
structure Reads (env : Env) (c c' : Client) : Prop where
  state : c'.state = c.state
  silent : Tls12.Client.NoData c.tls c'.tls
  reachable : Tls12.Client.Reachable env.toEnv c.tls → Tls12.Client.Reachable env.toEnv c'.tls

theorem Reads.of_tls (hstate : c'.state = c.state) (htls : c'.tls = c.tls) : Reads env c c' :=
  ⟨hstate, Tls12.Client.noData_of_tcp (by rw [htls]), by rw [htls]; exact id⟩

instance : Std.Refl (Reads env) := ⟨fun _ => .of_tls rfl rfl⟩

instance : IsTrans Client (Reads env) :=
  ⟨fun _ _ _ h h' => ⟨h'.state.trans h.state, IsTrans.trans _ _ _ h.silent h'.silent,
    h'.reachable ∘ h.reachable⟩⟩

theorem receiveAll_reads (env : Env) (n : Nat) : Moves (Reads env) (receiveAll env n) := by
  have hreceive : Moves (Reads env) (onTls (Tls12.Client.receive env.toEnv)) :=
    Moves.member (S := fun t t' => Tls12.Client.NoData t t' ∧
        (Tls12.Client.Reachable env.toEnv t → Tls12.Client.Reachable env.toEnv t'))
      (fun t => ⟨Tls12.Client.receive_noData env.toEnv t, fun h => h.receive⟩)
      fun _ _ h => ⟨rfl, h.1, h.2⟩
  induction n with
  | zero => exact Moves.raise _
  | succ n ih =>
    refine Moves.seq hreceive fun r => ?_
    cases r with
    | none => exact Moves.ret _
    | some bytes =>
      refine Moves.seq (Moves.update fun _ => .of_tls rfl rfl) fun _ => ?_
      refine Moves.seq (Moves.member (S := fun _ _ => True) (fun _ => trivial)
        fun _ _ _ => .of_tls rfl rfl) fun _ => ih

/-! ## Sending the request -/

theorem flush_staysFinished (env : Tls12.Env) :
    Moves Tls12.Client.StaysFinished (Tls12.Client.flush env) := by
  refine Moves.of_ends fun c => (Tls12.Client.flushWith_reached none env c).mono ?_ ?_
  · exact fun _ t h hc => h.2.trans hc
  · exact fun _ t h hc => h.2.trans hc

/-- Only the TLS client has changed, and its handshake is complete. -/
def OnlyTls (c d : Client) : Prop :=
  ∃ t : Tls12.Client, t.handshakeState = .ServerFinished ∧ d = { c with tls := t }

theorem OnlyTls.trans {d e : Client} (h : OnlyTls c d) (h' : OnlyTls d e) : OnlyTls c e := by
  obtain ⟨t, -, rfl⟩ := h
  obtain ⟨t', hfinished, rfl⟩ := h'
  exact ⟨t', hfinished, rfl⟩

theorem onTls_finished {α : Type} {x : Prog Tls12.Client α}
    (hx : Moves Tls12.Client.StaysFinished x) (h : c.tls.handshakeState = .ServerFinished) :
    Ends (onTls x) c (fun _ d => OnlyTls c d) (fun _ d => OnlyTls c d) := by
  have hstays := hx c.tls h
  apply Ends.member
  unfold Ends
  cases hrun : x c.tls with
  | ok a t => rw [hrun] at hstays; exact ⟨t, hstays, rfl⟩
  | error e t => rw [hrun] at hstays; exact ⟨t, hstays, rfl⟩

theorem pushString_staysFinished (str : List UInt8) :
    Moves Tls12.Client.StaysFinished (Tls12.Client.pushString str) :=
  fun c hc => (Tls12.Client.quiet_onSendBuffer (Stream.pushString str) c).state.trans hc

/-- Sending the request leaves the state to the caller. -/
theorem generateUpgradeRequest_finished (env : Env)
    (h : c.tls.handshakeState = .ServerFinished) : Ends (generateUpgradeRequest env) c
      (fun _ d => OnlyTls c d) (fun _ d => OnlyTls c d) := by
  apply Ends.read
  refine Ends.seq (Q := fun _ d => d = c) ?_ ?_
  · unfold Ends
    cases hinit : (c.state == State.Init) with
    | true => rfl
    | false => exact ⟨c.tls, h, rfl⟩
  rintro _ _ rfl
  refine Ends.seq (onTls_finished (pushString_staysFinished _) h) fun _ d hd => ?_
  have hdfinished : d.tls.handshakeState = .ServerFinished := by
    obtain ⟨t, ht, rfl⟩ := hd
    exact ht
  refine (onTls_finished (flush_staysFinished _) hdfinished).mono ?_ ?_
  · exact fun _ t ht => hd.trans ht
  · exact fun _ t ht => hd.trans ht

/-- The request in an empty send buffer, with room for it. -/
theorem pushRequest_ends (hempty : c.tls.sendBuffer.content = []) :
    Ends (onTls (Tls12.Client.pushString (upgradeRequest c.config env.secWebSocketKey))) c
      (fun _ d => ∃ s : Stream, d = { c with tls := { c.tls with sendBuffer := s } } ∧
        s.content = upgradeRequest c.config env.secWebSocketKey ∧
        s.capacity = c.tls.sendBuffer.capacity)
      (fun _ d => d.tls.tcp = c.tls.tcp) := by
  unfold Ends
  cases hpush : onTls (Tls12.Client.pushString (upgradeRequest c.config env.secWebSocketKey)) c with
  | error e d =>
    obtain ⟨t, ht, rfl⟩ := zoom_eq_error hpush
    rw [Tls12.Client.pushString] at ht
    obtain ⟨s, -, rfl⟩ := zoom_eq_error ht
    rfl
  | ok _ d =>
    obtain ⟨t, ht, rfl⟩ := zoom_eq_ok hpush
    rw [Tls12.Client.pushString] at ht
    obtain ⟨s, hs, rfl⟩ := zoom_eq_ok ht
    obtain ⟨hcontent, hcapacity⟩ := Stream.content_pushString hs
    rw [hempty, List.nil_append] at hcontent
    exact ⟨s, rfl, hcontent, hcapacity⟩

/-- If the request goes into an empty buffer, it is sent in one frame; or the call throws and sends
nothing. -/
theorem generateUpgradeRequest_sends (hreach : Tls12.Client.Reachable env.toEnv c.tls)
    (hempty : c.tls.sendBuffer.content = []) : Ends (generateUpgradeRequest env) c
      (fun _ d => ∃ frame, RequestFrame env c frame ∧
        d.tls.tcp.sender.transmitted = c.tls.tcp.sender.transmitted ++ [frame])
      (fun _ d => d.tls.tcp.sender.transmitted = c.tls.tcp.sender.transmitted) := by
  obtain ⟨hkey, hcapacity⟩ := hreach.sending
  apply Ends.read
  refine Ends.seq (Q := fun _ d => c = d) ?_ ?_
  · unfold Ends
    cases hinit : (c.state == State.Init) with
    | true => rfl
    | false => rfl
  rintro _ _ rfl
  refine Ends.seq ((pushRequest_ends hempty).mono (fun _ _ h => h) fun _ d h => by rw [h]) ?_
  rintro _ _ ⟨s, rfl, hcontent, hcap⟩
  unfold Ends
  cases hflush : onTls (Tls12.Client.flush env.toEnv)
      { c with tls := { c.tls with sendBuffer := s } } with
  | error e d =>
    obtain ⟨t, ht, rfl⟩ := zoom_eq_error hflush
    exact @Tls12.Client.flush_throws env.toEnv { c.tls with sendBuffer := s } _ _ hkey ht
  | ok _ d =>
    obtain ⟨t, ht, rfl⟩ := zoom_eq_ok hflush
    obtain ⟨frame, hframe, hpayload⟩ := @Tls12.Client.flush_frame env.toEnv
      { c.tls with sendBuffer := s } _ hkey (hcap.trans hcapacity) ht
    dsimp only at hpayload
    rw [hcontent] at hpayload
    exact ⟨frame, hpayload, hframe⟩

/-- The TLS client of a run stays one of a run. -/
def StaysReachable (env : Env) (c d : Client) : Prop :=
  Tls12.Client.Reachable env.toEnv c.tls → Tls12.Client.Reachable env.toEnv d.tls

instance : Std.Refl (StaysReachable env) := ⟨fun _ => id⟩

instance : IsTrans Client (StaysReachable env) := ⟨fun _ _ _ h h' => h' ∘ h⟩

theorem generateUpgradeRequest_reachable (env : Env) :
    Moves (StaysReachable env) (generateUpgradeRequest env) := by
  refine Moves.seq Moves.read fun c => ?_
  refine Moves.seq (Moves.of_unchanged (require_unchanged _ _)) fun _ => ?_
  refine Moves.seq (Moves.member (S := fun t t' => Tls12.Client.Reachable env.toEnv t →
    Tls12.Client.Reachable env.toEnv t') (fun _ h => h.pushString _) fun _ _ h => h) fun _ => ?_
  exact Moves.member (S := fun t t' => Tls12.Client.Reachable env.toEnv t →
    Tls12.Client.Reachable env.toEnv t') (fun _ h => h.call (.flush none)) fun _ _ h => h

/-- Nothing but the stream has changed. -/
def OnlyStream (c d : Client) : Prop := d.tls = c.tls ∧ d.state = c.state

instance : Std.Refl OnlyStream := ⟨fun _ => ⟨rfl, rfl⟩⟩

instance : IsTrans Client OnlyStream :=
  ⟨fun _ _ _ h h' => ⟨h'.1.trans h.1, h'.2.trans h.2⟩⟩

theorem takeMessage_onlyStream : Moves OnlyStream takeMessage := by
  refine Moves.seq (Moves.member (S := fun _ _ => True) (fun _ => trivial)
    fun _ _ _ => ⟨rfl, rfl⟩) fun res => ?_
  cases res with
  | none => exact Moves.ret _
  | some res =>
    dsimp only
    split
    · exact Moves.ret _
    · exact Moves.ret _

/-- What is returned, and what is taken, comes from the stream. -/
theorem takeMessage_extracts (c : Client) : ExtractsFrom c.stream (takeMessage c) := by
  rw [takeMessage]
  cases hextract : extractPayload c.stream with
  | error e s =>
    have hcall : onStream extractPayload c = .error e { c with stream := s } :=
      zoom_of_error hextract
    rw [bind_of_error hcall]
    exact ⟨by rw [hextract]; rfl, fun _ _ h => by cases h⟩
  | ok r s =>
    have hcall : onStream extractPayload c = .ok r { c with stream := s } := zoom_of_ok hextract
    rw [bind_of_ok hcall]
    cases r with
    | none => exact ⟨by rw [hextract]; rfl, fun _ _ h => by cases h⟩
    | some res =>
      dsimp only
      split
      · refine ⟨by rw [hextract]; rfl, fun payload c' h => ?_⟩
        cases h
        exact ⟨res.code, hextract⟩
      · exact ⟨by rw [hextract]; rfl, fun _ _ h => by cases h⟩

theorem takeMessage_incomplete (h : Incomplete c.stream.content) :
    takeMessage c = .ok none c := by
  rw [takeMessage, onStream, bind_of_ok (zoom_of_ok (extractPayload_incomplete h))]
  rfl

/-! ## One call of `next_message` -/

/-- `next_message` behind the loop over the received records. -/
theorem nextMessage_bind (h : receiveAll env (c.tls.stream.size + 1) c = .ok () c₁) :
    nextMessage env c =
      (advanceState env >>= fun goOn => if !goOn then pure none else takeMessage) c₁ := by
  rw [nextMessage, bind_of_ok (get_apply c), bind_of_ok h]
  rfl

/-- Before TLS is ready the state machine does nothing. -/
theorem advanceState_unfinished (env : Env) (h : c.tls.isHandshakeComplete = false) :
    advanceState env c = .ok true c := by
  rw [advanceState, bind_of_ok (get_apply c), h]
  rfl

/-- What a call of `next_message` comes to when it has read what TLS has, in the state `c` then. -/
inductive Outcome (env : Env) (c : Client) :
    EStateM.Result Error Client (Option (List UInt8)) → Prop where
  | early (h : c.tls.isHandshakeComplete = false) : Outcome env c (takeMessage c)
  | unsent {e : Error} {c' : Client} (h : c.tls.handshakeState = .ServerFinished)
      (hstate : c.state = .Init) (hrequest : generateUpgradeRequest env c = .error e c') :
      Outcome env c (.error e c')
  | sent {c' : Client} (h : c.tls.handshakeState = .ServerFinished) (hstate : c.state = .Init)
      (hrequest : generateUpgradeRequest env c = .ok () c') :
      Outcome env c (takeMessage { c' with state := .HttpHandshake })
  | waits (h : c.tls.handshakeState = .ServerFinished) (hstate : c.state = .HttpHandshake) :
      Outcome env c (.ok none c)
  | accepts {s : Stream} (h : c.tls.handshakeState = .ServerFinished)
      (hstate : c.state = .HttpHandshake) (haccepts : Accepts c { c with stream := s }) :
      Outcome env c (takeMessage { c with stream := s, state := .Connected })
  | connected (h : c.tls.handshakeState = .ServerFinished) (hstate : c.state = .Connected) :
      Outcome env c (takeMessage c)

theorem nextMessage_outcome (h : receiveAll env (c.tls.stream.size + 1) c = .ok () c₁) :
    Outcome env c₁ (nextMessage env c) := by
  rw [nextMessage_bind h]
  cases hcomplete : c₁.tls.isHandshakeComplete with
  | false =>
    rw [bind_of_ok (advanceState_unfinished env hcomplete)]
    exact .early hcomplete
  | true =>
    have hfinished := isHandshakeComplete_iff.mp hcomplete
    cases hstate : c₁.state with
    | Init =>
      have hadvance : advanceState env c₁ = (generateUpgradeRequest env >>= fun _ =>
          setState .HttpHandshake >>= fun _ => pure true) c₁ := by
        rw [advanceState, bind_of_ok (get_apply c₁), if_pos hcomplete, hstate]
      cases hrequest : generateUpgradeRequest env c₁ with
      | error e c₂ =>
        rw [bind_of_error (hadvance.trans (bind_of_error hrequest))]
        exact .unsent hfinished hstate hrequest
      | ok _ c₂ =>
        have hgo : advanceState env c₁ = .ok true { c₂ with state := .HttpHandshake } :=
          hadvance.trans (bind_of_ok hrequest)
        rw [bind_of_ok hgo]
        exact .sent hfinished hstate hrequest
    | HttpHandshake =>
      have hadvance : advanceState env c₁ = (acceptHandshake >>= fun accepted =>
          if accepted then setState .Connected >>= fun _ => pure true else pure false) c₁ := by
        rw [advanceState, bind_of_ok (get_apply c₁), if_pos hcomplete, hstate]
      by_cases hboth : statusLine <:+: c₁.stream.content ∧ headerEnd <:+: c₁.stream.content
      · obtain ⟨i, s, hfirst, hs, -, htrue⟩ := acceptHandshake_true hstate hboth.1 hboth.2
        have hgo : advanceState env c₁ = .ok true { c₁ with stream := s, state := .Connected } :=
          hadvance.trans (bind_of_ok htrue)
        rw [bind_of_ok hgo]
        exact .accepts hfinished hstate ⟨htrue, hboth.1, i, hfirst, hs⟩
      · have hgo : advanceState env c₁ = .ok false c₁ :=
          hadvance.trans (bind_of_ok (acceptHandshake_false hstate hboth))
        rw [bind_of_ok hgo]
        exact .waits hfinished hstate
    | Connected =>
      have hgo : advanceState env c₁ = .ok true c₁ := by
        rw [advanceState, bind_of_ok (get_apply c₁), if_pos hcomplete, hstate]
        rfl
      rw [bind_of_ok hgo]
      exact .connected hfinished hstate

/-- A call that returns no payload in a client that is not connected. -/
theorem OnlyConnected.of_waits (hnone : ∀ payload c', nextMessage env c ≠ .ok (some payload) c')
    (hkeeps : (after (nextMessage env c)).stream.content = delivered env c)
    (hstate : (after (nextMessage env c)).state ≠ .Connected) : OnlyConnected env c where
  returns payload c' h := absurd h (hnone payload c')
  keeps _ := hkeeps
  connects _ h := absurd h hstate

/-- What has come to `take_message` in a connected client ends in one. -/
theorem takeMessage_state (c : Client) : (after (takeMessage c)).state = c.state :=
  (takeMessage_onlyStream c).2

/-- **One call**, if it finds things in order. -/
theorem Closed.onlyConnected (h : Closed c) (horderly : Orderly env c) : OnlyConnected env c := by
  have hclosed := receiveAll_closed env (c.tls.stream.size + 1) h
  have hreads := receiveAll_reads env (c.tls.stream.size + 1) c
  cases hall : receiveAll env (c.tls.stream.size + 1) c with
  | error e c₁ =>
    rw [hall] at hreads
    have herror : nextMessage env c = .error e c₁ := by
      rw [nextMessage, bind_of_ok (get_apply c), bind_of_error hall]
    refine ⟨fun payload c' hok => ?_, fun _ => ?_, fun hne heq => ?_⟩
    · rw [herror] at hok
      cases hok
    · rw [herror, delivered, hall]
      rfl
    · rw [herror] at heq
      exact absurd (hreads.state.symm.trans heq) hne
  | ok _ c₁ =>
    rw [hall] at hreads
    have hstate₁ : c₁.state = c.state := hreads.state
    have hdelivered : delivered env c = c₁.stream.content := by rw [delivered, hall, after_ok]
    have hclosed₁ : Closed c₁ := hclosed.ok hall
    have houtcome := nextMessage_outcome hall
    generalize hr : nextMessage env c = r at houtcome
    cases houtcome with
    | early hcomplete =>
      obtain ⟨hinit, hempty⟩ := hclosed₁ hcomplete
      have hnone := takeMessage_incomplete (c := c₁) (by rw [hempty]; exact incomplete_nil)
      rw [hnone] at hr
      refine .of_waits (fun payload c' hok => ?_) ?_ ?_
      · rw [hr] at hok
        cases hok
      · rw [hr, hdelivered, after_ok]
      · rw [hr, after_ok, hinit]
        exact State.noConfusion
    | @unsent e c₂ hfinished hinit hrequest =>
      obtain ⟨t, -, rfl⟩ := (generateUpgradeRequest_finished env hfinished).error hrequest
      refine .of_waits (fun payload c' hok => ?_) ?_ ?_
      · rw [hr] at hok
        cases hok
      · rw [hr, hdelivered, after_error]
      · rw [hr, after_error, hinit]
        exact State.noConfusion
    | @sent c₂ hfinished hinit hrequest =>
      obtain ⟨t, -, rfl⟩ := (generateUpgradeRequest_finished env hfinished).ok hrequest
      obtain ⟨hincomplete, -⟩ := horderly (hstate₁.symm.trans hinit) c₁ hall
        (isHandshakeComplete_iff.mpr hfinished)
      have hnone := takeMessage_incomplete (c := { c₁ with tls := t, state := .HttpHandshake })
        hincomplete
      rw [hnone] at hr
      refine .of_waits (fun payload c' hok => ?_) ?_ ?_
      · rw [hr] at hok
        cases hok
      · rw [hr, hdelivered, after_ok]
      · rw [hr, after_ok]
        exact State.noConfusion
    | waits hfinished hwaits =>
      refine .of_waits (fun payload c' hok => ?_) ?_ ?_
      · rw [hr] at hok
        cases hok
      · rw [hr, hdelivered, after_ok]
      · rw [hr, after_ok, hwaits]
        exact State.noConfusion
    | @accepts s hfinished hwaits haccepts =>
      have hstate := takeMessage_state { c₁ with stream := s, state := .Connected }
      have hextracts := takeMessage_extracts { c₁ with stream := s, state := .Connected }
      rw [← hr] at hstate hextracts
      refine ⟨fun payload c' hok => ?_, fun hne => absurd hstate hne, fun _ _ => ?_⟩
      · rw [hok] at hstate
        exact hstate
      · exact ⟨hstate₁.symm.trans hwaits, c₁, _, hall, haccepts, hextracts⟩
    | connected hfinished hconnected =>
      have hstate := takeMessage_state c₁
      rw [← hr] at hstate
      refine ⟨fun payload c' hok => ?_, fun hne => absurd (hstate.trans hconnected) hne,
        fun hne _ => absurd (hstate₁.symm.trans hconnected) hne⟩
      rw [hok] at hstate
      exact hstate.trans hconnected

/-- Behind the loop over the records a call sends nothing and keeps the initial state, or it sends
the request and leaves it. -/
theorem Outcome.sends {r : EStateM.Result Error Client (Option (List UInt8))}
    (h : Outcome env c r) (hclosed : Closed c) (hreach : Tls12.Client.Reachable env.toEnv c.tls)
    (hempty : c.state = .Init → c.tls.isHandshakeComplete = true → c.tls.sendBuffer.content = []) :
    Closed (after r) ∧ Tls12.Client.Reachable env.toEnv (after r).tls ∧
      (((after r).tls.tcp.sender.transmitted = c.tls.tcp.sender.transmitted ∧
          ((after r).state = .Init ↔ c.state = .Init)) ∨
        (c.state = .Init ∧ c.tls.isHandshakeComplete = true ∧ (after r).state ≠ .Init ∧
          ∃ frame, RequestFrame env c frame ∧ (after r).tls.tcp.sender.transmitted =
            c.tls.tcp.sender.transmitted ++ [frame])) := by
  -- the rest of a call works on the stream
  have htake : ∀ {d : Client}, d.tls = c.tls → c.tls.handshakeState = .ServerFinished →
      (d.state = .Init ↔ c.state = .Init) →
      Closed (after (takeMessage d)) ∧
        Tls12.Client.Reachable env.toEnv (after (takeMessage d)).tls ∧
        (after (takeMessage d)).tls.tcp.sender.transmitted = c.tls.tcp.sender.transmitted ∧
        ((after (takeMessage d)).state = .Init ↔ c.state = .Init) := by
    intro d htls hfinished hinit
    obtain ⟨htls', hstate⟩ := takeMessage_onlyStream d
    rw [hstate, htls', htls]
    exact ⟨closed_of_finished (by rw [htls', htls]; exact hfinished), hreach, rfl, hinit⟩
  cases h with
  | early hcomplete =>
    obtain ⟨-, hnil⟩ := hclosed hcomplete
    rw [takeMessage_incomplete (by rw [hnil]; exact incomplete_nil)]
    exact ⟨hclosed, hreach, Or.inl ⟨rfl, Iff.rfl⟩⟩
  | @unsent e d hfinished hinit hrequest =>
    have hcomplete := isHandshakeComplete_iff.mpr hfinished
    have hreach' := generateUpgradeRequest_reachable env c hreach
    have hsends := (generateUpgradeRequest_sends hreach (hempty hinit hcomplete)).error hrequest
    obtain ⟨t, ht, rfl⟩ := (generateUpgradeRequest_finished env hfinished).error hrequest
    rw [hrequest] at hreach'
    exact ⟨closed_of_finished ht, hreach', Or.inl ⟨hsends, Iff.rfl⟩⟩
  | @sent d hfinished hinit hrequest =>
    have hcomplete := isHandshakeComplete_iff.mpr hfinished
    have hreach' := generateUpgradeRequest_reachable env c hreach
    obtain ⟨frame, hframe, hsent⟩ :=
      (generateUpgradeRequest_sends hreach (hempty hinit hcomplete)).ok hrequest
    obtain ⟨t, ht, rfl⟩ := (generateUpgradeRequest_finished env hfinished).ok hrequest
    rw [hrequest] at hreach'
    obtain ⟨htls, hstate⟩ := takeMessage_onlyStream { c with tls := t, state := .HttpHandshake }
    refine ⟨closed_of_finished (by rw [htls]; exact ht), by rw [htls]; exact hreach',
      Or.inr ⟨hinit, hcomplete, ?_, frame, hframe, ?_⟩⟩
    · rw [hstate]
      exact State.noConfusion
    · rw [htls]
      exact hsent
  | waits hfinished hwaits => exact ⟨hclosed, hreach, Or.inl ⟨rfl, Iff.rfl⟩⟩
  | @accepts s hfinished hwaits haccepts =>
    have hinit : State.Connected = .Init ↔ c.state = .Init := by
      rw [hwaits]
      exact ⟨nofun, nofun⟩
    obtain ⟨hclosed', hreach', hrest⟩ := htake (d := { c with stream := s, state := .Connected })
      rfl hfinished hinit
    exact ⟨hclosed', hreach', Or.inl hrest⟩
  | connected hfinished hconnected =>
    obtain ⟨hclosed', hreach', hrest⟩ := htake (d := c) rfl hfinished Iff.rfl
    exact ⟨hclosed', hreach', Or.inl hrest⟩

/-- Frames that are no application data are not counted. -/
theorem dataFrames_silent {call : Call}
    (h : Tls12.Client.NoData c.tls (call.run env c).tls) : dataFrames env (c, call) = [] := by
  refine List.filter_eq_nil_iff.mpr fun frame hframe => ?_
  rw [h.of_mem_framesSince frame hframe]
  exact Bool.false_ne_true

theorem carriesData_request {frame : ByteView} (h : RequestFrame env c frame) :
    Tls12.carriesData frame = true := by
  rw [Tls12.carriesData, h]
  rfl

/-- **The request**: a call of `next_message` sends no application data and keeps the initial state,
or it sends the request and leaves it. -/
theorem Closed.sends (h : Closed c) (hreach : Tls12.Client.Reachable env.toEnv c.tls)
    (horderly : Orderly env c) :
    Closed (after (nextMessage env c)) ∧
      Tls12.Client.Reachable env.toEnv (after (nextMessage env c)).tls ∧
      ((dataFrames env (c, .nextMessage) = [] ∧
          ((after (nextMessage env c)).state = .Init ↔ c.state = .Init)) ∨
        (SendsRequest env c ∧ (after (nextMessage env c)).state ≠ .Init)) := by
  have hclosed := receiveAll_closed env (c.tls.stream.size + 1) h
  have hreads := receiveAll_reads env (c.tls.stream.size + 1) c
  cases hall : receiveAll env (c.tls.stream.size + 1) c with
  | error e c₁ =>
    rw [hall] at hreads
    have herror : nextMessage env c = .error e c₁ := by
      rw [nextMessage, bind_of_ok (get_apply c), bind_of_error hall]
    have hrun : Call.nextMessage.run env c = c₁ := by rw [Call.run, herror, after_error]
    refine ⟨?_, ?_, Or.inl ⟨dataFrames_silent ?_, ?_⟩⟩
    · rw [herror]
      exact hclosed.error hall
    · rw [herror]
      exact hreads.reachable hreach
    · rw [hrun]
      exact hreads.silent
    · rw [herror, after_error, show c₁.state = c.state from hreads.state]
  | ok _ c₁ =>
    rw [hall, after_ok] at hreads
    have hstate₁ : c₁.state = c.state := hreads.state
    have hempty : c₁.state = .Init → c₁.tls.isHandshakeComplete = true →
        c₁.tls.sendBuffer.content = [] := fun hinit hcomplete =>
      (horderly (hstate₁.symm.trans hinit) c₁ hall hcomplete).2
    obtain ⟨hclosed', hreach', hrest⟩ :=
      (nextMessage_outcome hall).sends (hclosed.ok hall) (hreads.reachable hreach) hempty
    refine ⟨hclosed', hreach', ?_⟩
    rcases hrest with ⟨hsame, hinit⟩ | ⟨hinit, hcomplete, hne, frame, hframe, hsent⟩
    · refine Or.inl ⟨dataFrames_silent ?_, by rw [hinit, hstate₁]⟩
      exact IsTrans.trans _ _ _ hreads.silent (Tcp.Client.Transmits.of_same hsame)
    · refine Or.inr ⟨⟨hstate₁.symm.trans hinit, c₁, frame, hall, hcomplete, ?_, hframe⟩, hne⟩
      obtain ⟨frames, hframes, hnone⟩ := hreads.silent
      have hfilter : frames.filter Tls12.carriesData = [] :=
        List.filter_eq_nil_iff.mpr fun frame hframe => by simp [hnone frame hframe]
      rw [dataFrames, Call.run, Tcp.Client.framesSince, hsent, hframes, List.append_assoc,
        List.drop_left, List.filter_append, hfilter, List.nil_append, List.filter_cons_of_pos
          (carriesData_request hframe), List.filter_nil]

/-! ## The other calls -/

theorem construct_closed (env : Env) (config : Config) (tcp : Tcp.Client) :
    Closed (constructed env config tcp) ∧ (constructed env config tcp).state = .Init ∧
      Tls12.Client.Reachable env.toEnv (constructed env config tcp).tls := by
  have hconstruct := after_zoom (fun c : Client => c.tls) (fun c t => { c with tls := t })
    (Tls12.Client.construct env.toEnv) (.init config tcp)
  rw [constructed, construct, onTls, hconstruct]
  exact ⟨fun _ => ⟨rfl, rfl⟩, rfl, .construct env.toEnv config.host tcp⟩

/-- A packet is read by TLS later, and acknowledged. -/
theorem Closed.processPacket (p : Tcp.PacketView) (h : Closed c)
    (hreach : Tls12.Client.Reachable env.toEnv c.tls) :
    Closed (after (processPacket env p c)) ∧
      Tls12.Client.Reachable env.toEnv (after (processPacket env p c)).tls ∧
      (after (processPacket env p c)).state = c.state ∧
      dataFrames env (c, .processPacket p) = [] := by
  have hsilent := Tls12.Client.processPacket_noData env.toEnv p c.tls
  have hpacket : after (Client.processPacket env p c) =
      { c with tls := after (Tls12.Client.processPacket env.toEnv p c.tls) } :=
    after_zoom (fun c : Client => c.tls) (fun c t => { c with tls := t }) _ c
  have hframes : dataFrames env (c, .processPacket p) = [] := by
    refine dataFrames_silent ?_
    rw [Call.run, hpacket]
    exact hsilent
  rw [hpacket]
  refine ⟨h.onTls fun hfinished => ?_, hreach.processPacket p, rfl, hframes⟩
  exact (Tls12.Client.processPacket_state env.toEnv p c.tls).trans hfinished

/-! ## Whole runs -/

section Runs

variable {past : List (Client × Call)} {call : Call}

theorem RequestedOnce.silent (h : RequestedOnce env past c)
    (hframes : dataFrames env (c, call) = []) (hinit : c'.state = .Init ↔ c.state = .Init) :
    RequestedOnce env (past ++ [(c, call)]) c' := by
  constructor
  · intro hstate
    rw [List.flatMap_append, h.notYet (hinit.mp hstate), List.flatMap_singleton, hframes,
      List.nil_append]
  · intro hstate
    obtain ⟨before, d, rest, rfl, hbefore, hsends, hrest⟩ := h.once fun h => hstate (hinit.mpr h)
    refine ⟨before, d, rest ++ [(c, call)], by simp, hbefore, hsends, ?_⟩
    rw [List.flatMap_append, hrest, List.flatMap_singleton, hframes, List.nil_append]

theorem RequestedOnce.request (h : RequestedOnce env past c) (hsends : SendsRequest env c)
    (hne : c'.state ≠ .Init) : RequestedOnce env (past ++ [(c, .nextMessage)]) c' :=
  ⟨fun hinit => absurd hinit hne, fun _ => ⟨past, c, [], rfl, h.notYet hsends.init, hsends, rfl⟩⟩

/-- What a run has kept if its calls have found things in order. -/
structure InOrder (env : Env) (past : List (Client × Call)) (c : Client) : Prop where
  closed : Closed c
  reachable : Tls12.Client.Reachable env.toEnv c.tls
  connected : ∀ d, (d, Call.nextMessage) ∈ past → OnlyConnected env d
  requested : RequestedOnce env past c

theorem InOrder.step (h : InOrder env past c) (horderly : call = .nextMessage → Orderly env c) :
    InOrder env (past ++ [(c, call)]) (call.run env c) := by
  cases call with
  | processPacket p =>
    obtain ⟨hclosed, hreach, hstate, hframes⟩ := h.closed.processPacket p h.reachable
    refine ⟨hclosed, hreach, fun d hd => ?_, h.requested.silent hframes ?_⟩
    · refine h.connected d ?_
      simpa using hd
    · change (after (Client.processPacket env p c)).state = .Init ↔ c.state = .Init
      rw [hstate]
  | nextMessage =>
    obtain ⟨hclosed, hreach, hsends⟩ := h.closed.sends h.reachable (horderly rfl)
    refine ⟨hclosed, hreach, fun d hd => ?_, ?_⟩
    · rcases List.mem_append.mp hd with hd | hd
      · exact h.connected d hd
      · obtain ⟨rfl, -⟩ : d = c ∧ Call.nextMessage = .nextMessage := by simpa using hd
        exact h.closed.onlyConnected (horderly rfl)
    · rcases hsends with ⟨hframes, hinit⟩ | ⟨hsends, hne⟩
      · exact h.requested.silent hframes hinit
      · exact h.requested.request hsends hne

end Runs

end Calls

/-- **The order of the calls**: in every run whose calls find things in order, a payload is returned
and bytes are taken by a connected client only, behind the response that has connected it; and the
card is given the upgrade request once, by the call that leaves the initial state. -/
theorem extracts_only_connected (env : Env) (past : List (Client × Call)) (c : Client)
    (h : Run env past c) (horderly : ∀ d, (d, Call.nextMessage) ∈ past → Orderly env d) :
    (∀ d, (d, Call.nextMessage) ∈ past → OnlyConnected env d) ∧ RequestedOnce env past c := by
  have hin : InOrder env past c := by
    refine IsRun.invariant (I := fun past c =>
      (∀ d, (d, Call.nextMessage) ∈ past → Orderly env d) → InOrder env past c) ?_ ?_ h horderly
    · rintro _ ⟨config, tcp, rfl⟩ _
      obtain ⟨hclosed, hinit, hreach⟩ := construct_closed env config tcp
      refine ⟨hclosed, hreach, fun d hd => absurd hd List.not_mem_nil, fun _ => rfl, ?_⟩
      exact fun hne => absurd hinit hne
    · intro past d call ih horderly
      refine (ih fun e he => horderly e (List.mem_append_left _ he)).step fun hcall => ?_
      exact horderly d (by simp [hcall])
  exact ⟨hin.connected, hin.requested⟩

/-! ### A frame behind the server's Finished message -/

/-- The server's second flight. -/
def finishedFlight : List UInt8 := [0x14, 3, 3, 0, 1, 1, 0x16, 3, 3, 0, 0]

/-- These bytes in a record of application data behind it. -/
def earlyFlight (bytes : List UInt8) : List UInt8 :=
  finishedFlight ++ Tls12.recordBytes .ApplicationData (List.replicate 8 0 ++ bytes ++
    List.replicate 16 0)

/-- A client that is called for every segment of the server, until it has got the second flight. -/
def upgradingCalls (flight : List UInt8) : List Call :=
  [.processPacket (Tcp.Client.synAck 0), .nextMessage,
    .processPacket (Tcp.Client.segment 1 Tls12.Client.sampleFlight), .nextMessage,
    .processPacket (Tcp.Client.segment 117 flight)]

def upgradingStart : Client :=
  constructed sampleEnv ⟨[], []⟩ (.new Tcp.Client.sampleConnection {} 7 0)

def upgradingClient (flight : List UInt8) : Client :=
  (upgradingCalls flight).foldl (Call.run sampleEnv) upgradingStart

def upgradingPast (flight : List UInt8) : List (Client × Call) :=
  trail (Call.run sampleEnv) upgradingStart (upgradingCalls flight) ++
    [(upgradingClient flight, .nextMessage)]

theorem upgradingRun (flight : List UInt8) : Run sampleEnv (upgradingPast flight)
    (after (nextMessage sampleEnv (upgradingClient flight))) := by
  have hrun : Run sampleEnv (trail (Call.run sampleEnv) upgradingStart (upgradingCalls flight))
      (upgradingClient flight) := ⟨upgradingStart, upgradingCalls flight, ⟨_, _, rfl⟩, rfl, rfl⟩
  exact IsRun.concat hrun .nextMessage

/-- Nothing is there when the client has read what TLS has. -/
def readsNothing (env : Env) (c : Client) : Bool :=
  (delivered env c).isEmpty &&
    (after (receiveAll env (c.tls.stream.size + 1) c)).tls.sendBuffer.content.isEmpty

theorem orderly_of_readsNothing {env : Env} {c : Client} (h : readsNothing env c = true) :
    Orderly env c := by
  intro _ c₁ hall _
  rw [readsNothing, delivered, hall, after_ok, Bool.and_eq_true, List.isEmpty_iff,
    List.isEmpty_iff] at h
  rw [h.1]
  exact ⟨incomplete_nil, h.2⟩

/-- The server sends nothing before it gets the request. -/
theorem request_sent_once :
    (after (nextMessage sampleEnv (upgradingClient finishedFlight))).state = .HttpHandshake ∧
      RequestedOnce sampleEnv (upgradingPast finishedFlight)
        (after (nextMessage sampleEnv (upgradingClient finishedFlight))) := by
  have hcalls : (upgradingPast finishedFlight).all (fun x => readsNothing sampleEnv x.1) = true ∧
      (after (nextMessage sampleEnv (upgradingClient finishedFlight))).state =
        .HttpHandshake := by decide +kernel
  refine ⟨hcalls.2, (extracts_only_connected sampleEnv _ _ (upgradingRun finishedFlight) ?_).2⟩
  intro d hd
  exact orderly_of_readsNothing (List.all_eq_true.mp hcalls.1 (d, .nextMessage) hd)

/-- The payload that a call has returned. -/
def returned : EStateM.Result Error Client (Option (List UInt8)) → Option (List UInt8)
  | .ok payload _ => payload
  | .error _ _ => none

theorem eq_ok_of_returned {r : EStateM.Result Error Client (Option (List UInt8))}
    {payload : List UInt8} (h : returned r = some payload) : r = .ok (some payload) (after r) := by
  cases r with
  | ok a c => rw [show a = some payload from h, after_ok]
  | error e c => cases h

/-- A frame that arrives with the server's Finished message is returned by the call that sends the
request. -/
theorem frame_before_request : ∃ past c c', Run sampleEnv (past ++ [(c, .nextMessage)]) c' ∧
    nextMessage sampleEnv c = .ok (some [7]) c' ∧ c'.state = .HttpHandshake := by
  have hcall : returned (nextMessage sampleEnv (upgradingClient (earlyFlight [0x82, 1, 7]))) =
      some [7] ∧ (after (nextMessage sampleEnv
        (upgradingClient (earlyFlight [0x82, 1, 7])))).state = .HttpHandshake := by decide +kernel
  exact ⟨_, _, _, upgradingRun (earlyFlight [0x82, 1, 7]), eq_ok_of_returned hcall.1, hcall.2⟩

end Client

end WsGateway.Network.Wss
