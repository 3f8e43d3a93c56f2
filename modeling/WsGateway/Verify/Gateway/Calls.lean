import WsGateway.Gateway.Service
import WsGateway.Verify.Tls12.Record

/-!
# What the loop does to the TLS client

Between two segments the WebSocket client and the loop touch the TLS client only
through `receive`, `push_bytes` and `flush`, so they move it along `Updates`. A
client that has not sent its ClientHello and has bytes in its stream is not
touched at all.
-/

namespace WsGateway.Network.Tls12.Client

open Library

variable {c : Client}

/-- The ClientHello is not sent yet, and bytes have come in. -/
def Idle (c : Client) : Prop := c.handshakeState = .ClientHelloToSend ∧ c.stream.size ≠ 0

/-- An idle client waits, or throws at the first complete record. -/
theorem receive_idle (env : Env) (h : c.Idle) :
    receive env c = .ok none c ∨ ∃ e, receive env c = .error e c := by
  have honce : receiveOnce env c = .ok (.done none) c ∨ ∃ e, receiveOnce env c = .error e c := by
    by_cases hrec : HoldsRecord c.stream
    · have hstep : processHandshake env c = .error (.runtimeError "Unexpected flow") c := by
        rw [processHandshake, bind_of_ok (get_apply c), h.1]
        rfl
      rw [receiveOnce_complete env hrec, if_neg (by simp [h.1]), bind_of_error hstep]
      exact Or.inr ⟨_, rfl⟩
    · exact receiveOnce_waits env (fun hh => h.2 hh.2) hrec
  rcases honce with hw | ⟨e, hw⟩
  · exact Or.inl (by rw [receive, receiveFuel, hw]; rfl)
  · exact Or.inr ⟨e, by rw [receive, receiveFuel, hw]; rfl⟩

end WsGateway.Network.Tls12.Client

namespace WsGateway.Network.Wss.Client

open Library

open Tls12.Client (Updates)

/-- The TLS client moves by updates. -/
def TlsMoves (c c' : Client) : Prop := Updates c.tls c'.tls

instance : Std.Refl TlsMoves := ⟨fun _ => .refl⟩

instance : IsTrans Client TlsMoves := ⟨fun _ _ _ => Relation.ReflTransGen.trans⟩

theorem onTls_moves {α : Type} {x : Prog Tls12.Client α} (h : Moves Updates x) :
    Moves TlsMoves (onTls x) :=
  Moves.member h fun _ _ hs => hs

theorem onStream_moves {α : Type} (x : Prog Stream α) : Moves TlsMoves (onStream x) :=
  Moves.member (S := fun _ _ => True) (fun _ => trivial) fun _ _ _ => .refl

theorem require_moves (b : Bool) (message : String) :
    Moves TlsMoves (require b message : Prog Client Unit) :=
  Moves.of_unchanged (require_unchanged b message)

theorem pushString_updates (str : List UInt8) : Moves Updates (Tls12.Client.pushString str) :=
  Tls12.Client.updates_of_quiet (Tls12.Client.quiet_onSendBuffer _)

theorem receiveAll_moves (env : Env) (fuel : Nat) : Moves TlsMoves (receiveAll env fuel) := by
  induction fuel with
  | zero => exact Moves.raise _
  | succ fuel ih =>
    refine Moves.seq (onTls_moves (Tls12.Client.receive_updates env.toEnv)) fun plaintext => ?_
    cases plaintext with
    | none => exact Moves.ret _
    | some bytes =>
      refine Moves.seq (Moves.update fun _ => .refl) fun _ => ?_
      exact Moves.seq (onStream_moves _) fun _ => ih

theorem generateUpgradeRequest_moves (env : Env) :
    Moves TlsMoves (generateUpgradeRequest env) := by
  refine Moves.seq Moves.read fun c => ?_
  refine Moves.seq (require_moves _ _) fun _ => ?_
  refine Moves.seq (onTls_moves (pushString_updates _)) fun _ => ?_
  exact onTls_moves (Tls12.Client.flushWith_updates none env.toEnv)

theorem acceptHandshake_moves : Moves TlsMoves acceptHandshake := by
  refine Moves.seq Moves.read fun c => ?_
  refine Moves.seq (require_moves _ _) fun _ => ?_
  cases c.stream.search (ascii "HTTP/1.1 101") with
  | none => exact Moves.ret _
  | some _ =>
    cases c.stream.search (ascii "\r\n\r\n") with
    | none => exact Moves.ret _
    | some sufPos =>
      refine Moves.seq (onStream_moves _) fun popped => ?_
      cases popped with
      | none => exact Moves.raise _
      | some _ => exact Moves.ret _

theorem setState_moves (s : State) : Moves TlsMoves (setState s) := Moves.update fun _ => .refl

theorem advanceState_moves (env : Env) : Moves TlsMoves (advanceState env) := by
  refine Moves.seq Moves.read fun c => ?_
  by_cases hdone : c.tls.isHandshakeComplete = true
  · rw [if_pos hdone]
    cases c.state with
    | Init =>
      refine Moves.seq (generateUpgradeRequest_moves env) fun _ => ?_
      exact Moves.seq (setState_moves _) fun _ => Moves.ret _
    | HttpHandshake =>
      refine Moves.seq acceptHandshake_moves fun accepted => ?_
      cases accepted
      · exact Moves.ret _
      · exact Moves.seq (setState_moves _) fun _ => Moves.ret _
    | Connected => exact Moves.ret _
  · rw [if_neg hdone]
    exact Moves.ret _

/-- What follows the records in `next_message`. -/
theorem nextMessage_moves (env : Env) : Moves TlsMoves (nextMessage env) := by
  refine Moves.seq Moves.read fun c => ?_
  refine Moves.seq (receiveAll_moves env _) fun _ => ?_
  refine Moves.seq (advanceState_moves env) fun goOn => ?_
  cases goOn
  · exact Moves.ret _
  · refine Moves.seq (onStream_moves _) fun res => ?_
    cases res with
    | none => exact Moves.ret _
    | some res =>
      dsimp only
      split
      · exact Moves.ret _
      · exact Moves.ret _

/-! ## An idle client -/

/-- If the TLS client is idle it stays as it is. -/
def KeepsIdle (c c' : Client) : Prop := c.tls.Idle → c'.tls = c.tls

instance : Std.Refl KeepsIdle := ⟨fun _ _ => rfl⟩

instance : IsTrans Client KeepsIdle :=
  ⟨fun _ _ _ h h' hidle => (h' (h hidle ▸ hidle)).trans (h hidle)⟩

theorem receive_keepsIdle (env : Env) :
    Moves KeepsIdle (onTls (Tls12.Client.receive env.toEnv)) := by
  intro c hidle
  rw [onTls, after_zoom]
  rcases Tls12.Client.receive_idle env.toEnv hidle with h | ⟨e, h⟩ <;> rw [h] <;> rfl

theorem onStream_keepsIdle {α : Type} (x : Prog Stream α) : Moves KeepsIdle (onStream x) :=
  Moves.member (S := fun _ _ => True) (fun _ => trivial) fun _ _ _ _ => rfl

theorem receiveAll_keepsIdle (env : Env) (fuel : Nat) : Moves KeepsIdle (receiveAll env fuel) := by
  induction fuel with
  | zero => exact Moves.raise _
  | succ fuel ih =>
    refine Moves.seq (receive_keepsIdle env) fun plaintext => ?_
    cases plaintext with
    | none => exact Moves.ret _
    | some bytes =>
      refine Moves.seq (Moves.update fun _ _ => rfl) fun _ => ?_
      exact Moves.seq (onStream_keepsIdle _) fun _ => ih

theorem advanceState_keepsIdle (env : Env) : Moves KeepsIdle (advanceState env) := by
  intro c hidle
  have hdone : c.tls.isHandshakeComplete = false := by
    simp [Tls12.Client.isHandshakeComplete, hidle.1]
  rw [advanceState, bind_of_ok (get_apply c), if_neg (by simp [hdone])]
  rfl

theorem nextMessage_keepsIdle (env : Env) : Moves KeepsIdle (nextMessage env) := by
  refine Moves.seq Moves.read fun c => ?_
  refine Moves.seq (receiveAll_keepsIdle env _) fun _ => ?_
  refine Moves.seq (advanceState_keepsIdle env) fun goOn => ?_
  cases goOn
  · exact Moves.ret _
  · refine Moves.seq (onStream_keepsIdle _) fun res => ?_
    cases res with
    | none => exact Moves.ret _
    | some res =>
      dsimp only
      split
      · exact Moves.ret _
      · exact Moves.ret _

end WsGateway.Network.Wss.Client

namespace WsGateway.Gateway.Service

open Library Network

/-- The TLS client inside the service. -/
abbrev tls (s : Service) : Tls12.Client := s.connection.tls

theorem onConnection_moves {α : Type} {R : Wss.Client → Wss.Client → Prop} {x : Prog Wss.Client α}
    (h : Moves R x) : Moves (fun s s' : Service => R s.connection s'.connection) (onConnection x) :=
  Moves.member h fun _ _ hs => hs

/-- The inner loop moves the client as `next_message` does. -/
theorem drain_moves {R : Wss.Client → Wss.Client → Prop} [Std.Refl R] [IsTrans Wss.Client R]
    {env : Wss.Env} (h : Moves R (Wss.Client.nextMessage env)) (fuel : Nat) :
    Moves (fun s s' : Service => R s.connection s'.connection) (drain env fuel) := by
  have hrefl : Std.Refl (fun s s' : Service => R s.connection s'.connection) :=
    ⟨fun s => Std.Refl.refl s.connection⟩
  have htrans : IsTrans Service (fun s s' : Service => R s.connection s'.connection) :=
    ⟨fun _ _ _ h h' => IsTrans.trans _ _ _ h h'⟩
  induction fuel with
  | zero => exact Moves.raise _
  | succ fuel ih =>
    refine Moves.seq (onConnection_moves h) fun payload => ?_
    cases payload with
    | none => exact Moves.ret _
    | some payload =>
      exact Moves.seq (Moves.update fun s => Std.Refl.refl s.connection) fun _ => ih

end WsGateway.Gateway.Service
