import WsGateway.Library.Runs
import WsGateway.Verify.Tls12.Calls

/-!
# Runs of the TLS client

A run is a sequence of calls on a client, each of which may return or throw. What
the other files say about runs is about what is in their past: the states in
which `receive` was called, the records it returned, what was encrypted and sent.
-/

namespace WsGateway.Network.Tls12

open Library

namespace Client

/-- A call on the client. -/
inductive Call where
  | processPacket (p : Tcp.PacketView)
  /-- A call of `receive`, up to the call that it makes of itself. -/
  | receive
  | pushString (str : List UInt8)
  /-- A `flush` in which a call on the cipher context may fail. -/
  | flush (fails : Option EvpCall)

/-- The client that a call leaves behind, also if it throws. -/
def Call.run (env : Env) (c : Client) : Call → Client
  | .processPacket p => after (Client.processPacket env p c)
  | .receive => after (receiveOnce env c)
  | .pushString str => after (Client.pushString str c)
  | .flush fails => after (flushWith fails env c)

def Call.threw (env : Env) (c : Client) : Call → Bool
  | .processPacket p => Library.threw (Client.processPacket env p c)
  | .receive => Library.threw (receiveOnce env c)
  | .pushString str => Library.threw (Client.pushString str c)
  | .flush fails => Library.threw (flushWith fails env c)

/-- The client behind its constructor. -/
def constructed (env : Env) (sniHostname : List UInt8) (tcp : Tcp.Client) : Client :=
  after (construct env (.init sniHostname tcp))

/-- A run that has come to `c`, with its past: the calls, each with the client it was made on. -/
def Run (env : Env) : List (Client × Call) → Client → Prop :=
  IsRun (Call.run env) fun c => ∃ sniHostname tcp, c = constructed env sniHostname tcp

/-- The clients that the calls of a client lead to, also those that throw. -/
def Reachable (env : Env) (c : Client) : Prop := ∃ past, Run env past c

variable {env : Env} {c c' : Client} {past : List (Client × Call)}

theorem Run.construct (env : Env) (sniHostname : List UInt8) (tcp : Tcp.Client) :
    Run env [] (constructed env sniHostname tcp) :=
  .of_start ⟨sniHostname, tcp, rfl⟩

theorem Run.call (h : Run env past c) (call : Call) :
    Run env (past ++ [(c, call)]) (call.run env c) :=
  IsRun.concat h call

/-- The last call of a run, and the run before it. -/
theorem Run.of_concat {call : Call} (h : Run env (past ++ [(c, call)]) c') :
    Run env past c ∧ c' = call.run env c :=
  IsRun.of_concat h

/-- What every call keeps, of the client and its past, holds in every run. -/
theorem Run.invariant {I : List (Client × Call) → Client → Prop}
    (hstart : ∀ sniHostname tcp, I [] (constructed env sniHostname tcp))
    (hcall : ∀ past c call, I past c → I (past ++ [(c, call)]) (Call.run env c call))
    (h : Run env past c) : I past c := by
  refine IsRun.invariant ?_ hcall h
  rintro _ ⟨sniHostname, tcp, rfl⟩
  exact hstart sniHostname tcp

/-- Every run that comes to `c` goes on to `c'`, by calls of `receive` only. -/
def Extends (env : Env) (c c' : Client) : Prop :=
  ∀ past, Run env past c → ∃ more, (∀ x ∈ more, x.2 = .receive) ∧ Run env (past ++ more) c'

instance : Std.Refl (Extends env) :=
  ⟨fun _ past h => ⟨[], by simp, by rwa [List.append_nil]⟩⟩

instance : IsTrans Client (Extends env) := by
  refine ⟨fun c c₁ c₂ h h₁ past hrun => ?_⟩
  obtain ⟨more, hmore, hrun₁⟩ := h past hrun
  obtain ⟨more₁, hmore₁, hrun₂⟩ := h₁ _ hrun₁
  refine ⟨more ++ more₁, fun x hx => ?_, by rwa [← List.append_assoc]⟩
  exact (List.mem_append.mp hx).elim (hmore x) (hmore₁ x)

/-- A call of `receive` is a sequence of the calls it makes. -/
theorem receive_extends (env : Env) : Moves (Extends env) (Client.receive env) :=
  receive_moves fun _ _ h => ⟨[_], by simp, h.call .receive⟩

namespace Reachable

theorem construct (env : Env) (sniHostname : List UInt8) (tcp : Tcp.Client) :
    Reachable env (after (Client.construct env (.init sniHostname tcp))) :=
  ⟨_, .construct env sniHostname tcp⟩

theorem call (h : Reachable env c) (call : Call) : Reachable env (call.run env c) := by
  obtain ⟨past, hrun⟩ := h
  exact ⟨_, hrun.call call⟩

theorem processPacket (p : Tcp.PacketView) (h : Reachable env c) :
    Reachable env (after (Client.processPacket env p c)) :=
  h.call (.processPacket p)

theorem receive (h : Reachable env c) : Reachable env (after (Client.receive env c)) := by
  obtain ⟨past, hrun⟩ := h
  obtain ⟨more, -, hmore⟩ := receive_extends env c past hrun
  exact ⟨_, hmore⟩

theorem pushString (str : List UInt8) (h : Reachable env c) :
    Reachable env (after (Client.pushString str c)) :=
  h.call (.pushString str)

/-- What every call keeps holds of every reachable client. -/
theorem invariant {I : Client → Prop}
    (hstart : ∀ sniHostname tcp, I (constructed env sniHostname tcp))
    (hcall : ∀ c call, I c → I (Call.run env c call)) (h : Reachable env c) : I c := by
  obtain ⟨past, hrun⟩ := h
  exact hrun.invariant (I := fun _ c => I c) hstart fun _ c call hc => hcall c call hc

end Reachable

end Client

end WsGateway.Network.Tls12
