import WsGateway.Gateway.Worker
import WsGateway.Verify.Dpdk.Receive
import WsGateway.Verify.Gateway.Opening

/-!
# Polling

The loop of `run_worker` polls the card. Here it is shown to be the loop over the list of
received frames, `Service.runWorker`, about which the other results are: whatever the sizes of
the bursts and however often the card has nothing, the service handles the packets of the
bursts, each once and in order, with the same outcome, exceptions included.
-/

namespace WsGateway.Gateway.Worker

open Library Network

open Receiver (Pending EmptyAfter burst nextBursts polled receive_cases)

variable {env : Wss.Env} {card : RxCard} {w : Worker} {packets : List ByteView}

/-- The frames among the next `n` answers of `receive`. -/
def arriving (card : RxCard) (packets : List ByteView) (k n : Nat) : List ByteView :=
  (reading (fun k => told (burst card k)) (packets.map some) k n).reduceOption

theorem told_burst_ne_nil (card : RxCard) (k : Nat) : told (burst card k) ≠ [] :=
  told_ne_nil _

section Arriving

variable {packet : ByteView} {rest : List ByteView} {k n : Nat}

@[simp] theorem arriving_zero : arriving card packets k 0 = [] := by
  simp [arriving]

theorem arriving_cons :
    arriving card (packet :: rest) k (n + 1) = packet :: arriving card rest k n := by
  rw [arriving, List.map_cons, reading_cons (told_burst_ne_nil card), List.reduceOption_cons_of_some]
  rfl

theorem arriving_fetch (hburst : burst card k = packet :: rest) :
    arriving card [] k (n + 1) = packet :: arriving card rest (k + 1) n := by
  have htold : told (burst card k) = some packet :: rest.map some := by rw [hburst, told_cons]
  rw [arriving, List.map_nil, reading_fetch htold, List.reduceOption_cons_of_some]
  rfl

theorem arriving_empty (hburst : burst card k = []) :
    arriving card [] k (n + 1) = arriving card [] (k + 1) n := by
  have htold : told (burst card k) = [none] := by rw [hburst, told_nil]
  rw [arriving, List.map_nil, reading_fetch htold, List.reduceOption_cons_of_none]
  rfl

/-- With enough rounds all packets of the next `m` bursts arrive. -/
theorem exists_arriving_eq (card : RxCard) (k m : Nat) :
    ∃ n, arriving card [] k n = (List.range' k m).flatMap (burst card) := by
  refine ⟨((List.range' k m).flatMap fun k => told (burst card k)).length, ?_⟩
  rw [arriving, List.map_nil, reading_whole (told_burst_ne_nil card) k m rfl,
    ← List.flatMap_map (burst card) told, reduceOption_flatMap_told, List.flatMap_def]

end Arriving

/-! ## One round -/

section Round

variable {frame : ByteView} {r : Receiver} {s t : Service}

theorem onReceiver_of_ok {α : Type} {x : Prog Receiver α} {a : α} {r' : Receiver}
    (h : x r = .ok a r') : onReceiver x ⟨r, s⟩ = .ok a ⟨r', s⟩ :=
  zoom_of_ok h

theorem onService_of_ok {α : Type} {x : Prog Service α} {a : α} (h : x s = .ok a t) :
    onService x ⟨r, s⟩ = .ok a ⟨r, t⟩ :=
  zoom_of_ok h

theorem onService_of_error {α : Type} {x : Prog Service α} {e : Error} (h : x s = .error e t) :
    onService x ⟨r, s⟩ = .error e ⟨r, t⟩ :=
  zoom_of_error h

theorem round_of_none (h : Receiver.receive card w.receiver = .ok none r) :
    round env card w = .ok () { w with receiver := r } := by
  rw [round, onReceiver, bind_of_ok (zoom_of_ok h)]
  rfl

theorem round_of_some (h : Receiver.receive card w.receiver = .ok (some frame) r) :
    round env card w = onService (Service.onFrame env frame) { w with receiver := r } := by
  rw [round, onReceiver, bind_of_ok (zoom_of_ok h)]

end Round

/-! ## The loop -/

/-- The rounds of the loop, seen from the service. -/
theorem rounds_refine (env : Wss.Env) (card : RxCard) (n : Nat) (h : Pending packets w.receiver) :
    viewed (fun w => w.service) (rounds env card n w) =
      Service.runWorker env (arriving card packets w.receiver.bursts n) w.service := by
  -- a round is a step of the list of frames, or has no frame and leaves the service as it is
  induction n generalizing w packets with
  | zero =>
    rw [arriving_zero]
    rfl
  | succ n ih =>
    have hframe : ∀ (frame : ByteView) (rest : List ByteView) (r : Receiver),
        Receiver.receive card w.receiver = .ok (some frame) r → Pending rest r →
          viewed (fun w => w.service) (rounds env card (n + 1) w) =
            Service.runWorker env (frame :: arriving card rest r.bursts n) w.service := by
      intro frame rest r hreceive hrest
      rw [rounds, Service.runWorker]
      cases hstep : Service.onFrame env frame w.service with
      | ok u s =>
        have hround : round env card w = .ok () ⟨r, s⟩ :=
          (round_of_some hreceive).trans (onService_of_ok hstep)
        rw [bind_of_ok hround, bind_of_ok hstep]
        exact ih hrest
      | error e s =>
        have hround : round env card w = .error e ⟨r, s⟩ :=
          (round_of_some hreceive).trans (onService_of_error hstep)
        rw [bind_of_error hround, bind_of_error hstep]
        rfl
    rcases receive_cases card h with ⟨frame, rest, rfl, hreceive, hrest⟩ |
      ⟨frame, rest, rfl, hburst, hreceive, hrest⟩ | ⟨rfl, hburst, hreceive, hrest⟩
    · rw [hframe frame rest _ hreceive hrest, arriving_cons]
    · rw [hframe frame rest _ hreceive hrest, arriving_fetch hburst]
      rfl
    · rw [rounds, bind_of_ok (round_of_none hreceive), arriving_empty hburst]
      exact ih hrest

/-- **Polling**: when the first empty burst comes after `k` others, `run_worker` clears those away and
then does exactly what the service does on the list of the frames that arrive in its `n` rounds,
exceptions included; and the frames that arrive are, for enough rounds, all packets of as many
further bursts as one likes. -/
theorem runWorker_refines (env : Wss.Env) (card : RxCard) (s : Service) (k fuel : Nat)
    (hempty : EmptyAfter card {} k) (hfuel : (nextBursts card {} k).length < fuel) :
    (∀ n, viewed (fun w => w.service) (runWorker env card fuel n ⟨{}, s⟩) =
      Service.main env (arriving card [] (k + 1) n) s) ∧
    ∀ m, ∃ n, arriving card [] (k + 1) n = (List.range' (k + 1) m).flatMap (burst card) := by
  refine ⟨fun n => ?_, exists_arriving_eq card (k + 1)⟩
  obtain ⟨r, hclear, hbursts, hpending⟩ :=
    Receiver.clearReceiveQueue_run Receiver.pending_empty hempty hfuel
  have hbursts' : r.bursts = k + 1 := by
    rw [hbursts, Nat.zero_add]
  rw [runWorker, bind_of_ok (onReceiver_of_ok hclear), Service.main]
  cases hconstruct : Service.onConnection (Wss.Client.construct env) s with
  | ok u t =>
    rw [bind_of_ok (onService_of_ok hconstruct), bind_of_ok hconstruct,
      rounds_refine env card n hpending, hbursts']
  | error e t =>
    rw [bind_of_error (onService_of_error hconstruct), bind_of_error hconstruct]
    rfl

/-- An old packet, an empty burst, and the SYN-ACK. -/
def lateSynAck : RxCard where
  ethRxBurst k := if k = 1 then [] else [Service.synAckFrame]
  now k := 1 + k

theorem runWorker_late_synAck :
    viewed (fun w => w.service)
        (runWorker Wss.Client.sampleEnv lateSynAck 2 1 ⟨{}, Service.sampleService⟩) =
      Service.main Wss.Client.sampleEnv [Service.synAckFrame] Service.sampleService := by
  have hempty : EmptyAfter lateSynAck {} 1 := by
    refine ⟨rfl, fun j hj => ?_⟩
    obtain rfl : j = 0 := by omega
    exact List.cons_ne_nil _ _
  exact (runWorker_refines _ lateSynAck _ 1 2 hempty (by decide)).1 1

end WsGateway.Gateway.Worker
