import WsGateway.Gateway.Service
import WsGateway.Network.Receive

/-!
# The worker

`WsDemoServiceImpl::run_worker` with the device it receives from: the queue is cleared before
the TCP client is made, and each round of the loop calls `receive` once. `Service.main` is the
part of it that handles the received frames.
-/

namespace WsGateway.Gateway

open Library Network

structure Worker where
  receiver : Receiver
  service : Service

namespace Worker

def onReceiver {α : Type} (x : Prog Receiver α) : Prog Worker α :=
  zoom (fun w => w.receiver) (fun w r => { w with receiver := r }) x

def onService {α : Type} (x : Prog Service α) : Prog Worker α :=
  zoom (fun w => w.service) (fun w s => { w with service := s }) x

/-- The loop body: a frame, if one was received, is handled. -/
def round (env : Wss.Env) (card : RxCard) : Prog Worker Unit := do
  match ← onReceiver (Receiver.receive card) with
  | none => return ()
  | some frame => onService (Service.onFrame env frame)

/-- The loop, when `is_stopped` says so after `n` rounds. -/
def rounds (env : Wss.Env) (card : RxCard) : Nat → Prog Worker Unit
  | 0 => return ()
  | n + 1 => do
    round env card
    rounds env card n

/-- `WsDemoServiceImpl::run_worker`; `fuel` bounds the rounds of `clear_receive_queue`. -/
def runWorker (env : Wss.Env) (card : RxCard) (fuel n : Nat) : Prog Worker Unit := do
  let _ ← onReceiver (Receiver.clearReceiveQueue card fuel)
  onService (Service.onConnection (Wss.Client.construct env))
  rounds env card n

end Worker

end WsGateway.Gateway
