import WsGateway.Base.Stream

/-!
# Receiving packets

The receiving half of `network/dpdk/device`: the packets of a burst are handed out one by
one. The card and the clock are outside the repository: `RxCard` holds their answers, call by
call, and everything is stated for every such `RxCard`.
-/

namespace WsGateway.Network

open Library

/-- The card and the clock, as the repository sees them when it receives. -/
structure RxCard where
  /-- The packets that are there at the `k`-th `rte_eth_rx_burst`. -/
  ethRxBurst : Nat → List ByteView
  /-- What `SyncRdtscClock::now` returns after it, since the epoch. -/
  now : Nat → Int

/-- The members of `Device` that `receive` uses, with the number of bursts so far. A pointer to an
mbuf is the packet in it, or nothing if it is null. -/
structure Receiver where
  receiveMbufs : List (Option ByteView) := []
  currentRecieveMbufIdx : Nat := 0
  lastReceiveTimePoint : Int := 0
  bursts : Nat := 0

namespace Receiver

/-- `kReceiveBurstSize`. -/
def kReceiveBurstSize : Nat := 32

/-- `std::vector::resize`: new elements are null. -/
def resize (mbufs : List (Option ByteView)) (size : Nat) : List (Option ByteView) :=
  mbufs.take size ++ List.replicate (size - mbufs.length) none

/-- `rte_eth_rx_burst` on the whole of `receive_mbufs`: the card stores as many packets as there are
and as there is room for, and returns their number. -/
def ethRxBurst (card : RxCard) : Prog Receiver Nat := do
  let r ← get
  let packets := (card.ethRxBurst r.bursts).take r.receiveMbufs.length
  modify fun r =>
    { r with
      receiveMbufs := packets.map some ++ r.receiveMbufs.drop packets.length
      bursts := r.bursts + 1 }
  return packets.length

/-- `RxPacket`'s constructor, and `RxPacket::bytes`. -/
def rxPacket : Option ByteView → Prog Receiver ByteView
  | none => throw (.runtimeError "Nullptr in rx_packet")
  | some packet => return packet

/-- The branch of `receive` that asks for a burst. -/
def poll (card : RxCard) : Prog Receiver Unit := do
  let r ← get
  modify fun r => { r with receiveMbufs := resize r.receiveMbufs kReceiveBurstSize }
  let cnt ← ethRxBurst card
  modify fun r => { r with receiveMbufs := resize r.receiveMbufs cnt }
  modify fun r => { r with currentRecieveMbufIdx := 0 }
  modify fun t => { t with lastReceiveTimePoint := card.now r.bursts }

/-- The end of `receive`. -/
def handOut : Prog Receiver (Option ByteView) := do
  let r ← get
  if r.currentRecieveMbufIdx < r.receiveMbufs.length then
    modify fun r => { r with currentRecieveMbufIdx := r.currentRecieveMbufIdx + 1 }
    return some (← rxPacket (r.receiveMbufs[r.currentRecieveMbufIdx]?).join)
  else
    return none

/-- `Device::receive`. -/
def receive (card : RxCard) : Prog Receiver (Option ByteView) := do
  let r ← get
  if r.currentRecieveMbufIdx == r.receiveMbufs.length then poll card
  handOut

/-- `Device::get_last_receive_time_point`. -/
def getLastReceiveTimePoint : Prog Receiver Int := do
  let r ← get
  require (r.lastReceiveTimePoint != 0)
    "get_last_receive_time_point can be only called after a received"
  return r.lastReceiveTimePoint

/-- The loop of `Device::clear_receive_queue`, for at most so many rounds. -/
def clearLoop (card : RxCard) : Nat → Nat → Prog Receiver Nat
  | 0, _ => throw .diverges
  | fuel + 1, counter => do
    if (← receive card).isSome then clearLoop card fuel (counter + 1) else return counter

/-- `Device::clear_receive_queue`. -/
def clearReceiveQueue (card : RxCard) (fuel : Nat) : Prog Receiver Nat := clearLoop card fuel 0

end Receiver

end WsGateway.Network
