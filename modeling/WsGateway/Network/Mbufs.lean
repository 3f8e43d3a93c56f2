import WsGateway.Library.Ownership
import WsGateway.Network.Dpdk
import WsGateway.Network.Receive

/-!
# Whose mbuf it is

`network/dpdk/packet.h`, and what `network/dpdk/device` does with the pointers to mbufs; the bytes
in them are not modelled here. DPDK lends the program an mbuf when it allocates one or
receives a packet in one, and has it back when the program frees it or the card takes it, which
frees it once it is sent. The answers of DPDK are arguments of the calls.
-/

namespace WsGateway.Network

open Library

/-- The address of an mbuf. A pointer is one of these, or nothing if it is null. -/
abbrev Mbuf := Nat

/-- The members of a `Device` that point to mbufs, with the packets that the program has. `RxPacket`
and `TxPacket` treat their pointer alike: it is null in a packet that was moved from. -/
structure Mbufs where
  pool : Pool Mbuf := {}
  packets : List (Option Mbuf) := []
  sendMbufs : List Mbuf := []
  receiveMbufs : List (Option Mbuf) := []
  currentRecieveMbufIdx : Nat := 0

namespace Mbufs

/-! ## DPDK -/

/-- `rte_pktmbuf_free`. -/
def pktmbufFree (mbuf : Mbuf) : Prog Mbufs Unit :=
  modify fun s => { s with pool := s.pool.giveBack mbuf }

/-- `rte_pktmbuf_alloc`, with its answer. -/
def pktmbufAlloc (answer : Option Mbuf) : Prog Mbufs (Option Mbuf) := do
  modify fun s => { s with pool := s.pool.lend answer.toList }
  return answer

/-- `rte_eth_tx_burst`: the card takes a prefix of the mbufs. -/
def ethTxBurst (mbufs : List Mbuf) (answer : Nat) : Prog Mbufs Nat := do
  let sent := min answer mbufs.length
  modify fun s => { s with pool := s.pool.giveBackAll (mbufs.take sent) }
  return sent

/-- `rte_eth_rx_burst` on the whole of `receive_mbufs`. -/
def ethRxBurst (answer : List Mbuf) : Prog Mbufs Nat := do
  let s ← get
  let mbufs := answer.take s.receiveMbufs.length
  modify fun s =>
    { s with
      pool := s.pool.lend mbufs
      receiveMbufs := mbufs.map some ++ s.receiveMbufs.drop mbufs.length }
  return mbufs.length

/-! ## Packets -/

/-- The pointer in a packet. -/
def pointer (s : Mbufs) (packet : Nat) : Option Mbuf := (s.packets[packet]?).join

/-- `RxPacket(rte_mbuf*)` and `TxPacket(rte_mbuf*)`, whose messages differ. -/
def construct (mbuf : Option Mbuf) (message : String) : Prog Mbufs Unit := do
  require mbuf.isSome message
  modify fun s => { s with packets := s.packets ++ [mbuf] }

/-- `RxPacket(RxPacket&&)` and `TxPacket(TxPacket&&)`. -/
def moveConstruct (rhs : Nat) : Prog Mbufs Unit :=
  modify fun s => { s with packets := s.packets.set rhs none ++ [s.pointer rhs] }

/-- `operator=` of both. It does not free what the packet pointed to, and a packet that is moved to
itself is null afterwards. -/
def moveAssign (packet rhs : Nat) : Prog Mbufs Unit := do
  modify fun s => { s with packets := s.packets.set packet (s.pointer rhs) }
  modify fun s => { s with packets := s.packets.set rhs none }

/-- `~RxPacket` and `~TxPacket`. -/
def destruct (packet : Nat) : Prog Mbufs Unit := do
  let s ← get
  if let some mbuf := s.pointer packet then pktmbufFree mbuf
  modify fun s => { s with packets := s.packets.eraseIdx packet }

/-- `TxPacket::release`. -/
def release (packet : Nat) : Prog Mbufs (Option Mbuf) := do
  let s ← get
  modify fun s => { s with packets := s.packets.set packet none }
  return s.pointer packet

/-! ## The device -/

/-- The branch of `Device::receive` that asks for a burst. -/
def poll (answer : List Mbuf) : Prog Mbufs Unit := do
  modify fun s =>
    { s with
      receiveMbufs := s.receiveMbufs.take Receiver.kReceiveBurstSize ++
        List.replicate (Receiver.kReceiveBurstSize - s.receiveMbufs.length) none }
  let cnt ← ethRxBurst answer
  modify fun s => { s with receiveMbufs := s.receiveMbufs.take cnt }
  modify fun s => { s with currentRecieveMbufIdx := 0 }

/-- The end of `Device::receive`: whether there is a packet. -/
def handOut : Prog Mbufs Bool := do
  let s ← get
  if s.currentRecieveMbufIdx < s.receiveMbufs.length then
    modify fun s => { s with currentRecieveMbufIdx := s.currentRecieveMbufIdx + 1 }
    construct (s.receiveMbufs[s.currentRecieveMbufIdx]?).join "Nullptr in rx_packet"
    return true
  else
    return false

/-- `Device::receive`. -/
def receive (answer : List Mbuf) : Prog Mbufs Bool := do
  let s ← get
  if s.currentRecieveMbufIdx == s.receiveMbufs.length then poll answer
  handOut

/-- `Device::get_send_buffer`. -/
def getSendBuffer (answer : Option Mbuf) : Prog Mbufs Unit := do
  construct (← pktmbufAlloc answer) "Nullptr in tx_packet"

/-- `Device::enqueue_for_send(TxPacket, size)`. The parameter is a packet of its own, which is
destroyed whether the call returns or throws. A null pointer in it is written through, which is
undefined. -/
def sendPacket (packet : Nat) (answer : Nat) : Prog Mbufs Unit := do
  moveConstruct packet
  let s ← get
  let parameter := s.packets.length - 1
  let some txPacket ← release parameter | throw .emptyOptional
  let sent ← ethTxBurst [txPacket] answer
  destruct parameter
  require (sent == 1) "failed to send"

/-- `Device::flush_send_queue`. -/
def flushSendQueue (answer : Nat) : Prog Mbufs Unit := do
  let s ← get
  if s.sendMbufs.isEmpty then return ()
  let size := s.sendMbufs.length
  let sent ← ethTxBurst (s.sendMbufs.take (size % 2 ^ 16)) answer
  modify fun s =>
    { s with
      sendMbufs :=
        (if sent < size then Device.stdCopy s.sendMbufs sent else s.sendMbufs).take (size - sent) }

/-- Both ways to queue a packet, `Device::enqueue_for_send(size)` and `(F&&)`. The mbuf is in the
queue before `f` fills it, and stays there if `f` throws. -/
def enqueueForSend (burst : Nat) (answer : Option Mbuf) : Prog Mbufs Unit := do
  let s ← get
  if s.sendMbufs.length == Device.kSendBurstSize then flushSendQueue burst
  let some mbuf ← pktmbufAlloc answer | throw (.runtimeError "Failed to allocate mbuf")
  modify fun s => { s with sendMbufs := s.sendMbufs ++ [mbuf] }

/-- A loop that frees all of these. -/
def freeAll : List Mbuf → Prog Mbufs Unit
  | [] => return ()
  | mbuf :: mbufs => do
    pktmbufFree mbuf
    freeAll mbufs

/-- `~Device`: the body, and the end of its members. The loop over `receive_mbufs` is commented out
there. -/
def destructDevice : Prog Mbufs Unit := do
  let s ← get
  freeAll s.sendMbufs
  modify fun s =>
    { s with
      sendMbufs := []
      receiveMbufs := []
      currentRecieveMbufIdx := 0 }

end Mbufs

end WsGateway.Network
