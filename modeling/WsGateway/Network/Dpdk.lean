import WsGateway.Network.EthIp

/-!
# The network device

`network/dpdk`. DPDK and the card are outside the repository: `Dpdk` holds their
answers, call by call, and everything is stated for every such `Dpdk`. `Device`
is the state the repository keeps on top of it.
-/

namespace WsGateway.Network

open Library

/-- DPDK and the network card, as the repository sees them. -/
structure Dpdk where
  /-- What `rte_pktmbuf_alloc` returns the `k`-th time: no buffer, or one with this old content. -/
  pktmbufAlloc : Nat → Option Memory
  /-- `rte_pktmbuf_data_room_size` of the pool. -/
  dataRoomSize : UInt16
  /-- How many packets the card takes at the `k`-th `rte_eth_tx_burst`, if offered as many. -/
  ethTxBurst : Nat → Nat
  /-- `rte_ipv4_cksum` of the header at an address. -/
  ipv4Cksum : Memory → Nat → UInt16
  /-- `rte_ipv4_udptcp_cksum` of the IP and TCP headers at two addresses. -/
  ipv4UdptcpCksum : Memory → Nat → Nat → UInt16

/-- `RTE_PKTMBUF_HEADROOM`: where the packet data starts in the buffer of an mbuf. -/
def kPktmbufHeadroom : Nat := 128

/-- The bytes of the buffer from the start of the packet data on. -/
def Dpdk.tailroom (dpdk : Dpdk) : Nat := dpdk.dataRoomSize.toNat - kPktmbufHeadroom

/-- A 16-bit checksum as DPDK leaves it in memory, low byte first. -/
def cksumBytes (cksum : UInt16) : List UInt8 := (beBytes 2 cksum.toNat).reverse

@[simp] theorem length_cksumBytes (cksum : UInt16) : (cksumBytes cksum).length = 2 := by
  simp [cksumBytes]

/-- `Device`: the queue of packets to send, with the packets the card took and the number of
calls made to it so far. -/
structure Device where
  sendMbufs : List ByteView := []
  transmitted : List ByteView := []
  allocs : Nat := 0
  bursts : Nat := 0

namespace Device

/-- `kSendBurstSize`. -/
def kSendBurstSize : Nat := 32

/-- `rte_pktmbuf_alloc`. -/
def pktmbufAlloc (dpdk : Dpdk) : Prog Device (Option Memory) := do
  let d ← get
  modify fun d => { d with allocs := d.allocs + 1 }
  return dpdk.pktmbufAlloc d.allocs

/-- `rte_eth_tx_burst`: the card takes a prefix of the packets. -/
def ethTxBurst (dpdk : Dpdk) (mbufs : List ByteView) : Prog Device Nat := do
  let d ← get
  let sent := min (dpdk.ethTxBurst d.bursts) mbufs.length
  modify fun d =>
    { d with
      bursts := d.bursts + 1
      transmitted := d.transmitted ++ mbufs.take sent }
  return sent

/-- `Device::get_send_buffer`, with the check of `TxPacket`'s constructor, and `TxPacket::view`. -/
def getSendBuffer (dpdk : Dpdk) : Prog Device ByteView := do
  let some mem ← pktmbufAlloc dpdk | throw (.runtimeError "Nullptr in tx_packet")
  return ⟨mem, 0, dpdk.dataRoomSize.toNat⟩

/-- `Device::enqueue_for_send(TxPacket, size)`, which sends at once. -/
def sendPacket (dpdk : Dpdk) (packet : ByteView) (size : Nat) : Prog Device Unit := do
  let sent ← ethTxBurst dpdk [{ packet with size := size }]
  require (sent == 1) "failed to send"

/-- `std::copy(begin + k, end, begin)` on a vector: element by element, in place. -/
def stdCopy {α : Type} (xs : List α) (k : Nat) : List α :=
  (List.range (xs.length - k)).foldl (fun ys i => (ys[k + i]?).elim ys fun y => ys.set i y) xs

/-- `Device::flush_send_queue`. The card is offered as many packets as a `uint16_t` counts; what it
leaves moves to the front. -/
def flushSendQueue (dpdk : Dpdk) : Prog Device Unit := do
  let d ← get
  if d.sendMbufs.isEmpty then return ()
  let size := d.sendMbufs.length
  let sent ← ethTxBurst dpdk (d.sendMbufs.take (size % 2 ^ 16))
  modify fun d =>
    { d with
      sendMbufs := (if sent < size then stdCopy d.sendMbufs sent else d.sendMbufs).take (size - sent) }

/-- `Device::enqueue_for_send(size)`: queue a packet of this size and return its bytes. The callers
ask for sizes that `rte_pktmbuf_append` has room for. -/
def enqueueForSend (dpdk : Dpdk) (size : Nat) : Prog Device ByteView := do
  let d ← get
  if d.sendMbufs.length == kSendBurstSize then flushSendQueue dpdk
  let some mem ← pktmbufAlloc dpdk | throw (.runtimeError "Failed to allocate mbuf")
  let packet : ByteView := ⟨mem, 0, size⟩
  modify fun d => { d with sendMbufs := d.sendMbufs ++ [packet] }
  return packet

/-- `Device::enqueue_for_send(F&&)`: queue a packet that `f` fills, which returns its size. The
length of a packet is a `uint16_t`. -/
def enqueueForSendWith (dpdk : Dpdk) (f : Memory → Except Error (Memory × Nat)) :
    Prog Device Unit := do
  let d ← get
  if d.sendMbufs.length == kSendBurstSize then flushSendQueue dpdk
  let some mem ← pktmbufAlloc dpdk | throw (.runtimeError "Failed to allocate mbuf")
  modify fun d => { d with sendMbufs := d.sendMbufs ++ [⟨mem, 0, 0⟩] }
  match f mem with
  | .error e => throw e
  | .ok (mem, size) => modify fun d =>
      { d with sendMbufs := d.sendMbufs.dropLast ++ [⟨mem, 0, size % 2 ^ 16⟩] }

/-- Stores through the view that `enqueueForSend` returned, into the packet queued last. -/
def writeLast (packet : ByteView) : Prog Device Unit :=
  modify fun d => { d with sendMbufs := d.sendMbufs.dropLast ++ [packet] }

/-- The `rte_eth_tx_burst` of one packet takes it or leaves it. -/
theorem sendPacket_apply (dpdk : Dpdk) (packet : ByteView) (size : Nat) (d : Device) :
    sendPacket dpdk packet size d =
      if dpdk.ethTxBurst d.bursts = 0 then
        .error (.runtimeError "failed to send") { d with bursts := d.bursts + 1 }
      else
        .ok () { d with
          bursts := d.bursts + 1
          transmitted := d.transmitted ++ [{ packet with size := size }] } := by
  by_cases h : dpdk.ethTxBurst d.bursts = 0
  · simp [sendPacket, ethTxBurst, bind_apply, map_apply, h, require]
  · have h1 : min (dpdk.ethTxBurst d.bursts) 1 = 1 := by omega
    simp [sendPacket, ethTxBurst, bind_apply, map_apply, h, h1, require]

theorem getSendBuffer_apply (dpdk : Dpdk) (d : Device) :
    getSendBuffer dpdk d =
      match dpdk.pktmbufAlloc d.allocs with
      | none => .error (.runtimeError "Nullptr in tx_packet") { d with allocs := d.allocs + 1 }
      | some mem => .ok ⟨mem, 0, dpdk.dataRoomSize.toNat⟩ { d with allocs := d.allocs + 1 } := by
  cases h : dpdk.pktmbufAlloc d.allocs <;>
    simp [getSendBuffer, pktmbufAlloc, bind_apply, map_apply, h]

end Device

end WsGateway.Network
