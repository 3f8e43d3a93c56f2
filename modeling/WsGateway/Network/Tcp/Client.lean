import WsGateway.Network.Tcp.PacketView

/-!
# The TCP client

`network/tcp/client`. The client keeps its sender's device as a member, so that
sending is part of its state; `handed` records, for the proofs, every packet
handed to `send_raw` together with the state it was sent in.
-/

namespace WsGateway.Network.Tcp

open Library

inductive State where
  | Offline
  | Connecting
  | Connected
  deriving DecidableEq, Repr

/-- A packet handed to `send_raw`, with the client's state and the payload length given to
`send`. -/
structure Handed where
  state : State
  frame : PacketView
  payloadLen : Nat

structure Client where
  sender : Device
  peerWindowScale : UInt8
  unacknowledgedBytes : UInt32
  sendWnd : UInt32
  lastAckNumber : SeqNumber
  seq : SeqNumber
  ack : SeqNumber
  ipId : UInt16
  state : State
  connection : Connection
  handed : List Handed

/-- `Client::SendBuffer`; the packet view and the transmit buffer share their memory. -/
structure SendBuffer where
  tcp : PacketView

namespace Client

def kWindowSize : UInt32 := 65535

/-- `Client::Client`, with the two numbers it draws at random. -/
def new (connection : Connection) (sender : Device) (seq : SeqNumber) (ipId : UInt16) :
    Client where
  sender := sender
  peerWindowScale := 0
  unacknowledgedBytes := 0
  sendWnd := kWindowSize
  lastAckNumber := seq
  seq := seq
  ack := 0
  ipId := ipId
  state := .Offline
  connection := connection
  handed := []

/-- A call on the device behind `sender`. -/
def onSender {α : Type} (x : Prog Device α) : Prog Client α :=
  zoom (fun c => c.sender) (fun c d => { c with sender := d }) x

/-- A packet view operation that may throw. -/
def ofExcept {σ α : Type} : Except Error α → Prog σ α
  | .ok a => pure a
  | .error e => throw e

def getSendBuffer (dpdk : Dpdk) (flags : Flags) (includeOptions : Bool) :
    Prog Client SendBuffer := do
  let tx ← onSender (Device.getSendBuffer dpdk)
  let c ← get
  let tcp ← ofExcept ((PacketView.ofBytes tx).init c.connection flags c.seq c.ack includeOptions)
  return ⟨tcp.setIpId c.ipId⟩

/-- The packet `send` hands to the device. -/
def finishPacket (dpdk : Dpdk) (packet : SendBuffer) (payloadLen : Nat) : PacketView :=
  ((packet.tcp.resizePayload payloadLen).updateChecksum dpdk).updateIpChecksum dpdk

def send (dpdk : Dpdk) (packet : SendBuffer) (payloadLen : Nat) : Prog Client Unit := do
  let c ← get
  require ((c.unacknowledgedBytes.toNat + payloadLen) % 2 ^ 64 ≤ c.sendWnd.toNat) "window is full"
  let tcp := finishPacket dpdk packet payloadLen
  modify fun c =>
    { c with
      ipId := c.ipId + 1
      seq := c.seq + UInt32.ofNat payloadLen
      unacknowledgedBytes := c.unacknowledgedBytes + UInt32.ofNat payloadLen
      handed := c.handed ++ [⟨c.state, tcp, payloadLen⟩] }
  onSender (Device.sendPacket dpdk tcp.eth.rawBytes tcp.eth.rawBytes.size)

/-- `send(get_send_buffer(Flags::ACK))`. -/
def sendAck (dpdk : Dpdk) : Prog Client Unit := do
  let packet ← getSendBuffer dpdk .ACK false
  send dpdk packet 0

/-- `hdr.window.value() << peer_window_scale`: the `uint16_t` is promoted to an `int`, and the
processor takes the shift count modulo 32. -/
def peerRwnd (window : UInt16) (peerWindowScale : UInt8) : UInt32 :=
  window.toUInt32 <<< peerWindowScale.toUInt32

def processPacket (dpdk : Dpdk) (tcpPacket : PacketView) : Prog Client Unit := do
  require tcpPacket.isValid "Tcp packet is not valid"
  let hdr := tcpPacket.header
  require (!hasFlag hdr.flags .RST) "rst received"
  let receivedSeq := hdr.seq
  let receivedAck := hdr.ack
  let c ← get
  if receivedSeq.cmp c.ack == .lt && c.ack != 0 then return ()
  require (receivedSeq == c.ack || c.ack == 0) "Misses are not supported"
  let peerRwnd := peerRwnd hdr.window c.peerWindowScale
  modify fun c => { c with sendWnd := if peerRwnd > 0 then peerRwnd else c.sendWnd }
  require (c.lastAckNumber.cmp receivedAck != .gt) "ack is not expected to decrease"
  let bytesAcked := receivedAck - c.lastAckNumber
  require (bytesAcked ≤ c.unacknowledgedBytes) "Unexpected bytes got acknowledged"
  modify fun c =>
    { c with
      unacknowledgedBytes := c.unacknowledgedBytes - bytesAcked
      lastAckNumber := receivedAck }
  if c.state == .Connecting && hdr.flags == .SYN_ACK then
    modify fun c =>
      { c with
        state := .Connected
        ack := receivedSeq + (1 : UInt32)
        seq := c.seq + (1 : UInt32)
        lastAckNumber := receivedAck }
    let options ← ofExcept tcpPacket.parseOptions
    modify fun c => { c with peerWindowScale := options.windowScale.getD c.peerWindowScale }
    sendAck dpdk
    return ()
  if c.state == .Connected && !tcpPacket.payload.empty then
    modify fun c => { c with ack := receivedSeq + UInt32.ofNat tcpPacket.payload.size }
    sendAck dpdk

def connect (dpdk : Dpdk) : Prog Client Unit := do
  let _packet ← onSender (Device.getSendBuffer dpdk)
  modify fun c => { c with state := .Connecting }
  let packet ← getSendBuffer dpdk .SYN true
  send dpdk packet 0
  modify fun c => { c with unacknowledgedBytes := 1 }

def sendRst (dpdk : Dpdk) : Prog Client Unit := do
  let _packet ← onSender (Device.getSendBuffer dpdk)
  let packet ← getSendBuffer dpdk .RST false
  send dpdk packet 0
  modify fun c => { c with state := .Offline }

end Client

end WsGateway.Network.Tcp
