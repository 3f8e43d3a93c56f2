import WsGateway.Base.Stream

/-!
# Ethernet and IPv4 packet views

`network/type` and `network/eth_ip`. A view is a span over a frame; its methods
read the wire fields through that span without looking at its size, and compute
the sizes of the inner views in `size_t` arithmetic. Transmit packets are built
through the same views.
-/

namespace WsGateway.Network

open Library

/-! ## Addresses -/

abbrev Mac := Vector UInt8 6

abbrev Ip := Vector UInt8 4

abbrev Port := UInt16

structure Host where
  mac : Mac
  ip : Ip
  deriving DecidableEq

structure Session where
  src : Host
  dst : Host
  deriving DecidableEq

structure Connection where
  session : Session
  srcPort : Port
  dstPort : Port
  deriving DecidableEq

end WsGateway.Network

namespace WsGateway.ByteView

open Library

/-- The big-endian number of `w` bytes at offset `pos` of a view. -/
def be (v : ByteView) (pos w : Nat) : Nat := v.mem.be (v.data + pos) w

/-- The array of `n` bytes at offset `pos` of a view. -/
def array (v : ByteView) (pos n : Nat) : Vector UInt8 n := Vector.ofFn fun i => v.get (pos + i)

/-- Store bytes at offset `pos` of a view. -/
def write (v : ByteView) (pos : Nat) (bs : List UInt8) : ByteView :=
  { v with mem := v.mem.write (v.data + pos) bs }

/-- `inner` covers only bytes of `outer`. -/
def Within (inner outer : ByteView) : Prop :=
  inner.mem = outer.mem ∧ outer.data ≤ inner.data ∧
    inner.data + inner.size ≤ outer.data + outer.size

theorem be_lt (v : ByteView) (pos w : Nat) : v.be pos w < 256 ^ w := v.mem.be_lt _ w

end WsGateway.ByteView

namespace WsGateway.Network

open Library

/-! ## Ethernet -/

/-- The values of `enum class EthernetType` on the wire. -/
abbrev EthernetType := UInt16

namespace EthernetType

def Ipv4 : EthernetType := 0x0800

def Ipv6 : EthernetType := 0x86DD

def Arp : EthernetType := 0x0806

end EthernetType

structure EthernetHeader where
  dstMac : Mac
  srcMac : Mac
  type : EthernetType

namespace EthernetHeader

/-- `sizeof(EthernetHeader)`. -/
def sizeof : Nat := 14

def bytes (h : EthernetHeader) : List UInt8 :=
  h.dstMac.toList ++ h.srcMac.toList ++ beBytes 2 h.type.toNat

end EthernetHeader

structure EthernetPacketView where
  data : ByteView

namespace EthernetPacketView

def isValid (v : EthernetPacketView) : Bool := decide (v.data.size ≥ EthernetHeader.sizeof)

def header (v : EthernetPacketView) : EthernetHeader where
  dstMac := v.data.array 0 6
  srcMac := v.data.array 6 6
  type := UInt16.ofNat (v.data.be 12 2)

def payload (v : EthernetPacketView) : ByteView :=
  ⟨v.data.mem, v.data.data + EthernetHeader.sizeof, sizeSub v.data.size EthernetHeader.sizeof⟩

def rawBytes (v : EthernetPacketView) : ByteView := v.data

def init (v : EthernetPacketView) (dstMac srcMac : Mac) (type : EthernetType) :
    Except Error EthernetPacketView :=
  let v : EthernetPacketView := ⟨v.data.write 0 (EthernetHeader.bytes ⟨dstMac, srcMac, type⟩)⟩
  if v.isValid then .ok v else .error (.runtimeError "ethernet packet is not valid")

def predictSize (payloadSize : Nat) : Nat := EthernetHeader.sizeof + payloadSize

def resizePayload (v : EthernetPacketView) (payloadSize : Nat) : EthernetPacketView :=
  ⟨{ v.data with size := EthernetHeader.sizeof + payloadSize }⟩

end EthernetPacketView

/-! ## IPv4 -/

/-- The values of `enum class IpProtocol` on the wire. -/
abbrev IpProtocol := UInt8

namespace IpProtocol

def Tcp : IpProtocol := 6

def Udp : IpProtocol := 17

end IpProtocol

structure IpHeader where
  ihl : UInt8
  version : UInt8
  tos : UInt8
  totalLength : Nat
  id : UInt16
  fragOff : UInt16
  ttl : UInt8
  protocol : IpProtocol
  check : UInt16
  srcAddr : Ip
  dstAddr : Ip

namespace IpHeader

/-- `sizeof(IpHeader)`. -/
def sizeof : Nat := 20

/-- `IpHeader::size`, the header length on the wire. -/
def size (h : IpHeader) : Nat := h.ihl.toNat * 4

def bytes (h : IpHeader) : List UInt8 :=
  [h.version <<< 4 ||| h.ihl, h.tos] ++ beBytes 2 h.totalLength ++ beBytes 2 h.id.toNat ++
    beBytes 2 h.fragOff.toNat ++ [h.ttl, h.protocol] ++ beBytes 2 h.check.toNat ++
    h.srcAddr.toList ++ h.dstAddr.toList

def read (v : ByteView) : IpHeader where
  ihl := v.get 0 &&& 0x0F
  version := v.get 0 >>> 4
  tos := v.get 1
  totalLength := v.be 2 2
  id := UInt16.ofNat (v.be 4 2)
  fragOff := UInt16.ofNat (v.be 6 2)
  ttl := v.get 8
  protocol := v.get 9
  check := UInt16.ofNat (v.be 10 2)
  srcAddr := v.array 12 4
  dstAddr := v.array 16 4

end IpHeader

structure IPPacketView where
  ethView : EthernetPacketView

namespace IPPacketView

def header (v : IPPacketView) : IpHeader := .read v.ethView.payload

def eth (v : IPPacketView) : EthernetPacketView := v.ethView

def isValid (v : IPPacketView) : Bool :=
  let ipSize := v.header.totalLength
  let ethPayloadSize := v.ethView.payload.size
  (decide (ipSize < 60) || ipSize == ethPayloadSize) &&
    decide (v.header.size ≤ v.ethView.payload.size)

def payload (v : IPPacketView) : ByteView :=
  ⟨v.ethView.payload.mem, v.ethView.payload.data + v.header.size,
    sizeSub v.header.totalLength v.header.size⟩

/-- Store bytes at offset `pos` of the IP header. -/
def write (v : IPPacketView) (pos : Nat) (bs : List UInt8) : IPPacketView :=
  ⟨⟨v.ethView.data.write (EthernetHeader.sizeof + pos) bs⟩⟩

/-- `IPPacketView::init`. Every field of the header is assigned; the `uint16_t` length keeps the
low 16 bits. -/
def init (v : IPPacketView) (session : Session) (protocol : IpProtocol) :
    Except Error IPPacketView := do
  let eth ← v.ethView.init session.dst.mac session.src.mac .Ipv4
  let hdr : IpHeader := {
    version := 4
    ihl := 5
    tos := 0
    totalLength := eth.payload.size
    id := 0
    fragOff := 0
    ttl := 64
    protocol := protocol
    srcAddr := session.src.ip
    dstAddr := session.dst.ip
    check := 0 }
  let v := IPPacketView.write ⟨eth⟩ 0 hdr.bytes
  if v.isValid then .ok v else .error (.runtimeError "ip packet is not valid")

def predictSize (payloadSize : Nat) : Nat := EthernetPacketView.predictSize (20 + payloadSize)

def resizePayload (v : IPPacketView) (payloadSize : Nat) : IPPacketView :=
  let v : IPPacketView := ⟨v.ethView.resizePayload (v.header.size + payloadSize)⟩
  v.write 2 (beBytes 2 v.ethView.payload.size)

end IPPacketView

end WsGateway.Network
