import WsGateway.Network.Dpdk

/-!
# The ARP responder

`network/arp`.
-/

namespace WsGateway.Network.Arp

open Library

namespace HardwareType

def Ethernet : UInt16 := 1

end HardwareType

namespace ProtocolType

def Ipv4 : UInt16 := 0x0800

end ProtocolType

/-- The values of `enum class Operation` on the wire. -/
abbrev Operation := UInt16

namespace Operation

def Request : Operation := 1

def Reply : Operation := 2

end Operation

structure Header where
  hardwareType : UInt16
  protocolType : UInt16
  hardwareLen : UInt8
  protocolLen : UInt8
  operation : Operation
  senderMac : Mac
  senderIp : Ip
  targetMac : Mac
  targetIp : Ip

namespace Header

/-- `sizeof(Header)`. -/
def sizeof : Nat := 28

def bytes (h : Header) : List UInt8 :=
  beBytes 2 h.hardwareType.toNat ++ beBytes 2 h.protocolType.toNat ++
    [h.hardwareLen, h.protocolLen] ++ beBytes 2 h.operation.toNat ++ h.senderMac.toList ++
    h.senderIp.toList ++ h.targetMac.toList ++ h.targetIp.toList

def read (v : ByteView) : Header where
  hardwareType := UInt16.ofNat (v.be 0 2)
  protocolType := UInt16.ofNat (v.be 2 2)
  hardwareLen := v.get 4
  protocolLen := v.get 5
  operation := UInt16.ofNat (v.be 6 2)
  senderMac := v.array 8 6
  senderIp := v.array 14 4
  targetMac := v.array 18 6
  targetIp := v.array 24 4

end Header

structure PacketView where
  ethView : EthernetPacketView

namespace PacketView

def header (v : PacketView) : Header := .read v.ethView.payload

def isValid (v : PacketView) : Bool :=
  decide (v.ethView.payload.size ≥ Header.sizeof) &&
    v.header.hardwareType == HardwareType.Ethernet &&
    v.header.protocolType == ProtocolType.Ipv4 &&
    v.header.hardwareLen == 6 && v.header.protocolLen == 4 &&
    (v.header.operation == Operation.Request || v.header.operation == Operation.Reply)

def predictSize : Nat := EthernetPacketView.predictSize Header.sizeof

/-- `init_request` and `init_reply`, which differ in the operation only. -/
def initOperation (v : PacketView) (operation : Operation) (senderMac : Mac) (senderIp : Ip)
    (targetMac : Mac) (targetIp : Ip) : Except Error PacketView := do
  let eth ← v.ethView.init targetMac senderMac .Arp
  let hdr : Header := {
    hardwareType := HardwareType.Ethernet
    protocolType := ProtocolType.Ipv4
    hardwareLen := 6
    protocolLen := 4
    operation := operation
    senderMac := senderMac
    senderIp := senderIp
    targetMac := targetMac
    targetIp := targetIp }
  return ⟨⟨eth.data.write EthernetHeader.sizeof hdr.bytes⟩⟩

def initRequest (v : PacketView) : Mac → Ip → Mac → Ip → Except Error PacketView :=
  v.initOperation .Request

def initReply (v : PacketView) : Mac → Ip → Mac → Ip → Except Error PacketView :=
  v.initOperation .Reply

end PacketView

namespace ArpHandler

/-- `ArpHandler::handle_packet` on the device behind the handler's sender. -/
def handlePacket (dpdk : Dpdk) (localHost : Host) (rawPacket : ByteView) :
    Prog Device Unit := do
  let arpPacket : PacketView := ⟨⟨rawPacket⟩⟩
  if !arpPacket.isValid then return ()
  let arpHeader := arpPacket.header
  if arpHeader.operation == Operation.Request && arpHeader.targetIp == localHost.ip then
    let replyBuffer ← Device.enqueueForSend dpdk PacketView.predictSize
    match PacketView.initReply ⟨⟨replyBuffer⟩⟩ localHost.mac localHost.ip arpHeader.senderMac
      arpHeader.senderIp with
    | .error e => throw e
    | .ok reply =>
      Device.writeLast reply.ethView.data
      Device.flushSendQueue dpdk

/-- `ArpHandler::send_request`. -/
def sendRequest (dpdk : Dpdk) (localHost : Host) (targetIp : Ip) : Prog Device Unit := do
  let requestBuffer ← Device.enqueueForSend dpdk PacketView.predictSize
  match PacketView.initRequest ⟨⟨requestBuffer⟩⟩ localHost.mac localHost.ip
    (.replicate 6 0) targetIp with
  | .error e => throw e
  | .ok request =>
    Device.writeLast (request.ethView.data.write 0 (List.replicate 6 0xFF))
    Device.flushSendQueue dpdk

end ArpHandler

end WsGateway.Network.Arp
