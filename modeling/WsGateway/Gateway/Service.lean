import WsGateway.Network.Arp
import WsGateway.Network.Wss.Client

/-!
# The gateway loop

`gateway/ws_demo/service`. The loop is run on the list of frames the device
receives; an exception ends it. The payloads given to `process_payload` are
recorded. The ARP handler and the TCP client send through one device, which the
TCP client holds.
-/

namespace WsGateway.Gateway

open Library Network

structure Service where
  connection : Wss.Client
  localHost : Host
  payloads : List (List UInt8)

namespace Service

def onConnection {α : Type} (x : Prog Wss.Client α) : Prog Service α :=
  zoom (fun s => s.connection) (fun s c => { s with connection := c }) x

/-- A call on the device that the senders share. -/
def onDevice {α : Type} (x : Prog Device α) : Prog Service α :=
  onConnection (Wss.Client.onTls (Tls12.Client.onTcp (Tcp.Client.onSender x)))

/-- `WsDemoServiceImpl::process_payload`. -/
def processPayload (payload : List UInt8) : Prog Service Unit :=
  modify fun s => { s with payloads := s.payloads ++ [payload] }

/-- The inner loop: `next_message` until it returns nothing. Every message takes bytes from the
streams, so as many rounds as they have bytes are enough. -/
def drain (env : Wss.Env) : Nat → Prog Service Unit
  | 0 => throw .diverges
  | fuel + 1 => do
    let some payload ← onConnection (Wss.Client.nextMessage env) | return ()
    processPayload payload
    drain env fuel

/-- The bytes buffered in the two streams. -/
def buffered (s : Service) : Nat := s.connection.tls.stream.size + s.connection.stream.size

/-- The branch of the loop body for TCP segments. -/
def onSegment (env : Wss.Env) (tcp : Tcp.PacketView) : Prog Service Unit := do
  onConnection (Wss.Client.processPacket env tcp)
  let s ← get
  drain env (s.buffered + 1)

/-- The loop body for one received frame. -/
def onFrame (env : Wss.Env) (frame : ByteView) : Prog Service Unit := do
  let eth : EthernetPacketView := ⟨frame⟩
  if eth.header.type == EthernetType.Arp then
    let s ← get
    onDevice (Arp.ArpHandler.handlePacket env.dpdk s.localHost frame)
  else if eth.header.type != EthernetType.Ipv4 then
    return ()
  else
    let ip : IPPacketView := ⟨eth⟩
    if ip.header.protocol != IpProtocol.Tcp then
      return ()
    else
      onSegment env ⟨ip⟩

/-- The loop of `WsDemoServiceImpl::run_worker`. -/
def runWorker (env : Wss.Env) : List ByteView → Prog Service Unit
  | [] => return ()
  | frame :: frames => do
    onFrame env frame
    runWorker env frames

/-- The service before the loop: the TCP client's connection and the WebSocket client over it. -/
def init (config : Wss.Config) (localHost : Host) (tcp : Tcp.Client) : Service where
  connection := .init config tcp
  localHost := localHost
  payloads := []

/-- `WsDemoServiceImpl::run_worker`. -/
def main (env : Wss.Env) (frames : List ByteView) : Prog Service Unit := do
  onConnection (Wss.Client.construct env)
  runWorker env frames

end Service

end WsGateway.Gateway
