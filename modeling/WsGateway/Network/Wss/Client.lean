import WsGateway.Network.Tls12.Client
import WsGateway.Network.Wss.Model

/-!
# The WebSocket client

`network/wss/client`.
-/

namespace WsGateway.Network.Wss

open Library

inductive State where
  | Init
  | HttpHandshake
  | Connected
  deriving DecidableEq, Repr

structure Config where
  host : List UInt8
  path : List UInt8

/-- What a WebSocket client runs against; the key is what `gen_sec_webSocket_key` returns. -/
structure Env extends Tls12.Env where
  secWebSocketKey : List UInt8

structure Client where
  tls : Tls12.Client
  stream : Stream
  state : State
  config : Config

/-- `Client::Result`. -/
structure Result where
  code : OpCode
  bytes : List UInt8
  deriving DecidableEq, Repr

/-- `Client::extract_payload`, which works on the stream only. The sum of the sizes wraps as a
`size_t`. -/
def extractPayload : Prog Stream (Option Result) := do
  let s ← get
  let some header := peekHeader s | return none
  let some _ := s.peek ((header.headerSize + header.size) % 2 ^ 64) | return none
  let some _ ← popHeader | return none
  let some payload ← Stream.pop header.size | return none
  require (!header.mask) "mask"
  require (decide (header.code.toNat ≤ 10)) "code"
  return some ⟨header.code, payload⟩

/-- The bytes of an ASCII string. -/
def ascii (s : String) : List UInt8 := s.toList.map fun c => UInt8.ofNat c.toNat

namespace Client

/-- A client before its constructor's body. -/
def init (config : Config) (tcp : Tcp.Client) : Client where
  tls := .init config.host tcp
  stream := .new 200000
  state := .Init
  config := config

def onTls {α : Type} (x : Prog Tls12.Client α) : Prog Client α :=
  zoom (fun c => c.tls) (fun c t => { c with tls := t }) x

def onStream {α : Type} (x : Prog Stream α) : Prog Client α :=
  zoom (fun c => c.stream) (fun c s => { c with stream := s }) x

def setState (s : State) : Prog Client Unit := modify fun c => { c with state := s }

/-- The body of the constructor. -/
def construct (env : Env) : Prog Client Unit := onTls (Tls12.Client.construct env.toEnv)

def upgradeRequest (config : Config) (secWebSocketKey : List UInt8) : List UInt8 :=
  ascii "GET " ++ config.path ++ ascii " HTTP/1.1\r\nHost: " ++ config.host ++
    ascii "\r\nUpgrade: websocket\r\nConnection: Upgrade, keep-alive\r\nSec-WebSocket-Key: " ++
    secWebSocketKey ++ ascii "\r\nSec-WebSocket-Version: 13\r\n\r\n"

def generateUpgradeRequest (env : Env) : Prog Client Unit := do
  let c ← get
  require (c.state == .Init) ""
  onTls (Tls12.Client.pushString (upgradeRequest c.config env.secWebSocketKey))
  onTls (Tls12.Client.flush env.toEnv)

def acceptHandshake : Prog Client Bool := do
  let c ← get
  require (c.state == .HttpHandshake) "wrong state"
  let some _ := c.stream.search (ascii "HTTP/1.1 101") | return false
  let some sufPos := c.stream.search (ascii "\r\n\r\n") | return false
  let some _ ← onStream (Stream.pop (sufPos + 4)) | throw .badOptionalAccess
  return true

def processPacket (env : Env) (tcpPacket : Tcp.PacketView) : Prog Client Unit :=
  onTls (Tls12.Client.processPacket env.toEnv tcpPacket)

/-- The loop of `next_message` over the received records. Every plaintext takes bytes from the TLS
stream, so as many rounds as it has bytes are enough. -/
def receiveAll (env : Env) : Nat → Prog Client Unit
  | 0 => throw .diverges
  | fuel + 1 => do
    let some bytes ← onTls (Tls12.Client.receive env.toEnv) | return ()
    modify fun c => { c with stream := c.stream.shift }
    onStream (Stream.pushBytes (.ofList bytes))
    receiveAll env fuel

/-- The handshake part of `next_message`; `false` if it returns there. -/
def advanceState (env : Env) : Prog Client Bool := do
  let c ← get
  if c.tls.isHandshakeComplete then
    match c.state with
    | .Init =>
      generateUpgradeRequest env
      setState .HttpHandshake
      return true
    | .HttpHandshake =>
      if ← acceptHandshake then
        setState .Connected
        return true
      return false
    | .Connected => return true
  return true

def nextMessage (env : Env) : Prog Client (Option (List UInt8)) := do
  let c ← get
  receiveAll env (c.tls.stream.size + 1)
  let goOn ← advanceState env
  if !goOn then return none
  let some res ← onStream extractPayload | return none
  if res.code == .Text || res.code == .Binary then return some res.bytes
  return none

end Client

end WsGateway.Network.Wss
