import WsGateway.Network.Tls12.Model

/-!
# The TLS client

`network/tls12/client`. The handshake steps parse the buffered stream; `receive`
calls itself as long as a record header is left, so it is split into one call,
`receiveOnce`, and the recursion over it.
-/

namespace WsGateway.Network.Tls12

open Library

inductive HandshakeState where
  | ClientHelloToSend
  | ServerHello
  | ServerCertificate
  | ServerKeyExchange
  | ServerHelloDone
  | ClientKeyExchange
  | ClientFinished
  | ServerFinished
  deriving DecidableEq, Repr

structure Keys where
  clientWriteKey : AES128Key
  serverWriteKey : AES128Key
  clientWriteIv : MessageIV
  serverWriteIv : MessageIV

/-- The parts of DPDK and OpenSSL a client runs against. -/
structure Env where
  dpdk : Dpdk
  ossl : OpenSsl

structure Client where
  sendBuffer : Stream
  tcp : Tcp.Client
  stream : Stream
  serverRandom : Vector UInt8 32
  clientRandom : Vector UInt8 32
  serverEphPubkey : List UInt8
  masterSecret : Vector UInt8 48
  /-- The bytes fed to `handshake_hash`. -/
  handshakeHash : List UInt8
  encCtx : Option EncryptContext
  decCtx : Option EncryptContext
  keys : Keys
  writeSequenceNumber : UInt64
  readSequenceNumber : UInt64
  ivServerWriteIv : MessageIV
  ivExplicitIv : List UInt8
  sniHostname : List UInt8
  handshakeState : HandshakeState
  /-- How often the client has drawn random numbers or keys. -/
  drawn : Nat
  /-- How often `send_client_key_exchange_and_finished` was called. -/
  keyExchanges : Nat

/-- `MutableByteViewWriteStream`, which keeps the position only: the objects pushed are filled in
through references later, so their bytes are put together when the packet is sent. -/
structure WriteStream where
  writeIt : Nat
  size : Nat

namespace WriteStream

def ofView (view : ByteView) : WriteStream := ⟨0, view.size⟩

/-- Room for the next `n` bytes. -/
def push (ws : WriteStream) (n : Nat) : Except Error WriteStream :=
  if ws.writeIt + n ≤ ws.size then .ok { ws with writeIt := ws.writeIt + n }
  else .error (.runtimeError "Out of bounds")

end WriteStream

namespace Client

/-- A client before its constructor's body. -/
def init (sniHostname : List UInt8) (tcp : Tcp.Client) : Client where
  sendBuffer := .new 20600
  tcp := tcp
  stream := .new 20600
  serverRandom := .replicate 32 0
  clientRandom := .replicate 32 0
  serverEphPubkey := List.replicate 2048 0
  masterSecret := .replicate 48 0
  handshakeHash := []
  encCtx := none
  decCtx := none
  keys := ⟨.replicate 16 0, .replicate 16 0, .replicate 4 0, .replicate 4 0⟩
  writeSequenceNumber := 0
  readSequenceNumber := 0
  ivServerWriteIv := .replicate 4 0
  ivExplicitIv := List.replicate 8 0
  sniHostname := sniHostname
  handshakeState := .ClientHelloToSend
  drawn := 0
  keyExchanges := 0

def onTcp {α : Type} (x : Prog Tcp.Client α) : Prog Client α :=
  zoom (fun c => c.tcp) (fun c t => { c with tcp := t }) x

def onStream {α : Type} (x : Prog Stream α) : Prog Client α :=
  zoom (fun c => c.stream) (fun c s => { c with stream := s }) x

def onSendBuffer {α : Type} (x : Prog Stream α) : Prog Client α :=
  zoom (fun c => c.sendBuffer) (fun c s => { c with sendBuffer := s }) x

def isHandshakeComplete (c : Client) : Bool := c.handshakeState == .ServerFinished

/-- `handshake_hash.update`. -/
def hashUpdate (bytes : List UInt8) : Prog Client Unit :=
  modify fun c => { c with handshakeHash := c.handshakeHash ++ bytes }

def setHandshakeState (s : HandshakeState) : Prog Client Unit :=
  modify fun c => { c with handshakeState := s }

/-- `tls_randoms.client.generate()`. -/
def generateClientRandom (ossl : OpenSsl) : Prog Client Unit := do
  let c ← get
  modify fun c => { c with drawn := c.drawn + 1 }
  let some random := ossl.randBytes c.drawn | throw (.runtimeError "rand failed")
  modify fun c => { c with clientRandom := random }

/-- The body of the constructor. -/
def construct (env : Env) : Prog Client Unit := do
  generateClientRandom env.ossl
  onTcp (Tcp.Client.connect env.dpdk)

/-- Send `payload` in a packet that was obtained before. -/
def sendPayload (env : Env) (packet : Tcp.SendBuffer) (payload : List UInt8) :
    Prog Client Unit :=
  onTcp (Tcp.Client.send env.dpdk ⟨packet.tcp.writePayload payload⟩ payload.length)

def setEncCtx (ctx : EncryptContext) : Prog Client Unit :=
  modify fun c => { c with encCtx := some ctx }

/-- `Client::encrypt`: the ciphertext followed by the tag. One of the calls on the context may fail,
`fails`; the next `init` makes up for whatever such a call leaves in the context. -/
def encrypt (fails : Option EvpCall) (ossl : OpenSsl) (view : List UInt8)
    (contentType : ContentType) : Prog Client (List UInt8) := do
  let c ← get
  let some ctx := c.encCtx | throw .emptyOptional
  let ctx := ctx.init (c.keys.clientWriteIv.toList ++ beBytes 8 c.writeSequenceNumber.toNat)
  setEncCtx ctx
  require (fails != some .init) ""
  let ctx := ctx.updateAad (additionalAuthData c.writeSequenceNumber contentType view.length)
  setEncCtx ctx
  require (fails != some .updateAad) ""
  let (out, ctx) := ctx.encryptUpdate ossl view
  setEncCtx ctx
  require (fails != some .update) ""
  require (fails != some .finalEx) ""
  require (fails != some .appendGcmTag) ""
  modify fun c => { c with writeSequenceNumber := c.writeSequenceNumber + 1 }
  return out ++ (ctx.tag ossl).toList

/-- `Client::decrypt`. The plaintext also overwrites the popped bytes, which nothing reads
again. -/
def decrypt (ossl : OpenSsl) (bytes : List UInt8) : Prog Client (List UInt8) := do
  require (bytes.length > kGcmTagSize) "Ciphertext too small"
  let c ← get
  let some ctx := c.decCtx | throw .emptyOptional
  let ctx := ctx.init (c.ivServerWriteIv.toList ++ c.ivExplicitIv)
  let ctx := ctx.updateAad
    (additionalAuthData c.readSequenceNumber .ApplicationData bytes.length)
  let (out, ctx) := ctx.decryptUpdate ossl bytes
  modify fun c =>
    { c with
      decCtx := some ctx
      readSequenceNumber := c.readSequenceNumber + 1 }
  return out.take (bytes.length - kGcmTagSize)

/-- `Client::flush`, in which a call on the cipher context may fail. -/
def flushWith (fails : Option EvpCall) (env : Env) : Prog Client Unit := do
  let packet ← onTcp (Tcp.Client.getSendBuffer env.dpdk .PSH_ACK false)
  let ws := WriteStream.ofView packet.tcp.payload
  let ws ← Tcp.Client.ofExcept (ws.push (RecordHeader.sizeof + kExplicitIvSize))
  let c ← get
  let explicitIv := beBytes 8 c.writeSequenceNumber.toNat
  let toSend ← onSendBuffer (Stream.pop c.sendBuffer.size)
  require toSend.isSome ""
  let toSend := toSend.getD []
  let _ws ← Tcp.Client.ofExcept (ws.push toSend.length)
  let encrypted ← encrypt fails env.ossl toSend .ApplicationData
  let header := RecordHeader.bytes ⟨.ApplicationData, kTls12, kExplicitIvSize + encrypted.length⟩
  sendPayload env packet (header ++ explicitIv ++ encrypted)

/-- `Client::flush`, with a cipher context that works. -/
def flush (env : Env) : Prog Client Unit := flushWith none env

/-! ## Handshake steps -/

/-- `Client::send_client_hello`. The standard library lays a tuple out from its last element
on. -/
def sendClientHello (env : Env) : Prog Client Unit := do
  let packet ← onTcp (Tcp.Client.getSendBuffer env.dpdk .PSH_ACK false)
  let ws := WriteStream.ofView packet.tcp.payload
  generateClientRandom env.ossl
  let ws ← Tcp.Client.ofExcept (ws.push kClientHelloMessageSize)
  let c ← get
  let ws ← Tcp.Client.ofExcept (ws.push 9)
  let ws ← Tcp.Client.ofExcept (ws.push c.sniHostname.length)
  let _ws ← Tcp.Client.ofExcept (ws.push kDefaultExtensions.flatten.length)
  let hello := clientHelloBytes kDefaultExtensions.reverse c.clientRandom c.sniHostname
  hashUpdate (hello.drop RecordHeader.sizeof)
  sendPayload env packet hello

/-- The transaction of `process_server_hello`: nothing if it runs out of bytes. -/
def readServerHello (read : Stream.ReadTransaction) :
    Except Error (Option ServerHelloMessage) := do
  let some (hello, read) := read.popObject ServerHelloMessage | return none
  let some (_, read) := read.pop hello.sessionIdSize.toNat | return none
  let some (cipherComp, _) := read.popObject ServerHelloCipherAndCompression | return none
  if cipherComp.cipherSuite != kCipherSuite then throw (.runtimeError "")
  if cipherComp.compressionMethod != 0 then
    throw (.runtimeError
      ("Unexpected compression method " ++ toString cipherComp.compressionMethod))
  return some hello

def processServerHello : Prog Client Bool := do
  let some header ← onStream (Stream.popObject RecordHeader) | return false
  let c ← get
  let some _ := c.stream.peek header.size | return false
  let some hello ← Tcp.Client.ofExcept (readServerHello c.stream.readTransaction) | return false
  let some bytes ← onStream (Stream.pop header.size) | throw .badOptionalAccess
  hashUpdate bytes
  modify fun c => { c with serverRandom := hello.serverRandom }
  return true

/-- The branch of `process_handshake` for the server's certificate. -/
def processServerCertificate : Prog Client Unit := do
  let some header ← onStream (Stream.popObject RecordHeader) | return ()
  let c ← get
  let some handshakeHeader := c.stream.peekObject HandshakeHeader | return ()
  require (handshakeHeader.handshakeType == .Certificate) ""
  let some inTlsPayload ← onStream (Stream.pop header.size) | throw .badOptionalAccess
  hashUpdate inTlsPayload
  setHandshakeState .ServerKeyExchange

/-- The transaction of `process_server_key_exchange`: the public key, and the transaction to
commit. -/
def readServerKeyExchange (read : Stream.ReadTransaction) :
    Except Error (Option (List UInt8 × Stream.ReadTransaction)) := do
  let some (header, read) := read.popObject HandshakeHeader | return none
  if header.handshakeType != .ServerKeyExchange then
    throw (.runtimeError "Expected handshake type")
  let some (ecdheParams, read) := read.popObject ServerKeyExchangeECDHE | return none
  if ecdheParams.curveType != kNamedCurve then throw (.runtimeError "Expected curve type")
  if ecdheParams.namedCurve != kCurve25519 then throw (.runtimeError "Unexpected curve")
  let some (pubkeyData, read) := read.pop ecdheParams.pubkeySize.toNat | return none
  let some (sigInfo, read) := read.popObject SignatureAlgorithmAndLength | return none
  let some (_, read) := read.pop sigInfo.signatureSize | return none
  return some (pubkeyData, read)

def processServerKeyExchange : Prog Client Bool := do
  let some _ ← onStream (Stream.popObject RecordHeader) | return false
  let c ← get
  let some (pubkeyData, read) ←
    Tcp.Client.ofExcept (readServerKeyExchange c.stream.readTransaction) | return false
  modify fun c =>
    { c with serverEphPubkey := pubkeyData ++ c.serverEphPubkey.drop pubkeyData.length }
  let bytes ← onStream (Stream.commit read)
  hashUpdate bytes
  return true

/-- The transaction of `process_server_hello_done`. -/
def readServerHelloDone (read : Stream.ReadTransaction) :
    Except Error (Option Stream.ReadTransaction) := do
  let some (header, read) := read.popObject HandshakeHeader | return none
  if header.handshakeType != .ServerHelloDone then
    throw (.runtimeError "Unexpected hanshake type")
  let some (_, read) := read.pop header.size | return none
  return some read

def processServerHelloDone : Prog Client Bool := do
  let some _ ← onStream (Stream.popObject RecordHeader) | return false
  let c ← get
  let some read ←
    Tcp.Client.ofExcept (readServerHelloDone c.stream.readTransaction) | return false
  let bytes ← onStream (Stream.commit read)
  hashUpdate bytes
  return true

/-- The keys that `prf` writes over the members of `Keys` in order. -/
def keysOfBlock (block : Vector UInt8 40) : Keys where
  clientWriteKey := Vector.ofFn fun i => block.toList.getD i 0
  serverWriteKey := Vector.ofFn fun i => block.toList.getD (16 + i) 0
  clientWriteIv := Vector.ofFn fun i => block.toList.getD (32 + i) 0
  serverWriteIv := Vector.ofFn fun i => block.toList.getD (36 + i) 0

/-- The key schedule of `send_client_key_exchange_and_finished`. -/
def deriveKeys (ossl : OpenSsl) (sharedSecret : Vector UInt8 32) : Prog Client Unit :=
  modify fun c =>
    let masterSecret := ossl.prf sharedSecret.toList "extended master secret"
      (ossl.sha256 c.handshakeHash).toList 48
    let keys := keysOfBlock (ossl.prf masterSecret.toList "key expansion"
      (c.serverRandom.toList ++ c.clientRandom.toList) 40)
    { c with
      masterSecret := masterSecret
      keys := keys
      encCtx := some { key := keys.clientWriteKey }
      decCtx := some { key := keys.serverWriteKey }
      ivServerWriteIv := keys.serverWriteIv }

def sendClientKeyExchangeAndFinished (env : Env) : Prog Client Unit := do
  modify fun c => { c with keyExchanges := c.keyExchanges + 1 }
  let packet ← onTcp (Tcp.Client.getSendBuffer env.dpdk .PSH_ACK false)
  let ws := WriteStream.ofView packet.tcp.payload
  let ws ← Tcp.Client.ofExcept (ws.push 42)
  let c ← get
  modify fun c => { c with drawn := c.drawn + 1 }
  let some clientEphKey := env.ossl.generateX25519Key c.drawn
    | throw (.runtimeError "EVP_PKEY_keygen failed")
  let record := x25519KeyExchangeMessage (env.ossl.rawPublicKey clientEphKey)
  let some sharedSecret := env.ossl.derive clientEphKey (c.serverEphPubkey.take 32)
    | throw (.runtimeError "EVP_PKEY_derive failed")
  hashUpdate (record.drop RecordHeader.sizeof)
  deriveKeys env.ossl sharedSecret
  let c ← get
  let verifyData := env.ossl.prf c.masterSecret.toList "client finished"
    (env.ossl.sha256 c.handshakeHash).toList 12
  let ws ← Tcp.Client.ofExcept (ws.push 6)
  let ws ← Tcp.Client.ofExcept (ws.push 29)
  let explicitIv := beBytes 8 c.writeSequenceNumber.toNat
  let encrypted ← encrypt none env.ossl (finishedHandshakeMessage verifyData)
    .Handshake
  let encryptedSize := kExplicitIvSize + encrypted.length
  let _ws ← Tcp.Client.ofExcept (ws.push (encryptedSize - 24))
  sendPayload env packet (record ++ kChangeCipherSpecRecord ++
    RecordHeader.bytes ⟨.Handshake, kTls12, encryptedSize⟩ ++ explicitIv ++ encrypted)

/-- The transaction of `process_server_finished`. The check of the first byte of the
ChangeCipherSpec message does not ask whether the message has one. -/
def readServerFinished (read : Stream.ReadTransaction) :
    Except Error (Option Stream.ReadTransaction) := do
  let some (tlsHeader, read) := read.popObject RecordHeader | return none
  if tlsHeader.contentType != .ChangeCipher then throw (.runtimeError "unexpected message")
  let first := read.front
  let some (_, read) := read.pop tlsHeader.size | return none
  if first != 1 then throw (.runtimeError "Incorrect ChangeCipher message")
  let some (tlsHeader2, read) := read.popObject RecordHeader | return none
  if tlsHeader2.contentType != .Handshake then throw (.runtimeError "unexpected message")
  let some (_, read) := read.pop tlsHeader2.size | return none
  return some read

def processServerFinished : Prog Client Bool := do
  let c ← get
  let some read ←
    Tcp.Client.ofExcept (readServerFinished c.stream.readTransaction) | return false
  let _ ← onStream (Stream.commit read)
  return true

def processHandshake (env : Env) : Prog Client Unit := do
  let c ← get
  match c.handshakeState with
  | .ServerHello =>
    let done ← processServerHello
    require done ""
    setHandshakeState .ServerCertificate
  | .ServerCertificate => processServerCertificate
  | .ServerKeyExchange =>
    if ← processServerKeyExchange then setHandshakeState .ServerHelloDone
  | .ServerHelloDone =>
    if ← processServerHelloDone then
      sendClientKeyExchangeAndFinished env
      setHandshakeState .ClientFinished
  | .ClientFinished =>
    if ← processServerFinished then setHandshakeState .ServerFinished
  | _ => require false "Unexpected flow"

/-! ## Receiving -/

/-- How one call of `receive` goes on. -/
inductive Next where
  /-- It returns this. -/
  | done (plaintext : Option (List UInt8))
  /-- It calls itself. -/
  | again

/-- The part of `receive` after the handshake, with the first record complete. -/
def receiveRecord (ossl : OpenSsl) (header : RecordHeader) :
    Prog Client (Option (List UInt8)) := do
  let popped ← onStream (Stream.popObject RecordHeader)
  require popped.isSome ""
  require (header.contentType == .ApplicationData) "Expected application data after handshake"
  let some explicitIv ← onStream (Stream.pop kExplicitIvSize) | return none
  modify fun c => { c with ivExplicitIv := explicitIv }
  let some ciphertext ← onStream (Stream.pop (sizeSub header.size kExplicitIvSize))
    | return none
  return some (← decrypt ossl ciphertext)

/-- `Client::receive` up to its recursive call. -/
def receiveOnce (env : Env) : Prog Client Next := do
  let c ← get
  if c.handshakeState == .ClientHelloToSend && c.stream.empty then
    sendClientHello env
    setHandshakeState .ServerHello
    return .done none
  let some header := c.stream.peekObject RecordHeader | return .done none
  require (header.version == kTls12) "wrong protocol"
  let some _ := c.stream.peek (RecordHeader.sizeof + header.size) | return .done none
  if c.handshakeState != .ServerFinished then
    processHandshake env
    let c ← get
    if c.stream.size ≥ RecordHeader.sizeof then return .again
    return .done none
  return .done (← receiveRecord env.ossl header)

/-- `Client::receive` with at most `fuel` nested calls. -/
def receiveFuel (env : Env) :
    Nat → Client → Option (EStateM.Result Error Client (Option (List UInt8)))
  | 0, _ => none
  | fuel + 1, c =>
    match receiveOnce env c with
    | .ok (.done plaintext) c' => some (.ok plaintext c')
    | .ok .again c' => receiveFuel env fuel c'
    | .error e c' => some (.error e c')

/-- `Client::receive`. A call that has not ended when every byte of the stream could have been
consumed never ends. -/
def receive (env : Env) : Prog Client (Option (List UInt8)) := fun c =>
  (receiveFuel env (c.stream.size + 1) c).getD (.error .diverges c)

def processPacket (env : Env) (tcpPacket : Tcp.PacketView) : Prog Client Unit := do
  onTcp (Tcp.Client.processPacket env.dpdk tcpPacket)
  modify fun c => { c with stream := c.stream.shift }
  onStream (Stream.pushBytes tcpPacket.payload)

/-- `Client::push_bytes(const std::string&)`. -/
def pushString (str : List UInt8) : Prog Client Unit := onSendBuffer (Stream.pushString str)

end Client

end WsGateway.Network.Tls12
