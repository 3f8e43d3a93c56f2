import WsGateway.Network.Tcp.Client

/-!
# TLS 1.2 wire structures and the cryptographic library

`network/tls12/model.h`, `messages.h`, `type` and `openssl`. The packed structs
are decoded from bytes where the client reads them and written as byte strings
where it sends them. OpenSSL is outside the repository: `OpenSsl` holds its
functions, and everything is stated for every such `OpenSsl`.
-/

namespace WsGateway.Network.Tls12

open Library

/-! ## Records -/

structure Version where
  major : UInt8
  minor : UInt8
  deriving DecidableEq, Repr

def kTls12 : Version := ⟨3, 3⟩

def kGcmTagSize : Nat := 16

def kExplicitIvSize : Nat := 8

/-- The values of `enum class ContentType` on the wire. -/
abbrev ContentType := UInt8

namespace ContentType

def ChangeCipher : ContentType := 0x14

def Handshake : ContentType := 0x16

def ApplicationData : ContentType := 0x17

end ContentType

structure RecordHeader where
  contentType : ContentType
  version : Version
  size : Nat
  deriving DecidableEq, Repr

namespace RecordHeader

/-- `sizeof(RecordHeader)`. -/
def sizeof : Nat := 5

/-- The packed bytes; the `uint16_t` size keeps its low 16 bits. -/
def bytes (h : RecordHeader) : List UInt8 :=
  [h.contentType, h.version.major, h.version.minor] ++ beBytes 2 h.size

instance : Packed RecordHeader where
  size := sizeof
  decode bs := ⟨bs.getD 0 0, ⟨bs.getD 1 0, bs.getD 2 0⟩, beNat ((bs.drop 3).take 2)⟩

@[simp] theorem packed_size : Packed.size RecordHeader = sizeof := rfl

end RecordHeader

/-! ## Handshake messages -/

/-- The values of `enum class HandshakeType` on the wire. -/
abbrev HandshakeType := UInt8

namespace HandshakeType

def ClientHello : HandshakeType := 0x01

def Certificate : HandshakeType := 0x0B

def ServerKeyExchange : HandshakeType := 0x0C

def ServerHelloDone : HandshakeType := 0x0E

def ClientKeyExchange : HandshakeType := 0x10

def Finished : HandshakeType := 0x14

end HandshakeType

/-- `CipherSuite::ECDHE_RSA_WITH_AES_128_GCM_SHA256`. -/
def kCipherSuite : Nat := 0xC02F

/-- `Group::Curve25519`. -/
def kCurve25519 : Nat := 0x1D

/-- `CurveType::NamedCurve`. -/
def kNamedCurve : UInt8 := 0x03

structure HandshakeHeader where
  handshakeType : HandshakeType
  size : Nat
  deriving DecidableEq, Repr

namespace HandshakeHeader

/-- The packed bytes; the 24-bit size is stored most significant byte first. -/
def bytes (h : HandshakeHeader) : List UInt8 := [h.handshakeType] ++ beBytes 3 h.size

instance : Packed HandshakeHeader where
  size := 4
  decode bs := ⟨bs.getD 0 0, beNat ((bs.drop 1).take 3)⟩

end HandshakeHeader

structure ServerHelloMessage where
  handshakeType : UInt8
  size : Nat
  version : Version
  serverRandom : Vector UInt8 32
  sessionIdSize : UInt8

instance : Packed ServerHelloMessage where
  size := 39
  decode bs :=
    { handshakeType := bs.getD 0 0
      size := beNat ((bs.drop 1).take 3)
      version := ⟨bs.getD 4 0, bs.getD 5 0⟩
      serverRandom := Vector.ofFn fun i => bs.getD (6 + i) 0
      sessionIdSize := bs.getD 38 0 }

structure ServerHelloCipherAndCompression where
  cipherSuite : Nat
  compressionMethod : UInt8
  extensionsSize : Nat

instance : Packed ServerHelloCipherAndCompression where
  size := 5
  decode bs :=
    { cipherSuite := beNat (bs.take 2)
      compressionMethod := bs.getD 2 0
      extensionsSize := beNat ((bs.drop 3).take 2) }

structure ServerKeyExchangeECDHE where
  curveType : UInt8
  namedCurve : Nat
  pubkeySize : UInt8

instance : Packed ServerKeyExchangeECDHE where
  size := 4
  decode bs :=
    { curveType := bs.getD 0 0
      namedCurve := beNat ((bs.drop 1).take 2)
      pubkeySize := bs.getD 3 0 }

structure SignatureAlgorithmAndLength where
  signatureAlgorithm : Nat
  signatureSize : Nat

instance : Packed SignatureAlgorithmAndLength where
  size := 4
  decode bs :=
    { signatureAlgorithm := beNat (bs.take 2)
      signatureSize := beNat ((bs.drop 2).take 2) }

/-! ## Outgoing messages -/

/-- `make_sni_extensions`, the extension up to the host name. -/
def makeSniExtensions (sniSize : Nat) : List UInt8 :=
  beBytes 2 0x0000 ++ beBytes 2 (9 - 4 + sniSize) ++ beBytes 2 (9 - 4 + sniSize - 2) ++ [0] ++
    beBytes 2 sniSize

def kCurve25519GroupExtension : List UInt8 :=
  beBytes 2 0x000A ++ beBytes 2 (8 - 4) ++ beBytes 2 2 ++ beBytes 2 kCurve25519

def kExtendedMasterSecretExtension : List UInt8 := beBytes 2 0x0017 ++ beBytes 2 0

def kRenegotiationExtension : List UInt8 := beBytes 2 0xFF01 ++ beBytes 2 (5 - 4) ++ [0]

/-- `kSHA256RSAExtension`; its `size` member is left at its default, zero. -/
def kSHA256RSAExtension : List UInt8 :=
  beBytes 2 0x000D ++ beBytes 2 (8 - 4) ++ beBytes 2 0 ++ [0x04, 0x01]

/-- The elements of the tuple `kDefaultExtensions`. -/
def kDefaultExtensions : List (List UInt8) :=
  [kCurve25519GroupExtension, kExtendedMasterSecretExtension, kRenegotiationExtension,
    kSHA256RSAExtension]

/-- `sizeof(ClientHelloMessage)`. -/
def kClientHelloMessageSize : Nat := 52

/-- The ClientHello that `send_client_hello` leaves in the packet, with the extensions of the tuple
in the order `extensions`. The sizes keep the low bits of their fields. -/
def clientHelloBytes (extensions : List (List UInt8)) (clientRandom : Vector UInt8 32)
    (sniHostname : List UInt8) : List UInt8 :=
  let exts := makeSniExtensions sniHostname.length ++ sniHostname ++ extensions.flatten
  let tlsSize := (kClientHelloMessageSize + exts.length - RecordHeader.sizeof) % 2 ^ 16
  RecordHeader.bytes ⟨.Handshake, kTls12, tlsSize⟩ ++
    HandshakeHeader.bytes ⟨.ClientHello, sizeSub tlsSize 4⟩ ++ [3, 3] ++ clientRandom.toList ++
    [0] ++ beBytes 2 2 ++ beBytes 2 kCipherSuite ++ [1, 0] ++ beBytes 2 exts.length ++ exts

def X25519KeySize : Nat := 32

/-- `kX25519KeyExchangeMessage` with the client's public key filled in. -/
def x25519KeyExchangeMessage (clientEphPub : Vector UInt8 32) : List UInt8 :=
  RecordHeader.bytes ⟨.Handshake, kTls12, 4 + 1 + X25519KeySize⟩ ++
    HandshakeHeader.bytes ⟨.ClientKeyExchange, 1 + X25519KeySize⟩ ++
    [UInt8.ofNat X25519KeySize] ++ clientEphPub.toList

def kChangeCipherSpecRecord : List UInt8 :=
  RecordHeader.bytes ⟨.ChangeCipher, kTls12, 1⟩ ++ [1]

/-- `kFinishedHandshakeMessage` with the verify data filled in. -/
def finishedHandshakeMessage (verifyData : Vector UInt8 12) : List UInt8 :=
  HandshakeHeader.bytes ⟨.Finished, 16 - 4⟩ ++ verifyData.toList

/-- The bytes of `AdditionalAuthData`. -/
def additionalAuthData (sequenceNumber : UInt64) (contentType : ContentType) (size : Nat) :
    List UInt8 :=
  beBytes 8 sequenceNumber.toNat ++ [contentType, kTls12.major, kTls12.minor] ++ beBytes 2 size

/-! ## OpenSSL -/

abbrev AES128Key := Vector UInt8 16

abbrev MessageIV := Vector UInt8 4

/-- OpenSSL, as the repository uses it. -/
structure OpenSsl where
  /-- `RAND_bytes` for 32 bytes, the `k`-th time. -/
  randBytes : Nat → Option (Vector UInt8 32)
  /-- The private key of `generate_x25519_key`, the `k`-th time. -/
  generateX25519Key : Nat → Option (Vector UInt8 32)
  /-- `EVP_PKEY_get_raw_public_key`. -/
  rawPublicKey : Vector UInt8 32 → Vector UInt8 32
  /-- `EVP_PKEY_derive`, which refuses some peer keys. -/
  derive : Vector UInt8 32 → List UInt8 → Option (Vector UInt8 32)
  /-- `EVP_sha256` of everything hashed so far. -/
  sha256 : List UInt8 → Vector UInt8 32
  /-- The TLS 1.2 PRF with SHA-256: secret, label, seed and the length wanted. -/
  prf : List UInt8 → String → List UInt8 → (n : Nat) → Vector UInt8 n
  /-- Byte `i` of the AES-128-GCM key stream for a key and a nonce. -/
  gcmKeystream : AES128Key → List UInt8 → Nat → UInt8
  /-- The AES-128-GCM tag for a key, a nonce, additional data and a ciphertext. -/
  gcmTag : AES128Key → List UInt8 → List UInt8 → List UInt8 → Vector UInt8 16

/-- `EncryptContext`: the key of an `EVP_CIPHER_CTX` and what it has processed since the nonce
was set; `nonces` records, for the proofs, every nonce it was given. -/
structure EncryptContext where
  key : AES128Key
  nonce : List UInt8 := []
  aad : List UInt8 := []
  ciphertext : List UInt8 := []
  nonces : List (List UInt8) := []

/-- The calls of `encrypt` on its context. Each of them reports an error by its result. -/
inductive EvpCall where
  | init
  | updateAad
  | update
  | finalEx
  | appendGcmTag
  deriving DecidableEq, Repr

namespace EncryptContext

/-- `EVP_EncryptInit_ex` or `EVP_DecryptInit_ex` with a nonce only. -/
def init (ctx : EncryptContext) (nonce : List UInt8) : EncryptContext :=
  { key := ctx.key, nonce := nonce, nonces := ctx.nonces ++ [nonce] }

/-- An update without output buffer adds additional data. -/
def updateAad (ctx : EncryptContext) (bytes : List UInt8) : EncryptContext :=
  { ctx with aad := ctx.aad ++ bytes }

/-- Counter mode from the current position on, the same for both directions. -/
def applyKeystream (ossl : OpenSsl) (ctx : EncryptContext) (bytes : List UInt8) : List UInt8 :=
  bytes.mapIdx fun i b => b ^^^ ossl.gcmKeystream ctx.key ctx.nonce (ctx.ciphertext.length + i)

/-- `EVP_EncryptUpdate` with an output buffer. -/
def encryptUpdate (ossl : OpenSsl) (ctx : EncryptContext) (bytes : List UInt8) :
    List UInt8 × EncryptContext :=
  let out := ctx.applyKeystream ossl bytes
  (out, { ctx with ciphertext := ctx.ciphertext ++ out })

/-- `EVP_DecryptUpdate` with an output buffer. -/
def decryptUpdate (ossl : OpenSsl) (ctx : EncryptContext) (bytes : List UInt8) :
    List UInt8 × EncryptContext :=
  (ctx.applyKeystream ossl bytes, { ctx with ciphertext := ctx.ciphertext ++ bytes })

/-- `EVP_CTRL_GCM_GET_TAG`. -/
def tag (ossl : OpenSsl) (ctx : EncryptContext) : Vector UInt8 16 :=
  ossl.gcmTag ctx.key ctx.nonce ctx.aad ctx.ciphertext

@[simp] theorem length_applyKeystream (ossl : OpenSsl) (ctx : EncryptContext)
    (bytes : List UInt8) : (ctx.applyKeystream ossl bytes).length = bytes.length := by
  simp [applyKeystream]

end EncryptContext

end WsGateway.Network.Tls12
