import WsGateway.Library.Vectors
import WsGateway.Verify.Tcp.Frame
import WsGateway.Verify.Tls12.ClientHello
import WsGateway.Verify.Tls12.Segmentation
import WsGateway.Verify.Tls12.Termination

/-!
# The handshake transcript

The server's first flight is four records with one message each. `Before` is where
the client stands after some of them: its state, and the transcript it has hashed.
Each step takes one record and adds its message to the transcript; the last one also
derives the keys and sends the client's flight. The run over any segmentation of
the records follows from the steps, as a part of a record changes nothing.
-/

namespace WsGateway.Network.Tls12

open Library

/-! ## The server's messages -/

structure ServerHello where
  serverRandom : Vector UInt8 32
  sessionId : List UInt8
  extensions : List UInt8
  sessionId_le : sessionId.length ≤ 32
  fits : 44 + sessionId.length + extensions.length < 2 ^ 16

/-- The fixed part of the message. -/
def ServerHello.start (m : ServerHello) : List UInt8 :=
  [2] ++ beBytes 3 (40 + m.sessionId.length + m.extensions.length) ++ [3, 3] ++
    m.serverRandom.toList ++ [UInt8.ofNat m.sessionId.length]

/-- The cipher suite, the compression method and the length of the extensions. -/
def ServerHello.choice (m : ServerHello) : List UInt8 :=
  beBytes 2 kCipherSuite ++ [0] ++ beBytes 2 m.extensions.length

def ServerHello.bytes (m : ServerHello) : List UInt8 :=
  m.start ++ (m.sessionId ++ (m.choice ++ m.extensions))

/-- A message of which the client reads nothing but the header. -/
def handshakeMessage (handshakeType : HandshakeType) (body : List UInt8) : List UInt8 :=
  HandshakeHeader.bytes ⟨handshakeType, body.length⟩ ++ body

/-- An X25519 key exchange with the signature the client does not check. -/
structure ServerKeyExchange where
  publicKey : Vector UInt8 32
  signatureAlgorithm : Nat
  signature : List UInt8
  fits : 44 + signature.length < 2 ^ 16

/-- The parameters before the public key. -/
def ecdheParams : List UInt8 := [kNamedCurve] ++ beBytes 2 kCurve25519 ++ [32]

/-- The algorithm and the length of the signature. -/
def ServerKeyExchange.sigInfo (m : ServerKeyExchange) : List UInt8 :=
  beBytes 2 m.signatureAlgorithm ++ beBytes 2 m.signature.length

def ServerKeyExchange.bytes (m : ServerKeyExchange) : List UInt8 :=
  HandshakeHeader.bytes ⟨.ServerKeyExchange, 40 + m.signature.length⟩ ++
    (ecdheParams ++ (m.publicKey.toList ++ (m.sigInfo ++ m.signature)))

/-- The four messages of the server's flight. -/
structure Flight where
  serverHello : ServerHello
  certificate : List UInt8
  certificate_fits : 4 + certificate.length < 2 ^ 16
  serverKeyExchange : ServerKeyExchange
  serverHelloDone : List UInt8
  serverHelloDone_fits : 4 + serverHelloDone.length < 2 ^ 16

namespace Flight

def messages (F : Flight) : List (List UInt8) :=
  [F.serverHello.bytes, handshakeMessage .Certificate F.certificate, F.serverKeyExchange.bytes,
    handshakeMessage .ServerHelloDone F.serverHelloDone]

def records (F : Flight) : List (List UInt8) := F.messages.map (recordBytes .Handshake)

end Flight

/-! ## Reading through a transaction -/

section Transactions

variable {t : Stream.ReadTransaction} {a b : List UInt8}

theorem pop_append (h : t.rest = a ++ b) : t.pop a.length = some (a, t.skip a.length) ∧
    (t.skip a.length).rest = b := by
  constructor
  · rw [Stream.ReadTransaction.pop_of_le (by rw [h]; simp), h, List.take_left]
  · rw [Stream.ReadTransaction.rest_skip, h, List.drop_left]

theorem popObject_append (α : Type) [Packed α] (h : t.rest = a ++ b)
    (ha : a.length = Packed.size α) :
    t.popObject α = some (Packed.decode a, t.skip a.length) := by
  rw [Stream.ReadTransaction.popObject_of_le α (by rw [h, ← ha]; simp), h, ← ha, List.take_left]

/-- A vector inside a byte string is read back byte by byte. -/
theorem vector_getD {n k : Nat} {v : Vector UInt8 n} (ha : a.length = k) :
    (Vector.ofFn fun i : Fin n => (a ++ (v.toList ++ b)).getD (k + i) 0) = v := by
  refine Vector.ext fun i hi => ?_
  rw [Vector.getElem_ofFn, List.getD_eq_getElem?_getD, List.getElem?_append_right (by omega)]
  rw [List.getElem?_append_left (by simp; omega)]
  simp [ha, hi]

end Transactions

theorem length_start (m : ServerHello) : m.start.length = 39 := by
  simp [ServerHello.start]

/-- The fixed part of a ServerHello is read back. -/
theorem decode_start (m : ServerHello) :
    (Packed.decode m.start : ServerHelloMessage).serverRandom = m.serverRandom ∧
      (Packed.decode m.start : ServerHelloMessage).sessionIdSize.toNat = m.sessionId.length := by
  have hle := m.sessionId_le
  have happ : m.start = ([2] ++ beBytes 3 (40 + m.sessionId.length + m.extensions.length) ++
      [3, 3]) ++ (m.serverRandom.toList ++ [UInt8.ofNat m.sessionId.length]) := by
    simp [ServerHello.start]
  constructor
  · change (Vector.ofFn fun i : Fin 32 => m.start.getD (6 + i) 0) = _
    rw [happ]
    exact vector_getD (by simp)
  · change (m.start.getD 38 0).toNat = _
    rw [happ, List.getD_append_right _ _ _ _ (by simp), List.getD_append_right _ _ _ _ (by simp)]
    simp
    omega

theorem readServerHello_bytes {t : Stream.ReadTransaction} {m : ServerHello} {b : List UInt8}
    (h : t.rest = m.bytes ++ b) :
    ∃ hello, Client.readServerHello t = .ok (some hello) ∧ hello.serverRandom = m.serverRandom := by
  obtain ⟨hrandom, hsize⟩ := decode_start m
  rw [ServerHello.bytes, List.append_assoc] at h
  have hstart := popObject_append ServerHelloMessage h (length_start m)
  have hrest := (pop_append h).2
  rw [List.append_assoc] at hrest
  obtain ⟨hsession, hrest'⟩ := pop_append hrest
  rw [List.append_assoc] at hrest'
  have hchoice := popObject_append ServerHelloCipherAndCompression hrest'
    (by simp [ServerHello.choice]; rfl)
  have hcipher : (Packed.decode m.choice : ServerHelloCipherAndCompression).cipherSuite =
      kCipherSuite := by
    change beNat ((beBytes 2 kCipherSuite ++ [0] ++ beBytes 2 m.extensions.length).take 2) = _
    rw [List.append_assoc, List.take_left' (by simp)]
    exact beNat_beBytes_of_lt (by decide)
  have hcompression : (Packed.decode m.choice :
      ServerHelloCipherAndCompression).compressionMethod = 0 := rfl
  refine ⟨_, ?_, hrandom⟩
  rw [Client.readServerHello, hstart]
  dsimp only
  rw [hsize, hsession]
  dsimp only
  rw [hchoice]
  dsimp only
  rw [hcipher, hcompression]
  rfl

theorem decode_handshakeHeader {handshakeType : HandshakeType} {size : Nat} (h : size < 2 ^ 24) :
    (Packed.decode (HandshakeHeader.bytes ⟨handshakeType, size⟩) : HandshakeHeader) =
      ⟨handshakeType, size⟩ := by
  change HandshakeHeader.mk _ (beNat ((beBytes 3 size).take 3)) = _
  rw [List.take_of_length_le (by simp), beNat_beBytes_of_lt (by omega)]
  rfl

theorem length_handshakeHeader (h : HandshakeHeader) : h.bytes.length = 4 := by
  simp [HandshakeHeader.bytes]

/-- A ServerHelloDone is read to its end. -/
theorem readServerHelloDone_bytes {t : Stream.ReadTransaction} {body b : List UInt8}
    (hfits : 4 + body.length < 2 ^ 16) (h : t.rest = handshakeMessage .ServerHelloDone body ++ b) :
    Client.readServerHelloDone t =
      .ok (some (t.skip (handshakeMessage .ServerHelloDone body).length)) := by
  rw [handshakeMessage, List.append_assoc] at h
  have hheader := popObject_append HandshakeHeader h (length_handshakeHeader _)
  obtain ⟨hbody, -⟩ := pop_append (pop_append h).2
  rw [decode_handshakeHeader (by omega)] at hheader
  rw [Client.readServerHelloDone, hheader]
  dsimp only
  rw [hbody, handshakeMessage, List.length_append]
  simp [Stream.ReadTransaction.skip, Nat.add_assoc]
  rfl

/-- A key exchange is read to its end. -/
theorem readServerKeyExchange_bytes {t : Stream.ReadTransaction} {m : ServerKeyExchange}
    {b : List UInt8} (h : t.rest = m.bytes ++ b) :
    Client.readServerKeyExchange t =
      .ok (some (m.publicKey.toList, t.skip m.bytes.length)) := by
  have hfits := m.fits
  rw [ServerKeyExchange.bytes, List.append_assoc] at h
  have hheader := popObject_append HandshakeHeader h (length_handshakeHeader _)
  rw [decode_handshakeHeader (by omega)] at hheader
  have h₁ := (pop_append h).2
  rw [List.append_assoc] at h₁
  have hparams := popObject_append ServerKeyExchangeECDHE h₁ rfl
  have h₂ := (pop_append h₁).2
  rw [List.append_assoc] at h₂
  obtain ⟨hkey, h₃⟩ := pop_append h₂
  rw [List.append_assoc] at h₃
  have hsigInfo := popObject_append SignatureAlgorithmAndLength h₃
    (by simp [ServerKeyExchange.sigInfo]; rfl)
  have hsigSize : (Packed.decode m.sigInfo : SignatureAlgorithmAndLength).signatureSize =
      m.signature.length := by
    change beNat (((beBytes 2 m.signatureAlgorithm ++ beBytes 2 m.signature.length).drop 2).take 2) = _
    rw [List.drop_left' (by simp), List.take_of_length_le (by simp),
      beNat_beBytes_of_lt (by omega)]
  obtain ⟨hsignature, -⟩ := pop_append (pop_append h₃).2
  have hcurve : (Packed.decode ecdheParams : ServerKeyExchangeECDHE).namedCurve = kCurve25519 := by
    decide
  have hkeySize : (Packed.decode ecdheParams : ServerKeyExchangeECDHE).pubkeySize.toNat =
      m.publicKey.toList.length := by
    rw [Vector.length_toList]
    decide
  rw [Client.readServerKeyExchange, hheader]
  dsimp only
  rw [hparams]
  dsimp only
  rw [hcurve, hkeySize, hkey]
  dsimp only
  rw [hsigInfo]
  dsimp only
  rw [hsigSize, hsignature]
  simp [ServerKeyExchange.bytes, Stream.ReadTransaction.skip, Nat.add_assoc]
  rfl

namespace Client

/-! ## One record each -/

section Steps

variable {env : Env} {c : Client} {contentType : ContentType} {message t : List UInt8}

theorem content_afterHeader (hs : c.stream.content = recordBytes contentType message ++ t)
    (h : RecordHeader.sizeof ≤ c.stream.size) : (c.afterHeader h).stream.content = message ++ t := by
  change (c.stream.advance RecordHeader.sizeof h).content = _
  rw [Stream.content_advance, hs, recordBytes, List.append_assoc]
  exact List.drop_left' (by rfl)

/-- The record header is popped, and the message stands at the front. -/
theorem popHeader_record (hlt : message.length < 2 ^ 16)
    (hs : c.stream.content = recordBytes contentType message ++ t) :
    ∃ s, s.content = message ++ t ∧ onStream (Stream.popObject RecordHeader) c =
      .ok (some ⟨contentType, kTls12, message.length⟩) { c with stream := s } := by
  have hrec := holdsRecord_recordBytes hlt hs
  refine ⟨_, content_afterHeader hs hrec.header, ?_⟩
  rw [onStream_popObject_record hrec.header, firstRecord_recordBytes hlt hs]
  rfl

/-- The message is popped. -/
theorem pop_message {s : Stream} (hs : s.content = message ++ t) :
    ∃ s', s'.content = t ∧ Stream.pop message.length s = .ok (some message) s' := by
  have hle : message.length ≤ s.size := by
    rw [← Stream.length_content, hs, List.length_append]
    omega
  refine ⟨s.advance _ hle, ?_, ?_⟩
  · rw [Stream.content_advance, hs, List.drop_left]
  · rw [s.pop_of_le hle, hs, List.take_left]

theorem commit_message {s : Stream} (hs : s.content = message ++ t) :
    ∃ s', s'.content = t ∧
      Stream.commit (s.readTransaction.skip message.length) s = .ok message s' := by
  obtain ⟨s', hs', hpop⟩ := pop_message hs
  have hread : (s.readTransaction.skip message.length).readIt = message.length := by simp
  refine ⟨s', hs', ?_⟩
  rw [Stream.commit, hread, bind_of_ok hpop]
  rfl

/-- A ServerHello step is decided by what its transaction reads behind the record header; the
record is popped as a whole. -/
theorem serverHello_eq (env : Env) (hlt : message.length < 2 ^ 16)
    (hstate : c.handshakeState = .ServerHello)
    (hs : c.stream.content = recordBytes contentType message ++ t) :
    ∃ s₁ s₂ : Stream, s₁.content = message ++ t ∧ s₂.content = t ∧ processHandshake env c =
      match readServerHello s₁.readTransaction with
      | .error e => .error e { c with stream := s₁ }
      | .ok none => .error (.runtimeError "") { c with stream := s₁ }
      | .ok (some hello) => .ok () { c with
          stream := s₂
          handshakeHash := c.handshakeHash ++ message
          serverRandom := hello.serverRandom
          handshakeState := .ServerCertificate } := by
  obtain ⟨s₁, hs₁, hheader⟩ := popHeader_record hlt hs
  obtain ⟨s₂, hs₂, hpop⟩ := pop_message hs₁
  have hpeek : s₁.peek message.length = some message := by
    rw [s₁.peek_of_le (by rw [← Stream.length_content, hs₁]; simp), hs₁, List.take_left]
  refine ⟨s₁, s₂, hs₁, hs₂, ?_⟩
  have hstep : processHandshake env c =
      (processServerHello >>= fun done => require done "" >>= fun _ =>
        setHandshakeState .ServerCertificate) c := by
    rw [processHandshake, bind_of_ok (get_apply c), hstate]
  rw [hstep, processServerHello, bind_assoc, bind_of_ok hheader]
  dsimp only
  rw [bind_assoc, bind_of_ok (get_apply _), hpeek]
  dsimp only
  rw [bind_assoc]
  cases hread : readServerHello s₁.readTransaction with
  | error e => rfl
  | ok hello =>
    rw [Tcp.Client.ofExcept, bind_of_ok (pure_apply _ _)]
    cases hello with
    | none => rfl
    | some hello =>
      dsimp only
      rw [bind_assoc, bind_of_ok (onStream_of_ok hpop)]
      rfl

/-- The header of the certificate is looked for behind the record header. -/
theorem certificate_eq (env : Env) (hlt : message.length < 2 ^ 16)
    (hstate : c.handshakeState = .ServerCertificate)
    (hs : c.stream.content = recordBytes contentType message ++ t) :
    ∃ s₁ s₂ : Stream, s₁.content = message ++ t ∧ s₂.content = t ∧ processHandshake env c =
      match s₁.peekObject HandshakeHeader with
      | none => .ok () { c with stream := s₁ }
      | some header =>
        if header.handshakeType = .Certificate then .ok () { c with
          stream := s₂
          handshakeHash := c.handshakeHash ++ message
          handshakeState := .ServerKeyExchange }
        else .error (.runtimeError "") { c with stream := s₁ } := by
  obtain ⟨s₁, hs₁, hheader⟩ := popHeader_record hlt hs
  obtain ⟨s₂, hs₂, hpop⟩ := pop_message hs₁
  refine ⟨s₁, s₂, hs₁, hs₂, ?_⟩
  have hstep : processHandshake env c = processServerCertificate c := by
    rw [processHandshake, bind_of_ok (get_apply c), hstate]
  rw [hstep, processServerCertificate, bind_of_ok hheader]
  dsimp only
  rw [bind_of_ok (get_apply _)]
  cases s₁.peekObject HandshakeHeader with
  | none => rfl
  | some header =>
    dsimp only
    rw [require_bind]
    by_cases htype : header.handshakeType = .Certificate
    · rw [if_pos htype, if_pos (by simp [htype]), bind_of_ok (onStream_of_ok hpop)]
      rfl
    · rw [if_neg htype, if_neg (by simp [htype])]

theorem serverKeyExchange_eq (env : Env) (hlt : message.length < 2 ^ 16)
    (hstate : c.handshakeState = .ServerKeyExchange)
    (hs : c.stream.content = recordBytes contentType message ++ t) :
    ∃ s₁ : Stream, s₁.content = message ++ t ∧ processHandshake env c =
      match readServerKeyExchange s₁.readTransaction with
      | .error e => .error e { c with stream := s₁ }
      | .ok none => .ok () { c with stream := s₁ }
      | .ok (some (pubkey, read)) =>
        (onStream (Stream.commit read) >>= fun bytes => hashUpdate bytes >>= fun _ =>
          setHandshakeState .ServerHelloDone) { c with
            stream := s₁
            serverEphPubkey := pubkey ++ c.serverEphPubkey.drop pubkey.length } := by
  obtain ⟨s₁, hs₁, hheader⟩ := popHeader_record hlt hs
  refine ⟨s₁, hs₁, ?_⟩
  have hstep : processHandshake env c =
      (processServerKeyExchange >>= fun done =>
        if done then setHandshakeState .ServerHelloDone else pure ()) c := by
    rw [processHandshake, bind_of_ok (get_apply c), hstate]
  rw [hstep, processServerKeyExchange, bind_assoc, bind_of_ok hheader]
  dsimp only
  rw [bind_assoc, bind_of_ok (get_apply _), bind_assoc]
  cases readServerKeyExchange s₁.readTransaction with
  | error e => rfl
  | ok parsed =>
    rw [Tcp.Client.ofExcept, bind_of_ok (pure_apply _ _)]
    cases parsed with
    | none => rfl
    | some parsed =>
      dsimp only
      rw [bind_assoc, bind_of_ok (modify_apply _ _)]
      simp only [bind_assoc, pure_bind]
      rfl

theorem serverHelloDone_eq (env : Env) (hlt : message.length < 2 ^ 16)
    (hstate : c.handshakeState = .ServerHelloDone)
    (hs : c.stream.content = recordBytes contentType message ++ t) :
    ∃ s₁ : Stream, s₁.content = message ++ t ∧ processHandshake env c =
      match readServerHelloDone s₁.readTransaction with
      | .error e => .error e { c with stream := s₁ }
      | .ok none => .ok () { c with stream := s₁ }
      | .ok (some read) =>
        (onStream (Stream.commit read) >>= fun bytes => hashUpdate bytes >>= fun _ =>
          sendClientKeyExchangeAndFinished env >>= fun _ =>
            setHandshakeState .ClientFinished) { c with stream := s₁ } := by
  obtain ⟨s₁, hs₁, hheader⟩ := popHeader_record hlt hs
  refine ⟨s₁, hs₁, ?_⟩
  have hstep : processHandshake env c =
      (processServerHelloDone >>= fun done => if done then
        (sendClientKeyExchangeAndFinished env >>= fun _ => setHandshakeState .ClientFinished)
          else pure ()) c := by
    rw [processHandshake, bind_of_ok (get_apply c), hstate]
  rw [hstep, processServerHelloDone, bind_assoc, bind_of_ok hheader]
  dsimp only
  rw [bind_assoc, bind_of_ok (get_apply _), bind_assoc]
  cases readServerHelloDone s₁.readTransaction with
  | error e => rfl
  | ok read =>
    rw [Tcp.Client.ofExcept, bind_of_ok (pure_apply _ _)]
    cases read with
    | none => rfl
    | some read =>
      dsimp only
      simp only [bind_assoc, pure_bind]
      rfl

theorem serverHello_step {m : ServerHello} (hstate : c.handshakeState = .ServerHello)
    (hs : c.stream.content = recordBytes .Handshake m.bytes ++ t) :
    ∃ s, s.content = t ∧ processHandshake env c = .ok () { c with
      stream := s
      handshakeHash := c.handshakeHash ++ m.bytes
      serverRandom := m.serverRandom
      handshakeState := .ServerCertificate } := by
  have hlt : m.bytes.length < 2 ^ 16 := by
    have hfits := m.fits
    simp [ServerHello.bytes, length_start, ServerHello.choice]
    omega
  obtain ⟨s₁, s₂, hs₁, hs₂, hstep⟩ := serverHello_eq env hlt hstate hs
  obtain ⟨hello, hread, hrandom⟩ := readServerHello_bytes (t := s₁.readTransaction) hs₁
  refine ⟨s₂, hs₂, ?_⟩
  rw [hstep, hread]
  dsimp only
  rw [hrandom]

theorem certificate_step {body : List UInt8} (hfits : 4 + body.length < 2 ^ 16)
    (hstate : c.handshakeState = .ServerCertificate)
    (hs : c.stream.content = recordBytes .Handshake (handshakeMessage .Certificate body) ++ t) :
    ∃ s, s.content = t ∧ processHandshake env c = .ok () { c with
      stream := s
      handshakeHash := c.handshakeHash ++ handshakeMessage .Certificate body
      handshakeState := .ServerKeyExchange } := by
  have hlen : (handshakeMessage .Certificate body).length = 4 + body.length := by
    simp [handshakeMessage, length_handshakeHeader]
  obtain ⟨s₁, s₂, hs₁, hs₂, hstep⟩ := certificate_eq env (by omega) hstate hs
  have hpeek : s₁.peekObject HandshakeHeader = some ⟨.Certificate, body.length⟩ := by
    have hsize : Packed.size HandshakeHeader ≤ s₁.size := by
      rw [← Stream.length_content, hs₁, List.length_append, hlen]
      change 4 ≤ _
      omega
    rw [s₁.peekObject_of_le HandshakeHeader hsize, hs₁, handshakeMessage, List.append_assoc,
      List.take_left' (show _ = Packed.size HandshakeHeader from length_handshakeHeader _),
      decode_handshakeHeader (by omega)]
  refine ⟨s₂, hs₂, ?_⟩
  rw [hstep, hpeek]
  dsimp only
  rw [if_pos rfl]

theorem serverKeyExchange_step {m : ServerKeyExchange}
    (hstate : c.handshakeState = .ServerKeyExchange)
    (hs : c.stream.content = recordBytes .Handshake m.bytes ++ t) :
    ∃ s, s.content = t ∧ processHandshake env c = .ok () { c with
      stream := s
      handshakeHash := c.handshakeHash ++ m.bytes
      serverEphPubkey := m.publicKey.toList ++ c.serverEphPubkey.drop 32
      handshakeState := .ServerHelloDone } := by
  have hlt : m.bytes.length < 2 ^ 16 := by
    have hfits := m.fits
    simp [ServerKeyExchange.bytes, length_handshakeHeader, ecdheParams, ServerKeyExchange.sigInfo]
    omega
  obtain ⟨s₁, hs₁, hstep⟩ := serverKeyExchange_eq env hlt hstate hs
  have hread := readServerKeyExchange_bytes (t := s₁.readTransaction) hs₁
  obtain ⟨s₂, hs₂, hcommit⟩ := commit_message hs₁
  refine ⟨s₂, hs₂, ?_⟩
  rw [hstep, hread]
  dsimp only
  rw [bind_of_ok (onStream_of_ok hcommit), Vector.length_toList]
  rfl

end Steps

/-! ## The client's flight -/

/-- The ClientKeyExchange message. -/
def keyExchange (ossl : OpenSsl) (key : Vector UInt8 32) : List UInt8 :=
  (x25519KeyExchangeMessage (ossl.rawPublicKey key)).drop RecordHeader.sizeof

/-- The extended master secret of a transcript. -/
def masterSecretOf (ossl : OpenSsl) (secret : Vector UInt8 32) (transcript : List UInt8) :
    Vector UInt8 48 :=
  ossl.prf secret.toList "extended master secret" (ossl.sha256 transcript).toList 48

/-- The client's verify data of a transcript. -/
def verifyDataOf (ossl : OpenSsl) (masterSecret : Vector UInt8 48) (transcript : List UInt8) :
    Vector UInt8 12 :=
  ossl.prf masterSecret.toList "client finished" (ossl.sha256 transcript).toList 12

/-- The encrypted Finished message. -/
def sealedFinished (ossl : OpenSsl) (keys : Keys) (seq : UInt64) (verifyData : Vector UInt8 12) :
    List UInt8 :=
  gcmSeal ossl keys.clientWriteKey (keys.clientWriteIv.toList ++ beBytes 8 seq.toNat)
    (additionalAuthData seq .Handshake 16) (finishedHandshakeMessage verifyData)

theorem length_sealedFinished (ossl : OpenSsl) (keys : Keys) (seq : UInt64)
    (verifyData : Vector UInt8 12) : (sealedFinished ossl keys seq verifyData).length = 32 := by
  simp [sealedFinished, gcmSeal, finishedHandshakeMessage, HandshakeHeader.bytes]

theorem sealed_eq (ossl : OpenSsl) (keys : Keys) (seq : UInt64) (verifyData : Vector UInt8 12) :
    gcmSeal ossl keys.clientWriteKey (keys.clientWriteIv.toList ++ beBytes 8 seq.toNat)
        (additionalAuthData seq .Handshake (finishedHandshakeMessage verifyData).length)
        (finishedHandshakeMessage verifyData) =
      sealedFinished ossl keys seq verifyData := by
  have hlen : (finishedHandshakeMessage verifyData).length = 16 := by
    simp [finishedHandshakeMessage, HandshakeHeader.bytes]
  rw [sealedFinished, hlen]

/-- ClientKeyExchange, ChangeCipherSpec and Finished in one packet. -/
def flightBytes (ossl : OpenSsl) (key : Vector UInt8 32) (keys : Keys) (seq : UInt64)
    (verifyData : Vector UInt8 12) : List UInt8 :=
  x25519KeyExchangeMessage (ossl.rawPublicKey key) ++ kChangeCipherSpecRecord ++
    (RecordHeader.bytes ⟨.Handshake, kTls12, 40⟩ ++ beBytes 8 seq.toNat ++
      sealedFinished ossl keys seq verifyData)

theorem flightBytes_eq (ossl : OpenSsl) (key : Vector UInt8 32) (keys : Keys) (seq : UInt64)
    (verifyData : Vector UInt8 12) :
    x25519KeyExchangeMessage (ossl.rawPublicKey key) ++ kChangeCipherSpecRecord ++
        RecordHeader.bytes ⟨.Handshake, kTls12, kExplicitIvSize + 32⟩ ++ beBytes 8 seq.toNat ++
          sealedFinished ossl keys seq verifyData = flightBytes ossl key keys seq verifyData := by
  simp only [flightBytes, List.append_assoc]
  rfl

theorem length_flightBytes (ossl : OpenSsl) (key : Vector UInt8 32) (keys : Keys) (seq : UInt64)
    (verifyData : Vector UInt8 12) : (flightBytes ossl key keys seq verifyData).length = 93 := by
  simp [flightBytes, x25519KeyExchangeMessage, kChangeCipherSpecRecord, length_sealedFinished,
    RecordHeader.bytes, HandshakeHeader.bytes]

/-- One packet with this payload was sent. -/
def Sent (env : Env) (t : Tcp.Client) (payload : List UInt8) (t' : Tcp.Client) : Prop :=
  ∃ packet t₁, Tcp.Client.getSendBuffer env.dpdk .PSH_ACK false t = .ok packet t₁ ∧
    Tcp.Client.send env.dpdk ⟨packet.tcp.writePayload payload⟩ payload.length t₁ = .ok () t'

/-- The pool has a buffer with room for a payload of this length, the peer's window has room for
it, and the card takes a packet. -/
structure CanSend (dpdk : Dpdk) (n : Nat) (t : Tcp.Client) : Prop where
  alloc : dpdk.pktmbufAlloc t.sender.allocs ≠ none
  room : Tcp.PacketView.predictSize n false ≤ dpdk.dataRoomSize.toNat
  window : t.unacknowledgedBytes.toNat + n ≤ t.sendWnd.toNat
  burst : dpdk.ethTxBurst t.sender.bursts ≠ 0

theorem CanSend.sends {dpdk : Dpdk} {n : Nat} {t : Tcp.Client} (h : CanSend dpdk n t) :
    ∃ packet t₁, Tcp.Client.getSendBuffer dpdk .PSH_ACK false t = .ok packet t₁ ∧
      n ≤ packet.tcp.payload.size ∧ ∀ payload : List UInt8, payload.length = n →
        ∃ t₂, Tcp.Client.send dpdk ⟨packet.tcp.writePayload payload⟩ payload.length t₁ =
          .ok () t₂ := by
  obtain ⟨mem, hmem⟩ := Option.ne_none_iff_exists'.mp h.alloc
  have hroom : 54 + n ≤ dpdk.dataRoomSize.toNat := by
    have hpredict := Tcp.PacketView.predictSize_eq false (List.replicate n 0)
    have hle := h.room
    simp [Tcp.PacketView.optionBytes] at hpredict
    omega
  obtain ⟨packet, hpacket, hlaid⟩ := Tcp.Client.getSendBuffer_laid t .PSH_ACK false hmem (by omega)
  refine ⟨packet, _, hpacket, ?_, ?_⟩
  · have hoffset := Tcp.PacketView.tcpHeader_dataOffset t.connection .PSH_ACK t.seq t.ack false
    have htotal : (Tcp.PacketView.ipHeader t.connection.session (dpdk.dataRoomSize.toNat - 14)
      t.ipId).totalLength = dpdk.dataRoomSize.toNat - 14 := rfl
    simp [Tcp.PacketView.optionBytes] at hoffset
    rw [hlaid.payload_size (by omega)]
    omega
  · rintro payload rfl
    obtain ⟨d, hsend, -⟩ := Tcp.Client.send_eq_ok ⟨packet.tcp.writePayload payload⟩
      (c := { t with sender := { t.sender with allocs := t.sender.allocs + 1 } }) h.window h.burst
    exact ⟨_, hsend⟩

section Sending

variable {env : Env} {c : Client} {key secret : Vector UInt8 32}

theorem push_of_le {σ : Type} {ws : WriteStream} {n : Nat} {s : σ} (h : ws.writeIt + n ≤ ws.size) :
    Tcp.Client.ofExcept (ws.push n) s = .ok { ws with writeIt := ws.writeIt + n } s := by
  rw [WriteStream.push, if_pos h]
  rfl

theorem encrypt_of_some {ossl : OpenSsl} {ctx : EncryptContext} {view : List UInt8}
    {contentType : ContentType} (hctx : c.encCtx = some ctx) :
    ∃ ctx', encrypt none ossl view contentType c =
      .ok (gcmSeal ossl ctx.key (nextNonce c)
        (additionalAuthData c.writeSequenceNumber contentType view.length) view)
      { c with
        encCtx := some ctx'
        writeSequenceNumber := c.writeSequenceNumber + 1 } := by
  have hends := encrypt_ends none ossl view contentType hctx
  cases hencrypt : encrypt none ossl view contentType c with
  | error e d => exact absurd rfl (hends.error hencrypt).1
  | ok encrypted d =>
    obtain ⟨-, ctx', -, haad, rfl, rfl⟩ := hends.ok hencrypt
    exact ⟨ctx', by rw [haad]⟩

/-- The keys of `deriveKeys`. -/
def keysOf (ossl : OpenSsl) (masterSecret : Vector UInt8 48) (c : Client) : Keys :=
  keysOfBlock (ossl.prf masterSecret.toList "key expansion"
    (c.serverRandom.toList ++ c.clientRandom.toList) 40)

/-- The client when its keys are derived. -/
def derived (ossl : OpenSsl) (secret : Vector UInt8 32) (transcript : List UInt8)
    (t : Tcp.Client) (c : Client) : Client :=
  let master := masterSecretOf ossl secret transcript
  let keys := keysOf ossl master c
  { c with
    tcp := t
    drawn := c.drawn + 1
    keyExchanges := c.keyExchanges + 1
    handshakeHash := transcript
    masterSecret := master
    keys := keys
    encCtx := some { key := keys.clientWriteKey }
    decCtx := some { key := keys.serverWriteKey }
    ivServerWriteIv := keys.serverWriteIv }

/-- `send_client_key_exchange_and_finished` hashes its own message, derives the secrets from the
transcript and sends one packet. -/
theorem sendClientKeyExchangeAndFinished_ok (hcan : CanSend env.dpdk 93 c.tcp)
    (hkey : env.ossl.generateX25519Key c.drawn = some key)
    (hsecret : env.ossl.derive key (c.serverEphPubkey.take 32) = some secret) :
    let transcript := c.handshakeHash ++ keyExchange env.ossl key
    let master := masterSecretOf env.ossl secret transcript
    ∃ c', sendClientKeyExchangeAndFinished env c = .ok () c' ∧ c'.stream = c.stream ∧
      c'.handshakeState = c.handshakeState ∧ c'.handshakeHash = transcript ∧
      c'.masterSecret = master ∧
      Sent env c.tcp (flightBytes env.ossl key (keysOf env.ossl master c) c.writeSequenceNumber
        (verifyDataOf env.ossl master transcript)) c'.tcp := by
  intro transcript master
  obtain ⟨packet, t₁, hpacket, hroom, hsend⟩ := hcan.sends
  obtain ⟨t₂, ht₂⟩ := hsend (flightBytes env.ossl key (keysOf env.ossl master c)
    c.writeSequenceNumber (verifyDataOf env.ossl master transcript))
    (length_flightBytes _ _ _ _ _)
  have hget : onTcp (Tcp.Client.getSendBuffer env.dpdk .PSH_ACK false)
      { c with keyExchanges := c.keyExchanges + 1 } =
      .ok packet { c with keyExchanges := c.keyExchanges + 1, tcp := t₁ } := zoom_of_ok hpacket
  obtain ⟨ctx, hencrypt⟩ := @encrypt_of_some (derived env.ossl secret transcript t₁ c) env.ossl _
    (finishedHandshakeMessage (verifyDataOf env.ossl master transcript)) .Handshake rfl
  refine ⟨{ derived env.ossl secret transcript t₁ c with
    tcp := t₂
    encCtx := some ctx
    writeSequenceNumber := c.writeSequenceNumber + 1 }, ?_, rfl, rfl, rfl, rfl, packet, t₁, hpacket,
    ht₂⟩
  rw [sendClientKeyExchangeAndFinished, bind_of_ok (modify_apply _ c), bind_of_ok hget]
  dsimp only [WriteStream.ofView]
  rw [bind_of_ok (push_of_le (by dsimp only; omega)), bind_of_ok (get_apply _),
    bind_of_ok (modify_apply _ _)]
  dsimp only
  rw [hkey]
  dsimp only
  rw [hsecret]
  dsimp only
  rw [hashUpdate, bind_of_ok (modify_apply _ _), deriveKeys, bind_of_ok (modify_apply _ _),
    bind_of_ok (get_apply _)]
  dsimp only
  rw [bind_of_ok (push_of_le (by dsimp only; omega)),
    bind_of_ok (push_of_le (by dsimp only; omega))]
  refine (bind_of_ok (hencrypt.trans (congrArg (EStateM.Result.ok · _)
    (sealed_eq env.ossl (keysOf env.ossl master c) c.writeSequenceNumber _)))).trans ?_
  have hlen := length_sealedFinished env.ossl (keysOf env.ossl master c) c.writeSequenceNumber
    (verifyDataOf env.ossl master transcript)
  dsimp only
  rw [hlen, bind_of_ok (push_of_le (by dsimp only [kExplicitIvSize]; omega))]
  rw [flightBytes_eq, sendPayload, onTcp]
  exact zoom_of_ok ht₂

end Sending

/-! ## The calls of one `receive` -/

/-- The nested calls of a `receive` that returns nothing, and the states its handshake steps
lead to. -/
inductive Receives (env : Env) : Client → List HandshakeState → Client → Prop
  | waits {c : Client} (h : receiveOnce env c = .ok (.done none) c) : Receives env c [] c
  | ends {c c' : Client} (hstep : processHandshake env c = .ok () c')
      (h : receiveOnce env c = .ok (.done none) c') : Receives env c [c'.handshakeState] c'
  | again {c c₁ c' : Client} {states : List HandshakeState}
      (h : receiveOnce env c = .ok .again c₁) (tail : Receives env c₁ states c') :
      Receives env c (c₁.handshakeState :: states) c'

section Receives

variable {env : Env} {c c' : Client} {states : List HandshakeState}

theorem Receives.receiveFuel_eq (h : Receives env c states c') {n : Nat}
    {r : EStateM.Result Error Client (Option (List UInt8))} (hr : receiveFuel env n c = some r) :
    r = .ok none c' := by
  induction h generalizing n with
  | waits h =>
    cases n with
    | zero => cases hr
    | succ n =>
      rw [receiveFuel, h] at hr
      cases hr
      rfl
  | ends _ h =>
    cases n with
    | zero => cases hr
    | succ n =>
      rw [receiveFuel, h] at hr
      cases hr
      rfl
  | again h tail ih =>
    cases n with
    | zero => cases hr
    | succ n =>
      rw [receiveFuel, h] at hr
      exact ih hr

theorem Receives.terminates (h : Receives env c states c') : Terminates env c := by
  induction h with
  | waits h => exact ⟨1, _, by rw [receiveFuel, h]⟩
  | ends _ h => exact ⟨1, _, by rw [receiveFuel, h]⟩
  | again h tail ih =>
    obtain ⟨n, r, hr⟩ := ih
    exact ⟨n + 1, r, by rw [receiveFuel, h]; exact hr⟩

theorem Receives.receive_eq (h : Receives env c states c') : receive env c = .ok none c' :=
  h.receiveFuel_eq (Client.receive_eq h.terminates)

/-- What a call does after its handshake step. -/
theorem receiveOnce_of_step {contentType : ContentType} {message t : List UInt8} {c₁ : Client}
    (hstate : c.handshakeState ≠ .ServerFinished) (hlt : message.length < 2 ^ 16)
    (hs : c.stream.content = recordBytes contentType message ++ t)
    (hstep : processHandshake env c = .ok () c₁) : receiveOnce env c =
      if c₁.stream.size ≥ RecordHeader.sizeof then .ok .again c₁ else .ok (.done none) c₁ := by
  rw [receiveOnce_complete env (holdsRecord_recordBytes hlt hs), if_neg hstate, bind_of_ok hstep,
    bind_of_ok (get_apply c₁)]
  split <;> rfl

end Receives

/-! ## The run -/

/-- The state of the handshake after this many records. -/
def stateAt : Nat → HandshakeState
  | 0 => .ServerHello
  | 1 => .ServerCertificate
  | 2 => .ServerKeyExchange
  | 3 => .ServerHelloDone
  | _ => .ClientFinished

/-- The client `c₀` has taken the first `k` records of the flight and waits for the next one. -/
structure Before (F : Flight) (c₀ : Client) (k : Nat) (c : Client) : Prop where
  lt : k < 4
  state : c.handshakeState = stateAt k
  hash : c.handshakeHash = c₀.handshakeHash ++ (F.messages.take k).flatten
  drawn : c.drawn = c₀.drawn
  seq : c.writeSequenceNumber = c₀.writeSequenceNumber
  clientRandom : c.clientRandom = c₀.clientRandom
  serverRandom : 0 < k → c.serverRandom = F.serverHello.serverRandom
  publicKey : k = 3 → c.serverEphPubkey.take 32 = F.serverKeyExchange.publicKey.toList

/-- The handshake messages up to the client's key exchange. -/
def transcriptOf (ossl : OpenSsl) (F : Flight) (c₀ : Client) (key : Vector UInt8 32) : List UInt8 :=
  c₀.handshakeHash ++ F.messages.flatten ++ keyExchange ossl key

/-- The flight that the client `c₀` sends to the server. -/
def flightOf (ossl : OpenSsl) (F : Flight) (c₀ : Client) (key secret : Vector UInt8 32) :
    List UInt8 :=
  let transcript := transcriptOf ossl F c₀ key
  let master := masterSecretOf ossl secret transcript
  flightBytes ossl key (keysOfBlock (ossl.prf master.toList "key expansion"
    (F.serverHello.serverRandom.toList ++ c₀.clientRandom.toList) 40)) c₀.writeSequenceNumber
    (verifyDataOf ossl master transcript)

/-- The client has taken the flight and sent its own. -/
structure Exchanged (ossl : OpenSsl) (F : Flight) (c₀ : Client) (key secret : Vector UInt8 32)
    (c : Client) : Prop where
  state : c.handshakeState = .ClientFinished
  hash : c.handshakeHash = transcriptOf ossl F c₀ key
  masterSecret : c.masterSecret = masterSecretOf ossl secret (transcriptOf ossl F c₀ key)

section Run

variable {env : Env} {F : Flight} {c₀ c : Client} {key secret : Vector UInt8 32} {k : Nat}
  {message t x : List UInt8} {mid left : List (List UInt8)}

theorem message_lt (F : Flight) : ∀ message ∈ F.messages, message.length < 2 ^ 16 := by
  have hhello := F.serverHello.fits
  have hcertificate := F.certificate_fits
  have hexchange := F.serverKeyExchange.fits
  have hdone := F.serverHelloDone_fits
  simp [Flight.messages, ServerHello.bytes, length_start, ServerHello.choice, handshakeMessage,
    length_handshakeHeader, ServerKeyExchange.bytes, ecdheParams, ServerKeyExchange.sigInfo]
  omega

/-- One of the first three records. -/
theorem Before.step (h : Before F c₀ k c) (hk : k < 3) {rest : List (List UInt8)}
    (hmessage : F.messages.drop k = message :: rest)
    (hs : c.stream.content = recordBytes .Handshake message ++ t) :
    ∃ c₁, processHandshake env c = .ok () c₁ ∧ Before F c₀ (k + 1) c₁ ∧ c₁.stream.content = t ∧
      c₁.tcp = c.tcp := by
  obtain ⟨hlt, hstate, hhash, hdrawn, hseq, hclient, hserver, hpublic⟩ := h
  obtain rfl | rfl | rfl : k = 0 ∨ k = 1 ∨ k = 2 := by omega
  · cases hmessage
    obtain ⟨s, hcontent, hstep⟩ := @serverHello_step env c t F.serverHello hstate hs
    refine ⟨_, hstep, ⟨by omega, rfl, ?_, hdrawn, hseq, hclient, fun _ => rfl, by omega⟩, hcontent,
      rfl⟩
    simp [hhash, Flight.messages]
  · cases hmessage
    obtain ⟨s, hcontent, hstep⟩ := @certificate_step env c t _ F.certificate_fits hstate hs
    refine ⟨_, hstep, ⟨by omega, rfl, ?_, hdrawn, hseq, hclient, fun _ => hserver (by omega),
      by omega⟩, hcontent, rfl⟩
    simp [hhash, Flight.messages]
  · cases hmessage
    obtain ⟨s, hcontent, hstep⟩ := @serverKeyExchange_step env c t F.serverKeyExchange hstate hs
    refine ⟨_, hstep, ⟨by omega, rfl, ?_, hdrawn, hseq, hclient, fun _ => hserver (by omega),
      fun _ => ?_⟩, hcontent, rfl⟩
    · simp [hhash, Flight.messages]
    · exact List.take_left' (by simp)

/-- The last record. -/
theorem Before.last (h : Before F c₀ 3 c) (hcan : CanSend env.dpdk 93 c.tcp)
    (hkey : env.ossl.generateX25519Key c₀.drawn = some key)
    (hsecret : env.ossl.derive key F.serverKeyExchange.publicKey.toList = some secret)
    (hs : c.stream.content =
      recordBytes .Handshake (handshakeMessage .ServerHelloDone F.serverHelloDone) ++ t) :
    ∃ c₁, processHandshake env c = .ok () c₁ ∧ Exchanged env.ossl F c₀ key secret c₁ ∧
      c₁.stream.content = t ∧ Sent env c.tcp (flightOf env.ossl F c₀ key secret) c₁.tcp := by
  have hfits := F.serverHelloDone_fits
  have hlt : (handshakeMessage .ServerHelloDone F.serverHelloDone).length < 2 ^ 16 := by
    simpa [handshakeMessage, length_handshakeHeader] using hfits
  obtain ⟨s₁, hs₁, hstep⟩ := serverHelloDone_eq env hlt h.state hs
  have hread := readServerHelloDone_bytes (t := s₁.readTransaction) hfits hs₁
  obtain ⟨s, hcontent, hcommit⟩ := commit_message hs₁
  obtain ⟨c₁, hsend, hstream, -, hhash, hmaster, hsent⟩ := @sendClientKeyExchangeAndFinished_ok env
    { c with
      stream := s
      handshakeHash := c.handshakeHash ++ handshakeMessage .ServerHelloDone F.serverHelloDone }
    key secret hcan (by rw [← hkey, ← h.drawn]) (by rw [← hsecret, ← h.publicKey rfl])
  have htranscript : c.handshakeHash ++ handshakeMessage .ServerHelloDone F.serverHelloDone ++
      keyExchange env.ossl key = transcriptOf env.ossl F c₀ key := by
    rw [h.hash]
    simp [transcriptOf, Flight.messages]
  dsimp only at hhash hmaster hsent hstream
  rw [htranscript] at hhash hmaster hsent
  refine ⟨{ c₁ with handshakeState := .ClientFinished }, ?_, ⟨rfl, hhash, hmaster⟩,
    by rw [hstream]; exact hcontent, ?_⟩
  · rw [hstep, hread]
    dsimp only
    rw [bind_of_ok (onStream_of_ok hcommit), hashUpdate, bind_of_ok (modify_apply _ _),
      bind_of_ok hsend]
    rfl
  · rw [keysOf, h.serverRandom (by omega), h.clientRandom, h.seq] at hsent
    exact hsent

/-- The states after the next records. -/
def statesFrom (k n : Nat) : List HandshakeState := (List.range n).map fun i => stateAt (k + 1 + i)

theorem statesFrom_succ (k n : Nat) :
    statesFrom k (n + 1) = stateAt (k + 1) :: statesFrom (k + 1) n := by
  simp [statesFrom, List.range_succ_eq_map, Function.comp_def]
  intro i _
  congr 1
  omega

theorem length_messages (F : Flight) : F.messages.length = 4 := rfl

theorem drop_messages_ne_nil (h : k < 4) : F.messages.drop k ≠ [] := by
  intro hnil
  have hlen := congrArg List.length hnil
  rw [List.length_drop, length_messages, List.length_nil] at hlen
  omega

/-- There is no record in less than a header. -/
theorem no_record
    (h : ((mid.map (recordBytes .Handshake)).flatten ++ x).length < RecordHeader.sizeof) :
    mid = [] := by
  cases mid with
  | nil => rfl
  | cons message mid =>
    simp [recordBytes, RecordHeader.bytes, RecordHeader.sizeof] at h
    omega

/-- One `receive` takes all records that are complete. -/
theorem receives_before (h : Before F c₀ k c) (hcan : CanSend env.dpdk 93 c.tcp)
    (hkey : env.ossl.generateX25519Key c₀.drawn = some key)
    (hsecret : env.ossl.derive key F.serverKeyExchange.publicKey.toList = some secret)
    (hmid : F.messages.drop k = mid ++ left) (hx : ProperPart x)
    (hs : c.stream.content = (mid.map (recordBytes .Handshake)).flatten ++ x) :
    ∃ c', Receives env c (statesFrom k mid.length) c' ∧ c'.stream.content = x ∧
      ((left ≠ [] ∧ Before F c₀ (k + mid.length) c' ∧ c'.tcp = c.tcp) ∨
        (left = [] ∧ Exchanged env.ossl F c₀ key secret c' ∧
          Sent env c.tcp (flightOf env.ossl F c₀ key secret) c'.tcp)) := by
  -- the records are taken one by one; the last of the four ends the induction
  induction mid generalizing k c with
  | nil =>
    have hstate : c.handshakeState ≠ .ClientHelloToSend := by
      rw [h.state]
      unfold stateAt
      split <;> simp
    refine ⟨c, .waits (receiveOnce_properPart hx hstate hs), hs, Or.inl ⟨?_, h, rfl⟩⟩
    rintro rfl
    exact drop_messages_ne_nil h.lt hmid
  | cons message mid ih =>
    have hstate : c.handshakeState ≠ .ServerFinished := by
      rw [h.state]
      unfold stateAt
      split <;> simp
    have hlt : message.length < 2 ^ 16 :=
      message_lt F _ (List.mem_of_mem_drop (by rw [hmid]; exact List.mem_cons_self ..))
    rw [List.map_cons, List.flatten_cons, List.append_assoc] at hs
    have htail : F.messages.drop (k + 1) = mid ++ left := by
      rw [← List.tail_drop, hmid]
      rfl
    by_cases hk : k < 3
    · obtain ⟨c₁, hstep, hbefore, hcontent, htcp⟩ := h.step hk hmid hs
      have honce := receiveOnce_of_step hstate hlt hs hstep
      by_cases hsize : c₁.stream.size ≥ RecordHeader.sizeof
      · rw [if_pos hsize] at honce
        obtain ⟨c', hreceives, hx', hcase⟩ := ih hbefore (htcp ▸ hcan) htail hcontent
        refine ⟨c', ?_, hx', ?_⟩
        · rw [List.length_cons, statesFrom_succ, ← hbefore.state]
          exact .again honce hreceives
        · rw [List.length_cons, ← Nat.add_assoc, Nat.add_right_comm, ← htcp]
          exact hcase
      · -- nothing is left but a part of a header
        rw [if_neg hsize] at honce
        obtain rfl : mid = [] := no_record (by rw [← hcontent]; simpa using hsize)
        refine ⟨c₁, ?_, by simpa using hcontent, Or.inl ⟨?_, hbefore, htcp⟩⟩
        · rw [List.length_singleton, statesFrom_succ, ← hbefore.state]
          exact .ends hstep honce
        · rintro rfl
          exact absurd htail (drop_messages_ne_nil (by omega))
    · obtain rfl : k = 3 := by have := h.lt; omega
      obtain ⟨rfl, rfl⟩ : mid = [] ∧ left = [] := List.append_eq_nil_iff.mp htail.symm
      obtain ⟨rfl, -⟩ := List.cons.inj hmid
      obtain ⟨c₁, hstep, hexchanged, hcontent, hsent⟩ := h.last hcan hkey hsecret hs
      have honce := receiveOnce_of_step hstate hlt hs hstep
      have hfinished : c₁.handshakeState = stateAt 4 := hexchanged.state
      refine ⟨c₁, ?_, hcontent, Or.inr ⟨rfl, hexchanged, hsent⟩⟩
      rw [List.length_singleton, statesFrom_succ, ← hfinished]
      by_cases hsize : c₁.stream.size ≥ RecordHeader.sizeof
      · rw [if_pos hsize] at honce
        exact .again honce (.waits (receiveOnce_properPart hx (by simp [hexchanged.state]) hcontent))
      · rw [if_neg hsize] at honce
        exact .ends hstep honce

end Run

/-! ## The run over the packets -/

/-- The client takes these packets: each fits into its stream, the TCP client takes it, and could
send the flight afterwards. -/
def Receptive (env : Env) : List Tcp.PacketView → Client → Prop
  | [], _ => True
  | p :: packets, c =>
    c.stream.size + p.payload.size ≤ c.stream.capacity ∧
      ∃ t, Tcp.Client.processPacket env.dpdk p c.tcp = .ok () t ∧ CanSend env.dpdk 93 t ∧
        ∀ c₁ c₂, processPacket env p c = .ok () c₁ → receive env c₁ = .ok none c₂ →
          Receptive env packets c₂

/-- Each packet is processed and followed by a `receive` that returns nothing. The lists are the
states that the handshake steps lead to, and the payloads that are sent. -/
inductive Exchange (env : Env) :
    Client → List Tcp.PacketView → List HandshakeState → List (List UInt8) → Client → Prop
  | nil {c : Client} : Exchange env c [] [] [] c
  | silent {c c₁ c₂ c' : Client} {p : Tcp.PacketView} {packets : List Tcp.PacketView}
      {visited states : List HandshakeState} {sent : List (List UInt8)}
      (hpacket : processPacket env p c = .ok () c₁) (hreceive : receive env c₁ = .ok none c₂)
      (hvisited : Receives env c₁ visited c₂) (htcp : c₂.tcp = c₁.tcp)
      (tail : Exchange env c₂ packets states sent c') :
      Exchange env c (p :: packets) (visited ++ states) sent c'
  | sends {c c₁ c₂ c' : Client} {p : Tcp.PacketView} {packets : List Tcp.PacketView}
      {visited states : List HandshakeState} {payload : List UInt8} {sent : List (List UInt8)}
      (hpacket : processPacket env p c = .ok () c₁) (hreceive : receive env c₁ = .ok none c₂)
      (hvisited : Receives env c₁ visited c₂) (hsent : Sent env c₁.tcp payload c₂.tcp)
      (tail : Exchange env c₂ packets states sent c') :
      Exchange env c (p :: packets) (visited ++ states) (payload :: sent) c'

section Packets

variable {env : Env} {F : Flight} {c₀ c : Client} {key secret : Vector UInt8 32} {k : Nat}
  {p : Tcp.PacketView} {packets : List Tcp.PacketView}

theorem processPacket_fits {t : Tcp.Client}
    (hfits : c.stream.size + p.payload.size ≤ c.stream.capacity)
    (htcp : Tcp.Client.processPacket env.dpdk p c.tcp = .ok () t) :
    ∃ s, processPacket env p c = .ok () { c with tcp := t, stream := s } ∧
      s.content = c.stream.content ++ p.payload.toList := by
  have hroom : c.stream.shift.availableSuffixBytes = c.stream.capacity - c.stream.size := rfl
  obtain ⟨hlt, -⟩ | ⟨s, hok, hcontent, -⟩ := c.stream.shift.pushBytes_cases p.payload
  · omega
  · refine ⟨s, ?_, by rw [hcontent, Stream.content_shift]⟩
    have hcall : onTcp (Tcp.Client.processPacket env.dpdk p) c = .ok () { c with tcp := t } :=
      zoom_of_ok htcp
    rw [processPacket_eq, bind_of_ok hcall, pushChunk, bind_of_ok (modify_apply _ _)]
    exact zoom_of_ok hok

theorem Before.processPacket (h : Before F c₀ k c) (t : Tcp.Client) (s : Stream) :
    Before F c₀ k { c with tcp := t, stream := s } :=
  ⟨h.lt, h.state, h.hash, h.drawn, h.seq, h.clientRandom, h.serverRandom, h.publicKey⟩

theorem statesFrom_add (k m n : Nat) :
    statesFrom k (m + n) = statesFrom k m ++ statesFrom (k + m) n := by
  simp [statesFrom, List.range_add, Function.comp_def]
  intro i _
  congr 1
  omega

theorem Exchanged.processPacket {ossl : OpenSsl} (h : Exchanged ossl F c₀ key secret c)
    (t : Tcp.Client) (s : Stream) : Exchanged ossl F c₀ key secret { c with tcp := t, stream := s } :=
  ⟨h.state, h.hash, h.masterSecret⟩

/-- After the exchange only packets without payload are left, and they change nothing. -/
theorem Exchanged.exchange (h : Exchanged env.ossl F c₀ key secret c)
    (hreceptive : Receptive env packets c)
    (hcut : c.stream.content ++ packets.flatMap (fun p => p.payload.toList) = []) :
    ∃ c', Exchange env c packets [] [] c' ∧ Exchanged env.ossl F c₀ key secret c' ∧
      c'.stream.content = [] := by
  induction packets generalizing c with
  | nil => exact ⟨c, .nil, h, by simpa using hcut⟩
  | cons p packets ih =>
    obtain ⟨hfits, t, htcp, -, hnext⟩ := hreceptive
    obtain ⟨s, hpacket, hcontent⟩ := processPacket_fits hfits htcp
    rw [List.flatMap_cons, ← List.append_assoc, ← hcontent] at hcut
    obtain ⟨hnil, -⟩ := List.append_eq_nil_iff.mp hcut
    have hwaits : receiveOnce env { c with tcp := t, stream := s } = .ok (.done none)
        { c with tcp := t, stream := s } :=
      receiveOnce_properPart properPart_nil (by simp [h.state]) hnil
    have hvisited := Receives.waits hwaits
    obtain ⟨c', htail, hexchanged, hcontent'⟩ := ih (h.processPacket t s)
      (hnext _ _ hpacket hvisited.receive_eq) hcut
    exact ⟨c', .silent hpacket hvisited.receive_eq hvisited rfl htail, hexchanged, hcontent'⟩

/-- What is left of a cut is a proper part of the next record. -/
theorem properPart_of_messages {x future : List UInt8} {left : List (List UInt8)}
    (hmem : ∀ message ∈ left, message ∈ F.messages)
    (hx : x ++ future = (left.map (recordBytes .Handshake)).flatten)
    (hpart : ∀ record rest, left.map (recordBytes .Handshake) = record :: rest →
      x.length < record.length) : ProperPart x := by
  cases left with
  | nil =>
    obtain ⟨rfl, -⟩ := List.append_eq_nil_iff.mp hx
    exact properPart_nil
  | cons message left =>
    have hlt := message_lt F message (hmem message (List.mem_cons_self ..))
    exact properPart_of_lt hlt hx (hpart _ _ rfl)

/-- The records that are left, in these packets, complete the exchange. -/
theorem Before.exchange (h : Before F c₀ k c) (hreceptive : Receptive env packets c)
    (hkey : env.ossl.generateX25519Key c₀.drawn = some key)
    (hsecret : env.ossl.derive key F.serverKeyExchange.publicKey.toList = some secret)
    (hpart : ∀ message rest, F.messages.drop k = message :: rest →
      c.stream.size < (recordBytes .Handshake message).length)
    (hcut : c.stream.content ++ packets.flatMap (fun p => p.payload.toList) =
      ((F.messages.drop k).map (recordBytes .Handshake)).flatten) :
    ∃ c', Exchange env c packets (statesFrom k (4 - k)) [flightOf env.ossl F c₀ key secret] c' ∧
      Exchanged env.ossl F c₀ key secret c' ∧ c'.stream.content = [] := by
  -- by induction on the packets; one that completes no record leaves `k` as it is
  induction packets generalizing c k with
  | nil =>
    obtain ⟨message, rest, hdrop⟩ := List.exists_cons_of_ne_nil (drop_messages_ne_nil (F := F) h.lt)
    have hlt := hpart message rest hdrop
    have hlen := congrArg List.length hcut
    rw [hdrop] at hlen
    simp at hlen
    omega
  | cons p packets ih =>
    obtain ⟨hfits, t, htcp, hcan, hnext⟩ := hreceptive
    obtain ⟨s, hpacket, hcontent⟩ := processPacket_fits hfits htcp
    rw [List.flatMap_cons, ← List.append_assoc, ← hcontent] at hcut
    obtain ⟨_, _, x, hsplit, hy, hx, hpart'⟩ := exists_cut hcut
    obtain ⟨mid, left, hmid, rfl, rfl⟩ := List.map_eq_append_iff.mp hsplit
    have hproper : ProperPart x := by
      refine properPart_of_messages (F := F) (fun message hmem => ?_) hx hpart'
      apply List.mem_of_mem_drop
      rw [hmid]
      exact List.mem_append_right _ hmem
    obtain ⟨c₂, hreceives, hx', hcase⟩ := receives_before (h.processPacket t s) hcan hkey hsecret
      hmid hproper hy
    have hreceptive := hnext _ _ hpacket hreceives.receive_eq
    rw [← hx'] at hx
    have hlen := congrArg List.length hmid
    rw [List.length_drop, length_messages, List.length_append] at hlen
    obtain ⟨-, hbefore, hsame⟩ | ⟨rfl, hexchanged, hsent⟩ := hcase
    · have hdrop : F.messages.drop (k + mid.length) = left := by
        rw [← List.drop_drop, hmid, List.drop_left]
      obtain ⟨c', htail, hexchanged, hcontent'⟩ := ih hbefore hreceptive
        (fun message rest hnext => by
          rw [← Stream.length_content, hx']
          exact hpart' _ _ (by rw [← hdrop, hnext, List.map_cons]))
        (by rw [hdrop]; exact hx)
      refine ⟨c', ?_, hexchanged, hcontent'⟩
      have hlt := hbefore.lt
      have hsum : 4 - k = mid.length + (4 - (k + mid.length)) := by omega
      rw [hsum, statesFrom_add]
      exact .silent hpacket hreceives.receive_eq hreceives hsame htail
    · obtain ⟨c', htail, hexchanged', hcontent'⟩ := hexchanged.exchange hreceptive hx
      refine ⟨c', ?_, hexchanged', hcontent'⟩
      have hsum : 4 - k = mid.length := by simpa using hlen
      rw [hsum, ← List.append_nil (statesFrom k mid.length)]
      exact .sends hpacket hreceives.receive_eq hreceives hsent htail

theorem receive_of_sendClientHello (hstate : c.handshakeState = .ClientHelloToSend)
    (hempty : c.stream.content = []) {c' : Client} (hsend : sendClientHello env c = .ok () c') :
    receive env c = .ok none { c' with handshakeState := .ServerHello } := by
  apply receive_of_done
  rw [receiveOnce_clientHello hstate hempty, bind_of_ok hsend, setHandshakeState,
    bind_of_ok (modify_apply _ _)]
  rfl

/-- The first `receive` sends the ClientHello and hashes its message. -/
theorem receive_clientHello (hstate : c.handshakeState = .ClientHelloToSend)
    (hempty : c.stream.content = []) (hhash : c.handshakeHash = [])
    (hhello : receive env c = .ok none c₀) :
    c₀.handshakeState = .ServerHello ∧ c₀.stream.content = [] ∧ c₀.handshakeHash =
      (clientHelloBytes kDefaultExtensions.reverse c₀.clientRandom c.sniHostname).drop 5 := by
  cases hsend : sendClientHello env c with
  | error e c' =>
    rw [receive, receiveFuel, receiveOnce_clientHello hstate hempty, bind_of_error hsend] at hhello
    cases hhello
  | ok u c' =>
    rw [receive_of_sendClientHello hstate hempty hsend] at hhello
    obtain ⟨random, packet, t, t', -, -, -, rfl⟩ := sendClientHello_eq_ok hsend
    cases hhello
    exact ⟨rfl, hempty, by rw [hhash, List.nil_append]⟩

end Packets

/-- **The handshake transcript**: for every server flight and every way to cut its four records
into the payloads of packets that the client takes, the handshake goes through its states in order,
one flight is sent, and what is hashed for the master secret and the verify data of that flight is
the ClientHello, the four messages and the ClientKeyExchange. -/
theorem handshake_transcript (env : Env) (F : Flight) (c c₀ : Client)
    (packets : List Tcp.PacketView) (key secret : Vector UInt8 32)
    (hstate : c.handshakeState = .ClientHelloToSend) (hempty : c.stream.content = [])
    (hhash : c.handshakeHash = []) (hhello : receive env c = .ok none c₀)
    (hkey : env.ossl.generateX25519Key c₀.drawn = some key)
    (hsecret : env.ossl.derive key F.serverKeyExchange.publicKey.toList = some secret)
    (hreceptive : Receptive env packets c₀)
    (hcut : packets.flatMap (fun p => p.payload.toList) = F.records.flatten) :
    let hello := clientHelloBytes kDefaultExtensions.reverse c₀.clientRandom c.sniHostname
    let transcript := hello.drop 5 ++ F.messages.flatten ++ keyExchange env.ossl key
    let master := masterSecretOf env.ossl secret transcript
    let keys := keysOfBlock (env.ossl.prf master.toList "key expansion"
      (F.serverHello.serverRandom.toList ++ c₀.clientRandom.toList) 40)
    ∃ c', c₀.handshakeState = .ServerHello ∧
      Exchange env c₀ packets [.ServerCertificate, .ServerKeyExchange, .ServerHelloDone,
        .ClientFinished] [flightBytes env.ossl key keys c₀.writeSequenceNumber
          (verifyDataOf env.ossl master transcript)] c' ∧
      c'.handshakeHash = transcript ∧ c'.masterSecret = master ∧ c'.stream.content = [] := by
  intro hello transcript master keys
  obtain ⟨hstate₀, hempty₀, hhash₀⟩ := receive_clientHello hstate hempty hhash hhello
  have hbefore : Before F c₀ 0 c₀ := ⟨by omega, hstate₀, by simp, rfl, rfl, rfl, by omega, by omega⟩
  have htranscript : transcriptOf env.ossl F c₀ key = transcript := by
    rw [transcriptOf, hhash₀]
  obtain ⟨c', hexchange, hexchanged, hcontent⟩ := hbefore.exchange hreceptive hkey hsecret
    (fun message rest _ => by
      rw [← Stream.length_content, hempty₀, length_recordBytes]
      exact Nat.lt_of_lt_of_le (by decide : 0 < 5) (Nat.le_add_right ..))
    (by rw [hempty₀]; exact hcut)
  have hmaster := hexchanged.masterSecret
  rw [htranscript] at hmaster
  rw [flightOf, htranscript] at hexchange
  exact ⟨c', hstate₀, hexchange, htranscript ▸ hexchanged.hash, hmaster, hcontent⟩

/-- The flight of the small server. -/
def smallFlight : Flight where
  serverHello := ⟨.replicate 32 0, [], [], by decide, by decide⟩
  certificate := []
  certificate_fits := by decide
  serverKeyExchange := ⟨.replicate 32 0, 0x0401, [], by decide⟩
  serverHelloDone := []
  serverHelloDone_fits := by decide

/-- A packet that ends inside the second record, and the rest. -/
def smallPackets : List Tcp.PacketView :=
  [Tcp.Client.segment 1 (smallFlight.records.flatten.take 52),
    Tcp.Client.segment 53 (smallFlight.records.flatten.drop 52)]

/-- The client that waits for the ServerHello. -/
def greetedClient : Client :=
  { after (sendClientHello sampleEnv connectedClient) with handshakeState := .ServerHello }

theorem smallPackets_receptive : Receptive sampleEnv smallPackets greetedClient := by
  refine ⟨by decide +kernel, _, Library.eq_ok_of_not_threw (by decide +kernel),
    ⟨by decide +kernel, by decide +kernel, by decide +kernel, by decide +kernel⟩, ?_⟩
  intro c₁ c₂ hpacket hreceive
  obtain rfl : after (processPacket sampleEnv _ greetedClient) = c₁ := congrArg after hpacket
  obtain rfl : after (receive sampleEnv _) = c₂ := congrArg after hreceive
  refine ⟨by decide +kernel, _, Library.eq_ok_of_not_threw (by decide +kernel),
    ⟨by decide +kernel, by decide +kernel, by decide +kernel, by decide +kernel⟩, ?_⟩
  intro _ _ _ _
  exact trivial

theorem smallFlight_transcript :
    ∃ c', greetedClient.handshakeState = .ServerHello ∧
      Exchange sampleEnv greetedClient smallPackets [.ServerCertificate, .ServerKeyExchange,
        .ServerHelloDone, .ClientFinished] [flightBytes sampleOssl (.replicate 32 0)
          (keysOfBlock (.replicate 40 0)) greetedClient.writeSequenceNumber (.replicate 12 0)] c' ∧
      c'.handshakeHash = (clientHelloBytes kDefaultExtensions.reverse greetedClient.clientRandom
        connectedClient.sniHostname).drop 5 ++ smallFlight.messages.flatten ++
          keyExchange sampleOssl (.replicate 32 0) ∧
      c'.masterSecret = .replicate 48 0 ∧ c'.stream.content = [] :=
  handshake_transcript sampleEnv smallFlight connectedClient greetedClient smallPackets
    (.replicate 32 0) (.replicate 32 0) (by decide +kernel) (by decide +kernel) (by decide +kernel)
    (receive_of_sendClientHello (by decide +kernel) (by decide +kernel)
      (Library.eq_ok_of_not_threw (by decide +kernel))) rfl rfl smallPackets_receptive
    (by decide +kernel)

end Client

end WsGateway.Network.Tls12
