import WsGateway.Verify.Tls12.Sending

/-!
# The nonces for sending

Each call of `encrypt` gives the context for sending a nonce, which the context
records, and each packet that goes out is recorded by the card. So what a call of
the client encrypts and sends is read off the states before and after it. The
number for sending counts the calls of `encrypt` that return, from the client's
Finished message on; one in which a call on the context fails is not counted, and
the next one takes its nonce again.
-/

namespace WsGateway.Network.Tls12

open Library

namespace Client

/-- The call on the cipher context that fails during a call. -/
def Call.fails : Call → Option EvpCall
  | .flush fails => fails
  | _ => none

def Call.isFlush : Call → Bool
  | .flush _ => true
  | _ => false

/-- A call of `encrypt`: the key of the context, the nonce and the additional data that it was
given, and whether all calls on it succeeded. -/
structure Encryption where
  key : AES128Key
  nonce : List UInt8
  aad : List UInt8
  returned : Bool

/-- The nonces that the context for sending was given. -/
def sendNonces (c : Client) : List (List UInt8) :=
  match c.encCtx with
  | none => []
  | some ctx => ctx.nonces

/-- The calls of `encrypt` during a call: those that gave the context for sending a nonce. -/
def encryptionsOf (env : Env) (x : Client × Call) : List Encryption :=
  match (x.2.run env x.1).encCtx with
  | none => []
  | some ctx => (ctx.nonces.drop x.1.sendNonces.length).map fun nonce =>
      ⟨ctx.key, nonce, ctx.aad, x.2.fails.isNone⟩

/-- The calls of `encrypt` in the past of a run. -/
def encryptions (env : Env) (past : List (Client × Call)) : List Encryption :=
  past.flatMap (encryptionsOf env)

/-- How many of them returned. -/
def completed (encryptions : List Encryption) : Nat := encryptions.countP (·.returned)

/-- The call came to `send_client_key_exchange_and_finished`. -/
def ExchangesKeys (env : Env) (x : Client × Call) : Prop :=
  x.1.keyExchanges < (x.2.run env x.1).keyExchanges

/-- The frames that the card took during a call. -/
def framesOf (env : Env) (x : Client × Call) : List ByteView :=
  Tcp.Client.framesSince x.1.tcp (x.2.run env x.1).tcp

/-- The content type of the record with this number. -/
def typeOfNumber (n : Nat) : ContentType := if n = 0 then .Handshake else .ApplicationData

/-- The call of `encrypt` is the one with the number `n`. -/
structure Numbered (keys : Keys) (n : Nat) (e : Encryption) : Prop where
  key : e.key = keys.clientWriteKey
  nonce : e.nonce = keys.clientWriteIv.toList ++ beBytes 8 n
  aad : e.returned = true →
    ∃ size, e.aad = additionalAuthData (UInt64.ofNat n) (typeOfNumber n) size

/-- The payload of a packet with the record of the number `n`, which is what `e` has sealed: the
client's flight with its Finished message, or a record of application data. -/
inductive RecordOf (ossl : OpenSsl) (n : Nat) (e : Encryption) : List UInt8 → Prop
  | finished (publicKey : Vector UInt8 32) (verifyData : Vector UInt8 12) (hn : n = 0)
      (haad : e.aad = additionalAuthData (UInt64.ofNat n) .Handshake 16) :
      RecordOf ossl n e (x25519KeyExchangeMessage publicKey ++ kChangeCipherSpecRecord ++
        recordBytes .Handshake (beBytes 8 n ++
          gcmSeal ossl e.key e.nonce e.aad (finishedHandshakeMessage verifyData)))
  | data (plaintext : List UInt8) (hn : n ≠ 0)
      (haad : e.aad = additionalAuthData (UInt64.ofNat n) .ApplicationData plaintext.length) :
      RecordOf ossl n e (recordBytes .ApplicationData (beBytes 8 n ++
        gcmSeal ossl e.key e.nonce e.aad plaintext))

/-- All calls of `encrypt` in the past use the client's key and the number of those that returned
before them; and every frame of a flush, or of the call that exchanges keys, is the record sealed by
the one call of `encrypt` in it, which returned. -/
structure Disciplined (env : Env) (keys : Keys) (past : List (Client × Call)) : Prop where
  numbered : Throughout (fun before e => Numbered keys (completed before) e) (encryptions env past)
  sent : Throughout (fun before x => x.2.isFlush = true ∨ ExchangesKeys env x →
    ∀ frame ∈ framesOf env x, ∃ e, encryptionsOf env x = [e] ∧ e.returned = true ∧
      RecordOf env.ossl (completed (encryptions env before)) e
        (Tcp.PacketView.ofBytes frame).payload.toList) past

/-! ## One call of `encrypt` -/

section Sealing

variable {env : Env} {d d' : Client} {ctx ctx' : EncryptContext} {fails : Option EvpCall}
  {contentType : ContentType} {view : List UInt8} {wire : List UInt8 → List UInt8}

/-- From `d` to `d'`, `encrypt` was called for `view`, and if it returned, a packet with the `wire`
form of the result may have been sent. -/
structure Seals (env : Env) (fails : Option EvpCall) (contentType : ContentType)
    (view : List UInt8) (wire : List UInt8 → List UInt8) (ctx : EncryptContext) (d d' : Client)
    (ctx' : EncryptContext) : Prop where
  begins : Begins d ctx ctx'
  encCtx : d'.encCtx = some ctx'
  keys : d'.keys = d.keys
  keyExchanges : d'.keyExchanges = d.keyExchanges
  write : d'.writeSequenceNumber = d.writeSequenceNumber + if fails.isNone then 1 else 0
  aad : fails = none →
    ctx'.aad = additionalAuthData d.writeSequenceNumber contentType view.length
  frames : ∀ frame ∈ Tcp.Client.framesSince d.tcp d'.tcp, fails = none ∧
    (Tcp.PacketView.ofBytes frame).payload.toList =
      wire (gcmSeal env.ossl ctx.key (nextNonce d) ctx'.aad view)

/-- The rest of a call sends a packet with this payload, or nothing. -/
def SendsOnly (x : Prog Client Unit) (payload : List UInt8) : Prop :=
  ∀ c, ∃ t, after (x c) = { c with tcp := t } ∧
    ∀ frame ∈ Tcp.Client.framesSince c.tcp t,
      (Tcp.PacketView.ofBytes frame).payload.toList = payload

/-- A packet that was obtained with nothing in it is sent with the payload. -/
theorem sendPayload_sendsOnly {packet : Tcp.SendBuffer} {eth : EthernetHeader} {ip : IpHeader}
    {tcp : Tcp.Header} {payload : List UInt8} (hlaid : packet.tcp.Laid eth ip tcp [])
    (hoffset : tcp.dataOffset = 20) (hfits : payload.length + 40 < 2 ^ 16) :
    SendsOnly (sendPayload env packet payload) payload := by
  intro c
  have hcarries := @Tcp.Client.carries_of_laid env.dpdk _ _ _ _ _ payload hlaid hoffset.symm
    (by rw [hoffset]; omega)
  refine ⟨after (Tcp.Client.send env.dpdk ⟨packet.tcp.writePayload payload⟩ payload.length c.tcp),
    ?_, fun frame hframe => ?_⟩
  · rw [sendPayload, onTcp, after_zoom]
  rcases Tcp.Client.framesSince_send env.dpdk ⟨packet.tcp.writePayload payload⟩ payload.length
    c.tcp with hnone | hone
  · rw [hnone] at hframe
    cases hframe
  · rw [hone, List.mem_singleton] at hframe
    rw [hframe]
    exact hcarries.payload

/-- What `encrypt` returns is sent by the rest of the call. -/
theorem encrypt_seals {k : List UInt8 → Prog Client Unit} (hctx : d.encCtx = some ctx)
    (hk : ∀ encrypted, encrypted.length = view.length + kGcmTagSize →
      SendsOnly (k encrypted) (wire encrypted)) :
    ∃ ctx', Seals env fails contentType view wire ctx d
      (after ((encrypt fails env.ossl view contentType >>= k) d)) ctx' := by
  have hends := encrypt_ends fails env.ossl view contentType hctx
  rw [bind_apply]
  cases hencrypt : encrypt fails env.ossl view contentType d with
  | error e t =>
    obtain ⟨hfails, ctx', hbegins, rfl⟩ := hends.error hencrypt
    obtain ⟨call, rfl⟩ := Option.ne_none_iff_exists'.mp hfails
    refine ⟨ctx', hbegins, rfl, rfl, rfl, ?_, ?_, fun frame hframe => ?_⟩
    · exact (UInt64.add_zero _).symm
    · exact fun h => absurd h hfails
    · replace hframe : frame ∈ Tcp.Client.framesSince d.tcp d.tcp := hframe
      rw [Tcp.Client.framesSince_self] at hframe
      cases hframe
  | ok encrypted t =>
    obtain ⟨rfl, ctx', hbegins, haad, hencrypted, rfl⟩ := hends.ok hencrypt
    have hlen : encrypted.length = view.length + kGcmTagSize := by
      rw [hencrypted, length_gcmSeal]
    obtain ⟨t, hafter, hframes⟩ := hk encrypted hlen { d with
      encCtx := some ctx', writeSequenceNumber := d.writeSequenceNumber + 1 }
    dsimp only
    rw [hafter]
    refine ⟨ctx', hbegins, rfl, rfl, rfl, rfl, fun _ => haad, fun frame hframe => ⟨rfl, ?_⟩⟩
    rw [← hencrypted]
    exact hframes frame hframe

/-- Looking for room first changes nothing. -/
theorem SendsOnly.ofExcept {α : Type} (x : Except Error α) {y : Prog Client Unit}
    {payload : List UInt8} (h : SendsOnly y payload) :
    SendsOnly (Tcp.Client.ofExcept x >>= fun _ => y) payload := by
  cases x with
  | ok a => exact h
  | error e =>
    intro c
    refine ⟨c.tcp, rfl, fun frame hframe => ?_⟩
    rw [Tcp.Client.framesSince_self] at hframe
    cases hframe

end Sealing

/-! ## Flushing -/

/-- The keys, the context and the number for sending are the same. -/
structure SameSending (c c' : Client) : Prop where
  keys : c'.keys = c.keys
  encCtx : c'.encCtx = c.encCtx
  write : c'.writeSequenceNumber = c.writeSequenceNumber
  keyExchanges : c'.keyExchanges = c.keyExchanges

instance : Std.Refl SameSending := ⟨fun _ => ⟨rfl, rfl, rfl, rfl⟩⟩

instance : IsTrans Client SameSending :=
  ⟨fun _ _ _ h h' => ⟨h'.keys.trans h.keys, h'.encCtx.trans h.encCtx, h'.write.trans h.write,
    h'.keyExchanges.trans h.keyExchanges⟩⟩

section Flush

variable {env : Env} {c : Client} {ctx : EncryptContext}

/-- A flush encrypts nothing and sends nothing, or it encrypts the pending bytes for one record. -/
theorem flushWith_seals (fails : Option EvpCall) (hctx : c.encCtx = some ctx)
    (hcapacity : c.sendBuffer.capacity = 20600) :
    (SameSending c (after (flushWith fails env c)) ∧ framesOf env (c, .flush fails) = []) ∨
      ∃ d ctx', SameSending c d ∧ d.tcp.sender.transmitted = c.tcp.sender.transmitted ∧
        Seals env fails .ApplicationData c.sendBuffer.content
          (fun encrypted => recordBytes .ApplicationData
            (beBytes 8 c.writeSequenceNumber.toNat ++ encrypted))
          ctx d (after (flushWith fails env c)) ctx' := by
  by_cases htakes : Takes env c
  · obtain ⟨packet, hget, hflush⟩ := flushWith_apply fails htakes
    rw [hflush]
    split
    · obtain ⟨mem, hmem⟩ := Option.ne_none_iff_exists'.mp htakes.alloc
      obtain ⟨packet', hget', hlaid⟩ :=
        Tcp.Client.getSendBuffer_laid c.tcp .PSH_ACK false hmem htakes.headers
      rw [hget] at hget'
      injection hget' with hpacket
      subst hpacket
      have hle := c.sendBuffer.size_le_capacity
      rw [hcapacity, ← Stream.length_content] at hle
      have hsends : ∀ encrypted : List UInt8,
          encrypted.length = c.sendBuffer.content.length + kGcmTagSize →
          SendsOnly (sendPayload env packet (RecordHeader.bytes
            ⟨.ApplicationData, kTls12, kExplicitIvSize + encrypted.length⟩ ++
              beBytes 8 c.writeSequenceNumber.toNat ++ encrypted))
            (recordBytes .ApplicationData
              (beBytes 8 c.writeSequenceNumber.toNat ++ encrypted)) := by
        intro encrypted hlen
        rw [record_eq _ _ _ (length_beBytes 8 _)]
        refine sendPayload_sendsOnly hlaid rfl ?_
        rw [length_recordBytes, List.length_append, hlen, length_beBytes, kGcmTagSize,
          RecordHeader.sizeof]
        omega
      obtain ⟨ctx', hseals⟩ := encrypt_seals (d := emptied c) hctx hsends
      exact Or.inr ⟨emptied c, ctx', ⟨rfl, rfl, rfl, rfl⟩, rfl, hseals⟩
    · refine Or.inl ⟨⟨rfl, rfl, rfl, rfl⟩, ?_⟩
      rw [framesOf, Call.run, hflush, if_neg ‹_›]
      exact List.drop_length
  · obtain ⟨e, t, hflush, ht⟩ := flushWith_early fails htakes
    refine Or.inl ⟨?_, ?_⟩
    · rw [hflush]
      exact ⟨rfl, rfl, rfl, rfl⟩
    · rw [framesOf, Call.run, hflush, after_error, Tcp.Client.framesSince, ht, List.drop_length]

/-- Without a context for sending a flush does neither. -/
theorem flushWith_unkeyed (fails : Option EvpCall) (hctx : c.encCtx = none) :
    SameSending c (after (flushWith fails env c)) ∧ framesOf env (c, .flush fails) = [] := by
  rw [framesOf, Call.run]
  by_cases htakes : Takes env c
  · obtain ⟨packet, -, hflush⟩ := flushWith_apply fails htakes
    have hnone : (emptied c).encCtx = none := hctx
    rw [bind_of_error (encrypt_of_none hnone)] at hflush
    rw [hflush]
    split
    · exact ⟨⟨rfl, rfl, rfl, rfl⟩, List.drop_length⟩
    · exact ⟨⟨rfl, rfl, rfl, rfl⟩, List.drop_length⟩
  · obtain ⟨e, t, hflush, ht⟩ := flushWith_early fails htakes
    rw [hflush]
    refine ⟨⟨rfl, rfl, rfl, rfl⟩, ?_⟩
    rw [after_error, Tcp.Client.framesSince, ht, List.drop_length]

end Flush

/-! ## The client's flight -/

/-- The client's flight was not encrypted. -/
structure FlightUnsealed (c c' : Client) : Prop where
  nonces : c'.sendNonces = []
  keyExchanges : c'.keyExchanges = c.keyExchanges + 1
  frames : Tcp.Client.framesSince c.tcp c'.tcp = []

/-- With new keys and the client's number, the Finished message was encrypted for the client's
flight. -/
def FlightSealed (env : Env) (c c' : Client) : Prop :=
  ∃ publicKey verifyData d ctx', d.writeSequenceNumber = c.writeSequenceNumber ∧
    d.keyExchanges = c.keyExchanges + 1 ∧
    d.tcp.sender.transmitted = c.tcp.sender.transmitted ∧
    Seals env none .Handshake (finishedHandshakeMessage verifyData)
      (fun encrypted => x25519KeyExchangeMessage publicKey ++ kChangeCipherSpecRecord ++
        recordBytes .Handshake (beBytes 8 d.writeSequenceNumber.toNat ++ encrypted))
      { key := d.keys.clientWriteKey } d c' ctx'

section Flight

variable {env : Env} {c d : Client}

/-- What is looked for in the packet leaves the client alone. -/
theorem ofExcept_bind_ends {α β : Type} {x : Except Error α} {f : α → Prog Client β}
    {Q : β → Client → Prop} {E : Error → Client → Prop} (hE : ∀ e, E e c)
    (hf : ∀ a, Ends (f a) c Q E) : Ends (Tcp.Client.ofExcept x >>= f) c Q E := by
  cases x with
  | ok a => exact hf a
  | error e => exact hE e

/-- The last step of the flight. -/
theorem finished_seals {packet : Tcp.SendBuffer} {eth : EthernetHeader} {ip : IpHeader}
    {tcp : Tcp.Header} {ws : WriteStream} {publicKey : Vector UInt8 32}
    {verifyData : Vector UInt8 12} (hlaid : packet.tcp.Laid eth ip tcp [])
    (hoffset : tcp.dataOffset = 20) (hd : d.encCtx = some { key := d.keys.clientWriteKey }) :
    ∃ ctx', Seals env none .Handshake (finishedHandshakeMessage verifyData)
      (fun encrypted => x25519KeyExchangeMessage publicKey ++ kChangeCipherSpecRecord ++
        recordBytes .Handshake (beBytes 8 d.writeSequenceNumber.toNat ++ encrypted))
      { key := d.keys.clientWriteKey } d
      (after ((encrypt none env.ossl (finishedHandshakeMessage verifyData) .Handshake >>=
        fun encrypted => Tcp.Client.ofExcept (ws.push (kExplicitIvSize + encrypted.length - 24)) >>=
          fun _ => sendPayload env packet (x25519KeyExchangeMessage publicKey ++
            kChangeCipherSpecRecord ++
            RecordHeader.bytes ⟨.Handshake, kTls12, kExplicitIvSize + encrypted.length⟩ ++
            beBytes 8 d.writeSequenceNumber.toNat ++ encrypted)) d)) ctx' := by
  refine encrypt_seals hd fun encrypted hlen => ?_
  rw [← record_eq _ _ _ (length_beBytes 8 _), ← List.append_assoc, ← List.append_assoc]
  refine (sendPayload_sendsOnly hlaid hoffset ?_).ofExcept _
  simp [hlen, x25519KeyExchangeMessage, kChangeCipherSpecRecord, RecordHeader.bytes,
    HandshakeHeader.bytes, finishedHandshakeMessage, kGcmTagSize]

theorem derived_sending (ossl : OpenSsl) (secret : Vector UInt8 32) (transcript : List UInt8)
    (t : Tcp.Client) (c : Client) :
    (derived ossl secret transcript t c).encCtx =
        some { key := (derived ossl secret transcript t c).keys.clientWriteKey } ∧
      (derived ossl secret transcript t c).writeSequenceNumber = c.writeSequenceNumber ∧
      (derived ossl secret transcript t c).keyExchanges = c.keyExchanges + 1 ∧
      (derived ossl secret transcript t c).tcp = t :=
  ⟨rfl, rfl, rfl, rfl⟩

theorem sendClientKeyExchangeAndFinished_seals (hctx : c.encCtx = none) :
    Ends (sendClientKeyExchangeAndFinished env) c (fun _ c' => FlightSealed env c c')
      (fun _ c' => FlightUnsealed c c' ∨ FlightSealed env c c') := by
  have hnonces : c.sendNonces = [] := by rw [sendNonces, hctx]
  refine Ends.update ?_
  rcases Tcp.Client.getSendBuffer_cases env.dpdk c.tcp .PSH_ACK with
    ⟨packet, hget, eth, ip, hlaid⟩ | ⟨e, device, hget, hdevice⟩
  · have hpacket : onTcp (Tcp.Client.getSendBuffer env.dpdk .PSH_ACK false)
        { c with keyExchanges := c.keyExchanges + 1 } =
        .ok packet { c with keyExchanges := c.keyExchanges + 1, tcp := withBuffer c.tcp } :=
      zoom_of_ok hget
    -- up to the key exchange nothing of the context for sending has changed
    have hunsealed : ∀ {t : Client}, t.encCtx = none → t.keyExchanges = c.keyExchanges + 1 →
        t.tcp = withBuffer c.tcp → FlightUnsealed c t := by
      intro t hnone hcount ht
      refine ⟨by rw [sendNonces, hnone], hcount, ?_⟩
      rw [ht]
      exact List.drop_length
    refine Ends.seq (Ends.of_ok (Q := fun p t => packet = p ∧
      t = { c with keyExchanges := c.keyExchanges + 1, tcp := withBuffer c.tcp }) hpacket
        ⟨rfl, rfl⟩) ?_
    rintro _ _ ⟨rfl, rfl⟩
    refine ofExcept_bind_ends (fun _ => Or.inl (hunsealed hctx rfl rfl)) fun ws => ?_
    refine Ends.read (Ends.update ?_)
    dsimp only
    cases hkey : env.ossl.generateX25519Key c.drawn with
    | none => exact Or.inl (hunsealed hctx rfl rfl)
    | some key =>
      dsimp only
      cases hsecret : env.ossl.derive key (c.serverEphPubkey.take 32) with
      | none => exact Or.inl (hunsealed hctx rfl rfl)
      | some secret =>
        refine Ends.update (Ends.update ?_)
        change Ends _ (derived env.ossl secret (c.handshakeHash ++ keyExchange env.ossl key)
          (withBuffer c.tcp) c) _ _
        obtain ⟨hd, hwrite, hcount, htcp⟩ :=
          derived_sending env.ossl secret (c.handshakeHash ++ keyExchange env.ossl key)
            (withBuffer c.tcp) c
        generalize derived env.ossl secret (c.handshakeHash ++ keyExchange env.ossl key)
          (withBuffer c.tcp) c = d at hd hwrite hcount htcp ⊢
        have hunsealed : FlightUnsealed c d := by
          refine ⟨by rw [sendNonces, hd], hcount, ?_⟩
          rw [htcp]
          exact List.drop_length
        refine Ends.read ?_
        refine ofExcept_bind_ends (fun _ => Or.inl hunsealed) fun ws => ?_
        refine ofExcept_bind_ends (fun _ => Or.inl hunsealed) fun ws => ?_
        obtain ⟨ctx', hseals⟩ := @finished_seals env d packet _ _ _ ws
          (env.ossl.rawPublicKey key) (env.ossl.prf d.masterSecret.toList "client finished"
            (env.ossl.sha256 d.handshakeHash).toList 12) hlaid rfl hd
        have hsealed : FlightSealed env c _ :=
          ⟨_, _, d, ctx', hwrite, hcount, by rw [htcp]; rfl, hseals⟩
        exact (Ends.of_after hsealed).mono (fun _ _ h => h) fun _ _ h => Or.inr h
  · have herror : onTcp (Tcp.Client.getSendBuffer env.dpdk .PSH_ACK false)
        { c with keyExchanges := c.keyExchanges + 1 } =
        .error e { c with
          keyExchanges := c.keyExchanges + 1, tcp := { c.tcp with sender := device } } :=
      zoom_of_error hget
    unfold Ends
    rw [bind_of_error herror]
    refine Or.inl ⟨hnonces, rfl, ?_⟩
    rw [Tcp.Client.framesSince, hdevice, List.drop_length]

end Flight

/-! ## One call of `receive` -/

theorem sameSending_ordinary : Ordinary SameSending where
  stream _ := Moves.member (S := fun _ _ => True) (fun _ => trivial)
    fun _ _ _ => ⟨rfl, rfl, rfl, rfl⟩
  hash _ := Moves.update fun _ => ⟨rfl, rfl, rfl, rfl⟩
  serverRandom _ := Moves.update fun _ => ⟨rfl, rfl, rfl, rfl⟩
  serverEphPubkey _ := Moves.update fun _ => ⟨rfl, rfl, rfl, rfl⟩
  tcp _ := Moves.member (S := fun _ _ => True) (fun _ => trivial) fun _ _ _ => ⟨rfl, rfl, rfl, rfl⟩
  random ossl := by
    refine Moves.seq Moves.read fun c => ?_
    refine Moves.seq (Moves.update fun _ => ⟨rfl, rfl, rfl, rfl⟩) fun _ => ?_
    cases ossl.randBytes c.drawn with
    | none => exact Moves.raise _
    | some random => exact Moves.update fun _ => ⟨rfl, rfl, rfl, rfl⟩
  state _ := Moves.update fun _ => ⟨rfl, rfl, rfl, rfl⟩
  explicitIv _ := Moves.update fun _ => ⟨rfl, rfl, rfl, rfl⟩

theorem decrypt_sameSending (ossl : OpenSsl) (bytes : List UInt8) :
    Moves SameSending (decrypt ossl bytes) := by
  refine Moves.seq (require_moves _ _) fun _ => ?_
  refine Moves.seq Moves.read fun c => ?_
  cases c.decCtx with
  | none => exact Moves.raise _
  | some ctx => exact Moves.seq (Moves.update fun _ => ⟨rfl, rfl, rfl, rfl⟩) fun _ => Moves.ret _

/-- `receive` in the state `c` comes to `send_client_key_exchange_and_finished` in the state `d`. -/
structure KeyExchangesAt (c d : Client) : Prop where
  record : HoldsRecord c.stream
  state : c.handshakeState = .ServerHelloDone
  done : processServerHelloDone c = .ok true d

section Receive

variable {env : Env} {c d : Client}

theorem receiveOnce_keyExchange (h : KeyExchangesAt c d) : receiveOnce env c =
    (sendClientKeyExchangeAndFinished env >>= fun _ => setHandshakeState .ClientFinished >>=
      fun _ => get >>= fun c =>
        if c.stream.size ≥ RecordHeader.sizeof then pure .again else pure (.done none)) d := by
  rw [receiveOnce_complete env h.record, if_neg (by rw [h.state]; decide), processHandshake,
    bind_assoc, bind_of_ok (get_apply c), h.state]
  dsimp only
  rw [bind_assoc, bind_of_ok h.done, if_pos rfl, bind_assoc]

/-- Without the client's flight a call of `receive` encrypts nothing. -/
theorem receiveOnce_sameSending (env : Env) (h : ∀ d, ¬ KeyExchangesAt c d) :
    SameSending c (after (receiveOnce env c)) := by
  refine receiveOnce_related (fun _ => ?_) (fun hrec _ => ?_) (fun _ _ => ?_)
  · exact Moves.seq (sameSending_ordinary.sendClientHello env)
      (fun _ => sameSending_ordinary.state _) c
  · exact sameSending_ordinary.processHandshake env fun hstate d hdone =>
      absurd ⟨hrec, hstate, hdone⟩ (h d)
  · exact sameSending_ordinary.receiveRecord (decrypt_sameSending _) _ c

/-- With it the call encrypts the Finished message if it returns, and at most that. -/
theorem receiveOnce_seals (hd : KeyExchangesAt c d) (hctx : c.encCtx = none) :
    Ends (receiveOnce env) c
      (fun _ c' => FlightSealed env c c' ∧ c'.handshakeState = .ClientFinished)
      (fun _ c' => FlightUnsealed c c' ∨ FlightSealed env c c') := by
  have hparsed := sameSending_ordinary.serverHelloDone.moves sameSending_ordinary.stream c
  have hquiet := processServerHelloDone_popsHeader.quiet c
  rw [hd.done, after_ok] at hparsed hquiet
  have hunsealed : ∀ c', FlightUnsealed d c' → FlightUnsealed c c' := fun c' h =>
    ⟨h.nonces, by rw [h.keyExchanges, hparsed.keyExchanges], hquiet.tcp ▸ h.frames⟩
  have hsealed : ∀ c', FlightSealed env d c' → FlightSealed env c c' := by
    rintro c' ⟨publicKey, verifyData, d', ctx', hwrite, hcount, hsent, hseals⟩
    exact ⟨publicKey, verifyData, d', ctx', hwrite.trans hparsed.write,
      by rw [hcount, hparsed.keyExchanges], by rw [hsent, hquiet.tcp], hseals⟩
  unfold Ends
  rw [receiveOnce_keyExchange hd]
  refine Ends.seq ((sendClientKeyExchangeAndFinished_seals (hparsed.encCtx.trans hctx)).mono
    (fun _ => hsealed) fun _ t h => h.imp (hunsealed t) (hsealed t)) ?_
  rintro _ t ⟨publicKey, verifyData, d', ctx', hwrite, hcount, hsent, hseals⟩
  refine Ends.update (Ends.read ?_)
  have hdone : FlightSealed env c { t with handshakeState := .ClientFinished } :=
    ⟨publicKey, verifyData, d', ctx', hwrite, hcount, hsent, hseals.begins, hseals.encCtx,
      hseals.keys, hseals.keyExchanges, hseals.write, hseals.aad, hseals.frames⟩
  split
  · exact ⟨hdone, rfl⟩
  · exact ⟨hdone, rfl⟩

/-- A call keeps the handshake past the client's flight. -/
def StaysKeyed (c c' : Client) : Prop := c.handshakeState.Keyed → c'.handshakeState.Keyed

instance : Std.Refl StaysKeyed := ⟨fun _ => id⟩

theorem processHandshake_staysKeyed (env : Env) (c : Client) :
    StaysKeyed c (after (processHandshake env c)) := by
  intro hkeyed
  rw [processHandshake, bind_of_ok (get_apply c)]
  rcases hkeyed with hstate | hstate
  · have hquiet := processServerFinished_quiet c
    rw [hstate]
    dsimp only
    rw [bind_apply]
    cases hdone : processServerFinished c with
    | error e d =>
      rw [hdone] at hquiet
      exact Or.inl (hquiet.state.trans hstate)
    | ok done d =>
      rw [hdone] at hquiet
      cases done
      · exact Or.inl (hquiet.state.trans hstate)
      · exact Or.inr rfl
  · rw [hstate]
    exact Or.inr hstate

theorem receiveOnce_staysKeyed (env : Env) (c : Client) :
    StaysKeyed c (after (receiveOnce env c)) := by
  refine receiveOnce_related (fun hstate hkeyed => ?_) (fun _ _ => ?_) (fun _ _ hkeyed => ?_)
  · rcases hkeyed with h | h <;> rw [hstate] at h <;> cases h
  · exact processHandshake_staysKeyed env c
  · rw [(receiveRecord_quiet _ _ c).state]
    exact hkeyed

end Receive

/-! ## Adding a call to the past -/

section Concat

variable {env : Env} {keys : Keys} {past : List (Client × Call)} {x : Client × Call}
  {c c' d : Client} {call : Call} {e : Encryption}

theorem encryptions_concat (env : Env) (past : List (Client × Call)) (x : Client × Call) :
    encryptions env (past ++ [x]) = encryptions env past ++ encryptionsOf env x := by
  rw [encryptions, List.flatMap_append, List.flatMap_singleton, encryptions]

theorem encryptionsOf_same (h : SameSending c (call.run env c)) :
    encryptionsOf env (c, call) = [] := by
  rw [encryptionsOf, h.encCtx, sendNonces]
  cases c.encCtx with
  | none => rfl
  | some ctx => simp only [List.drop_length, List.map_nil]

theorem SameSending.not_exchangesKeys (h : SameSending c (call.run env c)) :
    ¬ ExchangesKeys env (c, call) := fun hlt => absurd h.keyExchanges (Nat.ne_of_gt hlt)

/-- A call without a call of `encrypt` sends nothing where a record could be expected. -/
theorem Disciplined.silent (h : Disciplined env keys past) (hx : encryptionsOf env x = [])
    (hframes : x.2.isFlush = true ∨ ExchangesKeys env x → framesOf env x = []) :
    Disciplined env keys (past ++ [x]) := by
  constructor
  · rw [encryptions_concat, hx, List.append_nil]
    exact h.numbered
  · refine h.sent.concat fun hsends frame hframe => ?_
    rw [hframes hsends] at hframe
    cases hframe

/-- A call with one call of `encrypt`, which has the next number. -/
theorem Disciplined.sealed (h : Disciplined env keys past) (hx : encryptionsOf env x = [e])
    (he : Numbered keys (completed (encryptions env past)) e)
    (hframes : ∀ frame ∈ framesOf env x, e.returned = true ∧
      RecordOf env.ossl (completed (encryptions env past)) e
        (Tcp.PacketView.ofBytes frame).payload.toList) :
    Disciplined env keys (past ++ [x]) := by
  constructor
  · rw [encryptions_concat, hx]
    exact h.numbered.concat he
  · exact h.sent.concat fun _ frame hframe => ⟨e, hx, hframes frame hframe⟩

end Concat

section Seals

variable {env : Env} {d c' : Client} {ctx ctx' : EncryptContext} {fails : Option EvpCall}
  {contentType : ContentType} {view : List UInt8} {wire : List UInt8 → List UInt8} {n : Nat}

theorem Seals.encryptionsOf {x : Client × Call}
    (h : Seals env fails contentType view wire ctx d (x.2.run env x.1) ctx')
    (hnonces : ctx.nonces = x.1.sendNonces) (hfails : x.2.fails = fails) :
    encryptionsOf env x = [⟨ctx.key, nextNonce d, ctx'.aad, fails.isNone⟩] := by
  obtain ⟨hkey, hbegins⟩ := h.begins
  rw [Client.encryptionsOf, h.encCtx]
  dsimp only
  rw [hbegins, hnonces, List.drop_left, List.map_singleton, hkey, hfails]

theorem nextNonce_ofNat (h : d.writeSequenceNumber = UInt64.ofNat n) :
    beBytes 8 d.writeSequenceNumber.toNat = beBytes 8 n := by
  rw [h, UInt64.toNat_ofNat']
  exact beBytes_mod (Nat.le_refl 8) n

theorem Seals.numbered (h : Seals env fails contentType view wire ctx d c' ctx')
    (hkey : ctx.key = d.keys.clientWriteKey) (hn : d.writeSequenceNumber = UInt64.ofNat n)
    (htype : contentType = typeOfNumber n) :
    Numbered c'.keys n ⟨ctx.key, nextNonce d, ctx'.aad, fails.isNone⟩ := by
  refine ⟨?_, ?_, fun hreturned => ?_⟩
  · rw [h.keys]
    exact hkey
  · rw [h.keys, nextNonce, nextNonce_ofNat hn]
  · refine ⟨view.length, ?_⟩
    rw [← htype, ← hn]
    exact h.aad (Option.isNone_iff_eq_none.mp hreturned)

/-- A call with one call of `encrypt` keeps the discipline, if the number is the next one and what
is sent is a record with it. -/
theorem Seals.disciplined {past : List (Client × Call)} {x : Client × Call}
    (h : Seals env fails contentType view wire ctx d (x.2.run env x.1) ctx')
    (hnonces : ctx.nonces = x.1.sendNonces) (hfails : x.2.fails = fails)
    (hsent : d.tcp.sender.transmitted = x.1.tcp.sender.transmitted)
    (hkey : ctx.key = d.keys.clientWriteKey)
    (hn : d.writeSequenceNumber = UInt64.ofNat (completed (encryptions env past)))
    (htype : contentType = typeOfNumber (completed (encryptions env past)))
    (hrecord : RecordOf env.ossl (completed (encryptions env past))
      ⟨ctx.key, nextNonce d, additionalAuthData d.writeSequenceNumber contentType view.length, true⟩
      (wire (gcmSeal env.ossl ctx.key (nextNonce d)
        (additionalAuthData d.writeSequenceNumber contentType view.length) view)))
    (hpast : Disciplined env (x.2.run env x.1).keys past) :
    Disciplined env (x.2.run env x.1).keys (past ++ [x]) := by
  refine hpast.sealed (h.encryptionsOf hnonces hfails) (h.numbered hkey hn htype)
    fun frame hframe => ?_
  rw [framesOf, Tcp.Client.framesSince, ← hsent] at hframe
  obtain ⟨rfl, hpayload⟩ := h.frames frame hframe
  rw [hpayload, h.aad rfl]
  exact ⟨rfl, hrecord⟩

theorem Seals.write_eq {x : Client × Call} {past : List (Client × Call)}
    (h : Seals env fails contentType view wire ctx d (x.2.run env x.1) ctx')
    (hnonces : ctx.nonces = x.1.sendNonces) (hfails : x.2.fails = fails)
    (hn : d.writeSequenceNumber = UInt64.ofNat (completed (encryptions env past))) :
    (x.2.run env x.1).writeSequenceNumber =
        UInt64.ofNat (completed (encryptions env (past ++ [x]))) ∧
      completed (encryptions env (past ++ [x])) =
        completed (encryptions env past) + if fails.isNone then 1 else 0 := by
  have hcount : completed (encryptions env (past ++ [x])) =
      completed (encryptions env past) + if fails.isNone then 1 else 0 := by
    rw [encryptions_concat, h.encryptionsOf hnonces hfails, completed, List.countP_append,
      List.countP_singleton]
    rfl
  refine ⟨?_, hcount⟩
  rw [hcount, h.write, hn, UInt64.ofNat_add]
  split
  · rfl
  · rfl

end Seals

/-! ## Runs -/

/-- The client's own flight is not sent yet. -/
structure Unkeyed (env : Env) (past : List (Client × Call)) (c : Client) : Prop where
  keyExchanges : c.keyExchanges = 0
  encCtx : c.encCtx = none
  write : c.writeSequenceNumber = 0
  none : encryptions env past = []
  disciplined (keys : Keys) : Disciplined env keys past

/-- The client's own flight is sent. -/
structure Counting (env : Env) (past : List (Client × Call)) (c : Client) : Prop where
  keyExchanges : c.keyExchanges = 1
  state : c.handshakeState.Keyed
  context : ∃ ctx, c.encCtx = some ctx ∧ ctx.key = c.keys.clientWriteKey
  started : completed (encryptions env past) ≠ 0
  write : c.writeSequenceNumber = UInt64.ofNat (completed (encryptions env past))
  length : (encryptions env past).length ≤ past.countP (·.2.isFlush) + 1
  disciplined : Disciplined env c.keys past

/-- What an exception in the client's own flight leaves behind. -/
structure Stopped (env : Env) (past : List (Client × Call)) (c : Client) : Prop where
  keyExchanges : c.keyExchanges = 1
  length : (encryptions env past).length ≤ past.countP (·.2.isFlush) + 1
  disciplined : Disciplined env c.keys past

/-- The call threw while it sent the client's flight. -/
def FlightThrows (env : Env) (x : Client × Call) : Prop :=
  ExchangesKeys env x ∧ x.2.threw env x.1 = true

instance (env : Env) (x : Client × Call) : Decidable (FlightThrows env x) :=
  inferInstanceAs (Decidable (_ < _ ∧ _ = true))

section Steps

variable {env : Env} {past : List (Client × Call)} {c c' d : Client} {call : Call}

theorem Unkeyed.same (h : Unkeyed env past c) (hsame : SameSending c (call.run env c))
    (hframes : call.isFlush = true → framesOf env (c, call) = []) :
    Unkeyed env (past ++ [(c, call)]) (call.run env c) := by
  have hnothing := encryptionsOf_same hsame
  refine ⟨hsame.keyExchanges.trans h.keyExchanges, hsame.encCtx.trans h.encCtx,
    hsame.write.trans h.write, ?_, fun keys => ?_⟩
  · rw [encryptions_concat, hnothing, h.none, List.append_nil]
  · exact (h.disciplined keys).silent hnothing fun hsends =>
      hsends.elim hframes fun hkeys => absurd hkeys hsame.not_exchangesKeys

theorem Counting.same (h : Counting env past c) (hsame : SameSending c (call.run env c))
    (hstate : (call.run env c).handshakeState.Keyed)
    (hframes : call.isFlush = true → framesOf env (c, call) = []) :
    Counting env (past ++ [(c, call)]) (call.run env c) := by
  have hnothing := encryptionsOf_same hsame
  have hall : encryptions env (past ++ [(c, call)]) = encryptions env past := by
    rw [encryptions_concat, hnothing, List.append_nil]
  refine ⟨hsame.keyExchanges.trans h.keyExchanges, hstate, ?_, ?_, ?_, ?_, ?_⟩
  · rw [hsame.encCtx, hsame.keys]
    exact h.context
  · rw [hall]
    exact h.started
  · rw [hall, hsame.write]
    exact h.write
  · rw [hall, List.countP_append]
    exact Nat.le_trans h.length (by omega)
  · rw [hsame.keys]
    exact h.disciplined.silent hnothing fun hsends =>
      hsends.elim hframes fun hkeys => absurd hkeys hsame.not_exchangesKeys

/-- A flush after the flight: if it encrypts, then with the next number, and it counts if it could
encrypt to the end. -/
theorem Counting.flush (h : Counting env past c) (hcapacity : c.sendBuffer.capacity = 20600)
    (fails : Option EvpCall) :
    Counting env (past ++ [(c, .flush fails)]) (after (flushWith fails env c)) := by
  obtain ⟨ctx, hctx, hkey⟩ := h.context
  have hstate : (after (flushWith fails env c)).handshakeState = c.handshakeState :=
    ((flushWith_reached fails env c).mono (fun _ _ h => h.2) (fun _ _ h => h.2)).after
  rcases @flushWith_seals env c ctx fails hctx hcapacity with
    ⟨hsame, hframes⟩ | ⟨d, ctx', hd, hsent, hseals⟩
  · exact @Counting.same env past c (.flush fails) h hsame (hstate ▸ h.state) fun _ => hframes
  · have hnonces : ctx.nonces = c.sendNonces := by rw [sendNonces, hctx]
    have hn := hd.write.trans h.write
    have hkey' : ctx.key = d.keys.clientWriteKey := by rw [hd.keys, hkey]
    have hone := @Seals.encryptionsOf _ _ _ _ _ _ _ _ (c, .flush fails) hseals hnonces rfl
    obtain ⟨hwrite, hcount⟩ :=
      @Seals.write_eq _ _ _ _ _ _ _ _ (c, .flush fails) past hseals hnonces rfl hn
    refine ⟨?_, hstate ▸ h.state, ⟨ctx', hseals.encCtx, ?_⟩, ?_, hwrite, ?_, ?_⟩
    · rw [hseals.keyExchanges, hd.keyExchanges]
      exact h.keyExchanges
    · rw [hseals.begins.1, hseals.keys]
      exact hkey'
    · rw [hcount]
      exact Nat.ne_of_gt (Nat.lt_of_lt_of_le (Nat.pos_of_ne_zero h.started) (Nat.le_add_right _ _))
    · have hlength := h.length
      rw [encryptions_concat, hone, List.length_append, List.countP_append]
      exact Nat.add_le_add_right hlength 1
    · refine @Seals.disciplined _ _ _ _ _ _ _ _ past (c, .flush fails) hseals hnonces rfl hsent
        hkey' hn (if_neg h.started).symm ?_ ?_
      · rw [← hd.write, nextNonce_ofNat hn]
        exact .data c.sendBuffer.content h.started (by rw [hn])
      · change Disciplined env (after (flushWith fails env c)).keys past
        rw [hseals.keys, hd.keys]
        exact h.disciplined

/-- The flight: its Finished message, if it is encrypted, has the number `0`. -/
theorem Unkeyed.flight (h : Unkeyed env past c)
    (hseals : FlightSealed env c (after (receiveOnce env c))) :
    Stopped env (past ++ [(c, .receive)]) (after (receiveOnce env c)) ∧
      ∀ s : HandshakeState, (after (receiveOnce env c)).handshakeState = s → s.Keyed →
        Counting env (past ++ [(c, .receive)]) (after (receiveOnce env c)) := by
  obtain ⟨publicKey, verifyData, d, ctx', hwrite, hcount, hsent, hseals⟩ := hseals
  have hzero : completed (encryptions env past) = 0 := by rw [h.none]; rfl
  have hnonces : [] = c.sendNonces := by rw [sendNonces, h.encCtx]
  have hn : d.writeSequenceNumber = UInt64.ofNat (completed (encryptions env past)) := by
    rw [hwrite, h.write, hzero]
    rfl
  have hone := @Seals.encryptionsOf _ _ _ _ _ _ _ _ (c, .receive) hseals hnonces rfl
  obtain ⟨hwrite', hcompleted⟩ :=
    @Seals.write_eq _ _ _ _ _ _ _ _ (c, .receive) past hseals hnonces rfl hn
  have hstopped : Stopped env (past ++ [(c, .receive)]) (after (receiveOnce env c)) := by
    refine ⟨?_, ?_, ?_⟩
    · rw [hseals.keyExchanges, hcount, h.keyExchanges]
    · rw [encryptions_concat, hone, h.none]
      exact Nat.le_add_left _ _
    · refine @Seals.disciplined _ _ _ _ _ _ _ _ past (c, .receive) hseals hnonces rfl hsent rfl hn
        (by rw [hzero]; rfl) ?_ (h.disciplined _)
      have hlength : (finishedHandshakeMessage verifyData).length = 16 := by
        simp [finishedHandshakeMessage, HandshakeHeader.bytes]
      rw [nextNonce_ofNat hn]
      exact .finished publicKey verifyData hzero (by rw [hn, hlength])
  refine ⟨hstopped, fun s hs hkeyed => ?_⟩
  refine ⟨hstopped.keyExchanges, hs ▸ hkeyed, ⟨ctx', hseals.encCtx, ?_⟩, ?_, hwrite',
    hstopped.length, hstopped.disciplined⟩
  · rw [hseals.begins.1, hseals.keys]
  · rw [hcompleted]
    exact Nat.succ_ne_zero _

/-- A flight that throws before it encrypts. -/
theorem Unkeyed.unsealed (h : Unkeyed env past c)
    (hunsealed : FlightUnsealed c (after (receiveOnce env c))) :
    Stopped env (past ++ [(c, .receive)]) (after (receiveOnce env c)) := by
  have hnothing : encryptionsOf env (c, .receive) = [] := by
    have hnonces := hunsealed.nonces
    rw [encryptionsOf, Call.run]
    rw [sendNonces] at hnonces
    cases hctx : (after (receiveOnce env c)).encCtx with
    | none => rfl
    | some ctx =>
      rw [hctx] at hnonces
      dsimp only at hnonces ⊢
      rw [hnonces, List.drop_nil, List.map_nil]
  refine ⟨?_, ?_, ?_⟩
  · rw [hunsealed.keyExchanges, h.keyExchanges]
  · rw [encryptions_concat, hnothing, h.none]
    exact Nat.zero_le _
  · exact (h.disciplined _).silent hnothing fun _ => hunsealed.frames

/-- One call: the client waits for its flight or counts, or the call throws in the flight. -/
theorem step (h : Unkeyed env past c ∨ Counting env past c)
    (hcapacity : c.sendBuffer.capacity = 20600) (call : Call) :
    (Unkeyed env (past ++ [(c, call)]) (call.run env c) ∨
        Counting env (past ++ [(c, call)]) (call.run env c)) ∨
      (FlightThrows env (c, call) ∧ Stopped env (past ++ [(c, call)]) (call.run env c)) := by
  cases call with
  | processPacket p =>
    have hquiet : (Call.processPacket p).isFlush = true → framesOf env (c, .processPacket p) = [] :=
      fun h => absurd h Bool.false_ne_true
    have hsame : SameSending c (after (Client.processPacket env p c)) := by
      refine Moves.seq (sameSending_ordinary.tcp _) (fun _ => ?_) c
      refine Moves.seq (Moves.update fun _ => ⟨rfl, rfl, rfl, rfl⟩) fun _ => ?_
      exact Moves.member (S := fun _ _ => True) (fun _ => trivial) fun _ _ _ => ⟨rfl, rfl, rfl, rfl⟩
    refine Or.inl (h.imp (fun hc => hc.same hsame hquiet) fun hc => hc.same hsame ?_ hquiet)
    exact (processPacket_state env p c).symm ▸ hc.state
  | pushString str =>
    have hquiet : (Call.pushString str).isFlush = true → framesOf env (c, .pushString str) = [] :=
      fun h => absurd h Bool.false_ne_true
    have hmoves : Moves SameSending (Client.pushString str) :=
      Moves.member (S := fun _ _ => True) (fun _ => trivial) fun _ _ _ => ⟨rfl, rfl, rfl, rfl⟩
    have hsame : SameSending c (after (Client.pushString str c)) := hmoves c
    refine Or.inl (h.imp (fun hc => hc.same hsame hquiet) fun hc => hc.same hsame ?_ hquiet)
    exact (quiet_onSendBuffer (Stream.pushString str) c).state.symm ▸ hc.state
  | flush fails =>
    refine Or.inl (h.imp (fun hc => ?_) fun hc => hc.flush hcapacity fails)
    obtain ⟨hsame, hframes⟩ := @flushWith_unkeyed env c fails hc.encCtx
    exact hc.same hsame fun _ => hframes
  | receive =>
    by_cases hkeys : ∃ d, KeyExchangesAt c d
    · obtain ⟨d, hd⟩ := hkeys
      rcases h with hc | hc
      · have hends := @receiveOnce_seals env c d hd hc.encCtx
        cases honce : receiveOnce env c with
        | ok next c' =>
          obtain ⟨hsealed, hstate⟩ := hends.ok honce
          have hafter : after (receiveOnce env c) = c' := by rw [honce]; rfl
          rw [← hafter] at hsealed hstate
          exact Or.inl (Or.inr ((hc.flight hsealed).2 _ hstate (Or.inl rfl)))
        | error e c' =>
          have hafter : after (receiveOnce env c) = c' := by rw [honce]; rfl
          have hstopped : Stopped env (past ++ [(c, .receive)]) (after (receiveOnce env c)) := by
            rcases hends.error honce with hunsealed | hsealed
            · exact hc.unsealed (hafter.symm ▸ hunsealed)
            · exact (hc.flight (hafter.symm ▸ hsealed)).1
          refine Or.inr ⟨⟨?_, ?_⟩, hstopped⟩
          · change c.keyExchanges < (after (receiveOnce env c)).keyExchanges
            rw [hc.keyExchanges, hstopped.keyExchanges]
            exact Nat.one_pos
          · change threw (receiveOnce env c) = true
            rw [honce]
            rfl
      · rcases hc.state with hstate | hstate <;> rw [hd.state] at hstate <;> cases hstate
    · have hquiet : Call.receive.isFlush = true → framesOf env (c, .receive) = [] :=
        fun h => absurd h Bool.false_ne_true
      have hsame := receiveOnce_sameSending env fun d hd => hkeys ⟨d, hd⟩
      refine Or.inl (h.imp (fun hc => hc.same hsame hquiet) fun hc => hc.same hsame ?_ hquiet)
      exact receiveOnce_staysKeyed env c hc.state

theorem Run.keyed (h : Run env past c) (hflight : ∀ x ∈ past, ¬ FlightThrows env x) :
    Unkeyed env past c ∨ Counting env past c := by
  have hinvariant : Reachable env c ∧ ((∀ x ∈ past, ¬ FlightThrows env x) →
      Unkeyed env past c ∨ Counting env past c) := by
    refine h.invariant (I := fun past c => Reachable env c ∧
      ((∀ x ∈ past, ¬ FlightThrows env x) → Unkeyed env past c ∨ Counting env past c))
      (fun sniHostname tcp => ⟨.construct env sniHostname tcp, fun _ => Or.inl ?_⟩)
      fun past c call ih => ⟨ih.1.call call, fun hflight => ?_⟩
    · have hsame : SameSending (.init sniHostname tcp) (constructed env sniHostname tcp) :=
        Moves.seq (sameSending_ordinary.random _) (fun _ => sameSending_ordinary.tcp _) _
      refine ⟨hsame.keyExchanges, hsame.encCtx, hsame.write, rfl, fun keys => ⟨?_, ?_⟩⟩
      · exact .of_forall_mem fun e he => absurd he List.not_mem_nil
      · exact .of_forall_mem fun x hx => absurd hx List.not_mem_nil
    · have hbefore := ih.2 fun x hx => hflight x (List.mem_append_left _ hx)
      refine (step hbefore ih.1.sending.2 call).resolve_right fun hstopped => ?_
      exact hflight (c, call) (List.mem_append_right _ List.mem_cons_self) hstopped.1
  exact hinvariant.2 hflight

end Steps

/-- Calls of `encrypt` that are numbered share a nonce only up to the first of them that returns. -/
theorem pairwise_of_numbered {keys : Keys} {es : List Encryption}
    (h : Throughout (fun before e => Numbered keys (completed before) e) es)
    (hlength : es.length ≤ 2 ^ 64) :
    es.Pairwise fun e e' => e.returned = true → e.nonce ≠ e'.nonce := by
  have hnumbered : ∀ i (hi : i < es.length), Numbered keys (completed (es.take i)) es[i] ∧
      completed (es.take i) < 2 ^ 64 := by
    intro i hi
    have hcount : completed (es.take i) ≤ i :=
      Nat.le_trans List.countP_le_length (List.length_take_le i es)
    refine ⟨h _ _ (es.drop (i + 1)) ?_, by omega⟩
    rw [List.getElem_cons_drop, List.take_append_drop]
  rw [List.pairwise_iff_getElem]
  intro i j hi hj hij hreturned hnonce
  obtain ⟨hnumi, hlti⟩ := hnumbered i hi
  obtain ⟨hnumj, hltj⟩ := hnumbered j hj
  rw [hnumi.nonce, hnumj.nonce] at hnonce
  have hbytes := congrArg beNat (List.append_cancel_left hnonce)
  rw [beNat_beBytes_of_lt hlti, beNat_beBytes_of_lt hltj] at hbytes
  have hmore : completed (es.take i) + 1 ≤ completed (es.take j) := by
    have hnext : completed (es.take (i + 1)) = completed (es.take i) + 1 := by
      rw [List.take_succ_eq_append_getElem hi, completed, List.countP_append,
        List.countP_singleton, if_pos hreturned]
      rfl
    rw [← hnext]
    exact (List.take_prefix_take_left hij).countP_le
  omega

/-- **Nonce discipline**: in every run with fewer than `2 ^ 64` flushes, whatever they throw, which
ends at the latest with an exception in the client's own flight, that flight is sent at most once.
All calls of `encrypt` use the client's key, and each has the number of those that returned before
it, in its nonce and its additional data, as has the record sent with what it returned, from `0` on
for the Finished message. So a nonce is never used again once a call with it has returned. -/
theorem nonce_discipline (env : Env) (past : List (Client × Call)) (c : Client)
    (hrun : Run env past c) (hflight : ∀ x ∈ past.dropLast, ¬ FlightThrows env x)
    (hflushes : past.countP (·.2.isFlush) < 2 ^ 64) :
    c.keyExchanges ≤ 1 ∧ Disciplined env c.keys past ∧
      (encryptions env past).Pairwise fun e e' => e.returned = true → e.nonce ≠ e'.nonce := by
  have hend : c.keyExchanges ≤ 1 ∧ Disciplined env c.keys past ∧
      (encryptions env past).length ≤ past.countP (·.2.isFlush) + 1 := by
    have hkeyed : Unkeyed env past c ∨ Counting env past c → c.keyExchanges ≤ 1 ∧
        Disciplined env c.keys past ∧
        (encryptions env past).length ≤ past.countP (·.2.isFlush) + 1 := by
      rintro (hc | hc)
      · refine ⟨by rw [hc.keyExchanges]; exact Nat.zero_le 1, hc.disciplined _, ?_⟩
        rw [hc.none]
        exact Nat.zero_le _
      · exact ⟨Nat.le_of_eq hc.keyExchanges, hc.disciplined, hc.length⟩
    rcases List.eq_nil_or_concat' past with rfl | ⟨before, ⟨c₀, call⟩, rfl⟩
    · exact hkeyed (hrun.keyed hflight)
    · rw [List.dropLast_concat] at hflight
      obtain ⟨hbefore, rfl⟩ := hrun.of_concat
      rcases step (hbefore.keyed hflight) (Reachable.sending ⟨before, hbefore⟩).2 call with
        hc | ⟨-, hc⟩
      · exact hkeyed hc
      · exact ⟨Nat.le_of_eq hc.keyExchanges, hc.disciplined, hc.length⟩
  obtain ⟨honce, hdisciplined, hlength⟩ := hend
  exact ⟨honce, hdisciplined, pairwise_of_numbered hdisciplined.numbered (by omega)⟩

/-! ### A flush that fails, and one that does not -/

/-- The calls of the sample handshake, and then two flushes: in the first of them OpenSSL fails. -/
def retryCalls : List Call :=
  [.processPacket (Tcp.Client.synAck 0), .receive,
    .processPacket (Tcp.Client.segment 1 sampleFlight), .receive, .receive, .receive, .receive,
    .processPacket (Tcp.Client.segment 117 [0x14, 3, 3, 0, 1, 1, 0x16, 3, 3, 0, 0]), .receive,
    .pushString [7], .flush (some .finalEx), .pushString [8], .flush none]

def sampleStart : Client := constructed sampleEnv [] (.new Tcp.Client.sampleConnection {} 7 0)

def retryPast : List (Client × Call) := trail (Call.run sampleEnv) sampleStart retryCalls

def retryClient : Client := retryCalls.foldl (Call.run sampleEnv) sampleStart

theorem retryRun : Run sampleEnv retryPast retryClient := ⟨_, retryCalls, ⟨_, _, rfl⟩, rfl, rfl⟩

theorem retryPast_flushes : retryPast.countP (·.2.isFlush) = 2 := by decide +kernel

theorem retryPast_flight : ∀ x ∈ retryPast, ¬ FlightThrows sampleEnv x := by decide +kernel

/-- The Finished message and two flushes have encrypted, and all but the first flush have sent. -/
theorem retryPast_encryptions :
    (encryptions sampleEnv retryPast).map (fun e => (e.nonce, e.returned)) =
        [(List.replicate 12 0, true), (List.replicate 11 0 ++ [1], false),
          (List.replicate 11 0 ++ [1], true)] ∧
      retryPast.map (fun x => (framesOf sampleEnv x).length) =
        [1, 1, 1, 0, 0, 0, 1, 1, 0, 0, 0, 0, 1] := by
  decide +kernel

theorem retryPast_disciplined :
    (encryptions sampleEnv retryPast).length = 3 ∧ retryClient.keyExchanges ≤ 1 ∧
      Disciplined sampleEnv retryClient.keys retryPast ∧
      (encryptions sampleEnv retryPast).Pairwise
        fun e e' => e.returned = true → e.nonce ≠ e'.nonce := by
  have hlength := congrArg List.length retryPast_encryptions.1
  rw [List.length_map] at hlength
  refine ⟨hlength, nonce_discipline sampleEnv retryPast retryClient retryRun ?_ ?_⟩
  · exact fun x hx => retryPast_flight x (List.dropLast_subset _ hx)
  · rw [retryPast_flushes]
    decide

/-- The flush after one in which OpenSSL has failed uses its nonce again. -/
theorem failed_nonce_used_again :
    Run sampleEnv retryPast retryClient ∧ (∀ x ∈ retryPast, ¬ FlightThrows sampleEnv x) ∧
      retryPast.countP (·.2.isFlush) = 2 ∧
      ¬ ((encryptions sampleEnv retryPast).map Encryption.nonce).Nodup := by
  refine ⟨retryRun, retryPast_flight, retryPast_flushes, ?_⟩
  have hnonces := congrArg (List.map Prod.fst) retryPast_encryptions.1
  rw [List.map_map] at hnonces
  replace hnonces : (encryptions sampleEnv retryPast).map Encryption.nonce = _ := hnonces
  rw [hnonces]
  decide

end Client

end WsGateway.Network.Tls12
