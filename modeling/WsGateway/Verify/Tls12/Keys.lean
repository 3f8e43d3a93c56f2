import WsGateway.Verify.Tls12.Delivery
import WsGateway.Verify.Tls12.Record

/-!
# The keys for reading, and what they protect

In every reachable state the context for reading has the server's write key once
the handshake is past the client's Finished. `receive` then decrypts each record
with that key, but it never sets the expected tag and never finishes the
decryption, so the tag is not looked at: every record long enough to have one is
returned.
-/

namespace WsGateway.Network.Tls12

open Library

namespace Client

/-! ## The context for reading -/

/-- The context for reading has the server's write key, and it exists when it is needed. -/
structure Keyed (c : Client) : Prop where
  installed : c.handshakeState.Keyed → c.decCtx.isSome
  key : ∀ ctx, c.decCtx = some ctx →
    ctx.key = c.keys.serverWriteKey ∧ c.ivServerWriteIv = c.keys.serverWriteIv
  capacity : c.stream.capacity = 20600

variable {env : Env} {c c' : Client}

theorem Update.keyed (h : Update c c') (hc : Keyed c) : Keyed c' := by
  obtain ⟨hinstalled, hkey, hcap⟩ := hc
  cases h with
  | sends t h => exact ⟨hinstalled, hkey, hcap⟩
  | reads n h => exact ⟨hinstalled, hkey, by simpa using hcap⟩
  | scratch _ h =>
    refine ⟨fun hs => ?_, fun ctx hctx => ?_, ?_⟩
    · rw [h.decCtx]
      exact hinstalled (h.state ▸ hs)
    · rw [h.keys, h.iv]
      exact hkey ctx (h.decCtx ▸ hctx)
    · rw [h.stream]
      exact hcap
  | rekeys masterSecret keys enc dec h =>
    refine ⟨fun _ => rfl, fun ctx hctx => ?_, hcap⟩
    cases hctx
    exact ⟨h, rfl⟩
  | deciphers dec dec' n h hdec =>
    refine ⟨fun _ => rfl, fun ctx hctx => ?_, hcap⟩
    cases hctx
    obtain ⟨hserver, hiv⟩ := hkey dec h
    exact ⟨hdec.trans hserver, hiv⟩
  | early s h => exact ⟨fun hs => absurd hs h, hkey, hcap⟩
  | clientFinished h => exact ⟨fun _ => h, hkey, hcap⟩
  | serverFinished h => exact ⟨fun _ => hinstalled (Or.inl h), hkey, hcap⟩

theorem Updates.keyed (h : Updates c c') (hc : Keyed c) : Keyed c' :=
  h.invariant (fun _ _ => Update.keyed) hc

/-- A call keeps the invariant. -/
def KeepsKeyed (c c' : Client) : Prop := Keyed c → Keyed c'

instance : Std.Refl KeepsKeyed := ⟨fun _ => id⟩

instance : IsTrans Client KeepsKeyed := ⟨fun _ _ _ h h' => h' ∘ h⟩

theorem onTcp_keepsKeyed {α : Type} (x : Prog Tcp.Client α) : Moves KeepsKeyed (onTcp x) :=
  Moves.member (S := fun _ _ => True) (fun _ => trivial) fun _ _ _ h =>
    ⟨h.installed, h.key, h.capacity⟩

theorem pushBytes_capacity (bytes : ByteView) :
    Moves (fun s s' => s'.capacity = s.capacity) (Stream.pushBytes bytes) := by
  intro s
  obtain ⟨-, herr⟩ | ⟨s', hok, -, hcap⟩ := s.pushBytes_cases bytes
  · rw [herr]
    rfl
  · rw [hok]
    exact hcap

theorem processPacket_keepsKeyed (env : Env) (p : Tcp.PacketView) :
    Moves KeepsKeyed (processPacket env p) := by
  refine Moves.seq (onTcp_keepsKeyed _) fun _ => ?_
  refine Moves.seq (Moves.update fun c h => ⟨h.installed, h.key, h.capacity⟩) fun _ => ?_
  exact Moves.member (pushBytes_capacity p.payload) fun c s hs h =>
    ⟨h.installed, h.key, hs.trans h.capacity⟩

theorem construct_keepsKeyed (env : Env) : Moves KeepsKeyed (construct env) :=
  Moves.seq (fun c hc => (quiet_generateClientRandom env.ossl c).updates.keyed hc)
    fun _ => onTcp_keepsKeyed _

theorem init_keyed (sniHostname : List UInt8) (tcp : Tcp.Client) :
    Keyed (init sniHostname tcp) := by
  refine ⟨fun h => ?_, fun ctx hctx => ?_, rfl⟩
  · rcases h with h | h <;> cases h
  · cases hctx

/-- **The keys for reading** are the server's in every reachable state. -/
theorem Reachable.keyed (h : Reachable env c) : Keyed c := by
  refine h.invariant (fun sniHostname tcp => ?_) fun c call hc => ?_
  · exact construct_keepsKeyed env _ (init_keyed sniHostname tcp)
  · cases call with
    | processPacket p => exact processPacket_keepsKeyed env p c hc
    | receive => exact (receiveOnce_updates env c).keyed hc
    | pushString str => exact (quiet_onSendBuffer (Stream.pushString str) c).updates.keyed hc
    | flush fails => exact (flushWith_updates fails env c).keyed hc

/-! ## One application record -/

/-- The bytes of the first record before its ciphertext, and the ciphertext with the tag. -/
def explicitIvOf (s : Stream) : List UInt8 := (s.content.drop 5).take kExplicitIvSize

def ciphertextOf (s : Stream) : List UInt8 :=
  (s.content.drop 13).take ((firstRecord s).size - kExplicitIvSize)

/-- The plaintext that counter mode gives for a ciphertext with its tag. -/
def gcmPlaintext (ossl : OpenSsl) (key : AES128Key) (nonce ciphertext : List UInt8) : List UInt8 :=
  (ciphertext.mapIdx fun i b => b ^^^ ossl.gcmKeystream key nonce i).take
    (ciphertext.length - kGcmTagSize)

theorem length_gcmPlaintext (ossl : OpenSsl) (key : AES128Key) (nonce ciphertext : List UInt8) :
    (gcmPlaintext ossl key nonce ciphertext).length = ciphertext.length - kGcmTagSize := by
  simp [gcmPlaintext]

theorem decrypt_of_some {ossl : OpenSsl} {ctx : EncryptContext} {bytes : List UInt8}
    (hctx : c.decCtx = some ctx) (hlen : kGcmTagSize < bytes.length) :
    ∃ ctx', ctx'.key = ctx.key ∧ ctx'.aad =
        additionalAuthData c.readSequenceNumber .ApplicationData bytes.length ∧
      decrypt ossl bytes c =
      .ok (gcmPlaintext ossl ctx.key (c.ivServerWriteIv.toList ++ c.ivExplicitIv) bytes)
        { c with decCtx := some ctx', readSequenceNumber := c.readSequenceNumber + 1 } := by
  refine ⟨⟨ctx.key, c.ivServerWriteIv.toList ++ c.ivExplicitIv,
    additionalAuthData c.readSequenceNumber .ApplicationData bytes.length, bytes,
    ctx.nonces ++ [c.ivServerWriteIv.toList ++ c.ivExplicitIv]⟩, rfl, rfl, ?_⟩
  rw [decrypt, require_bind, if_pos (by simpa using hlen), bind_of_ok (get_apply c), hctx]
  dsimp only
  rw [bind_of_ok (modify_apply _ c)]
  simp [EncryptContext.init, EncryptContext.updateAad, EncryptContext.decryptUpdate,
    EncryptContext.applyKeystream, gcmPlaintext]

theorem decrypt_short {ossl : OpenSsl} {bytes : List UInt8} (hlen : bytes.length ≤ kGcmTagSize) :
    decrypt ossl bytes c = .error (.runtimeError "Ciphertext too small") c := by
  rw [decrypt, require_bind, if_neg (by simpa using hlen)]

/-- With a complete record after the handshake `receive` is `receiveRecord`. -/
theorem receive_finished (hrec : HoldsRecord c.stream) (hstate : c.handshakeState = .ServerFinished) :
    receive env c = receiveRecord env.ossl (firstRecord c.stream) c := by
  have honce := receiveOnce_complete env hrec
  rw [if_pos hstate] at honce
  unfold receive
  rw [receiveFuel, honce, bind_apply]
  cases receiveRecord env.ossl (firstRecord c.stream) c <;> rfl

/-- The client after the bytes of its first record were taken out. -/
def afterPops (c : Client) (s : Stream) : Client :=
  { c with stream := s, ivExplicitIv := explicitIvOf c.stream }

/-- The part of `receiveRecord` after the record header. -/
def receiveBody (ossl : OpenSsl) (size : Nat) : Prog Client (Option (List UInt8)) := do
  let some explicitIv ← onStream (Stream.pop kExplicitIvSize) | return none
  modify fun c => { c with ivExplicitIv := explicitIv }
  let some ciphertext ← onStream (Stream.pop (sizeSub size kExplicitIvSize)) | return none
  return some (← decrypt ossl ciphertext)

theorem receiveRecord_eq {ossl : OpenSsl} (hrec : HoldsRecord c.stream)
    (htype : (firstRecord c.stream).contentType = .ApplicationData) :
    receiveRecord ossl (firstRecord c.stream) c =
      receiveBody ossl (firstRecord c.stream).size (c.afterHeader hrec.header) := by
  rw [receiveRecord, bind_of_ok (onStream_popObject_record hrec.header), require_bind,
    if_pos (by rfl), require_bind, if_pos (by simpa using htype)]
  rfl

/-- A record with an explicit nonce is popped and decrypted. -/
theorem receiveRecord_long {ossl : OpenSsl} (hrec : HoldsRecord c.stream)
    (htype : (firstRecord c.stream).contentType = .ApplicationData)
    (hsize : kExplicitIvSize ≤ (firstRecord c.stream).size) (hcap : c.stream.capacity < 2 ^ 63) :
    ∃ s, s.content = afterRecord c.stream ∧ s.capacity = c.stream.capacity ∧
      receiveRecord ossl (firstRecord c.stream) c =
        (decrypt ossl (ciphertextOf c.stream) >>= fun p => pure (some p)) (c.afterPops s) := by
  have hcomplete := hrec.complete
  have hbound := c.stream.size_le_capacity
  have hsub : sizeSub (firstRecord c.stream).size kExplicitIvSize =
      (firstRecord c.stream).size - kExplicitIvSize := sizeSub_of_le hsize (by omega)
  have hiv : kExplicitIvSize ≤ (c.stream.advance RecordHeader.sizeof hrec.header).size := by
    rw [Stream.size_advance]
    omega
  have hct : (firstRecord c.stream).size - kExplicitIvSize ≤
      ((c.stream.advance RecordHeader.sizeof hrec.header).advance kExplicitIvSize hiv).size := by
    rw [Stream.size_advance, Stream.size_advance]
    omega
  refine ⟨((c.stream.advance _ hrec.header).advance _ hiv).advance _ hct, ?_, by simp, ?_⟩
  · rw [Stream.content_advance, Stream.content_advance, Stream.content_advance, List.drop_drop,
      List.drop_drop, Nat.add_sub_cancel' hsize, afterRecord]
  · rw [receiveRecord_eq hrec htype, receiveBody, hsub, bind_of_ok (onStream_of_ok (Stream.pop_of_le _ hiv))]
    dsimp only
    rw [bind_of_ok (modify_apply _ _), bind_of_ok (onStream_of_ok (Stream.pop_of_le _ hct))]
    dsimp only [afterHeader]
    rw [Stream.content_advance, Stream.content_advance, List.drop_drop]
    rfl

/-- A record without room for an explicit nonce gives nothing: its header is taken off, and the
nonce as well if the stream has as many bytes behind it. -/
theorem receiveRecord_tiny {ossl : OpenSsl} (hrec : HoldsRecord c.stream)
    (htype : (firstRecord c.stream).contentType = .ApplicationData)
    (hsize : (firstRecord c.stream).size < kExplicitIvSize) (hcap : c.stream.capacity < 2 ^ 63) :
    (c.stream.size < 13 ∧
      receiveRecord ossl (firstRecord c.stream) c = .ok none (c.afterHeader hrec.header)) ∨
    (13 ≤ c.stream.size ∧ ∃ c', receiveRecord ossl (firstRecord c.stream) c = .ok none c' ∧
      c'.stream.content = c.stream.content.drop 13) := by
  have hbound := c.stream.size_le_capacity
  have hsub : 2 ^ 63 ≤ sizeSub (firstRecord c.stream).size kExplicitIvSize := by
    rw [sizeSub_of_lt hsize (by decide)]
    unfold kExplicitIvSize at hsize ⊢
    omega
  have hrest : (c.stream.advance RecordHeader.sizeof hrec.header).size = c.stream.size - 5 := by
    rw [Stream.size_advance]
    rfl
  rw [receiveRecord_eq hrec htype, receiveBody]
  by_cases hiv : kExplicitIvSize ≤ (c.stream.advance RecordHeader.sizeof hrec.header).size
  · have hct : ((c.stream.advance RecordHeader.sizeof hrec.header).advance
        kExplicitIvSize hiv).size < sizeSub (firstRecord c.stream).size kExplicitIvSize := by
      rw [Stream.size_advance, Stream.size_advance]
      omega
    rw [bind_of_ok (onStream_of_ok (Stream.pop_of_le _ hiv))]
    dsimp only
    rw [bind_of_ok (modify_apply _ _), bind_of_ok (onStream_of_ok (Stream.pop_of_gt _ hct))]
    refine Or.inr ⟨?_, _, rfl, ?_⟩
    · unfold kExplicitIvSize at hiv
      omega
    · change ((c.stream.advance RecordHeader.sizeof hrec.header).advance kExplicitIvSize hiv).content =
        _
      rw [Stream.content_advance, Stream.content_advance, List.drop_drop]
      rfl
  · rw [bind_of_ok (onStream_of_ok (Stream.pop_of_gt _ (Nat.lt_of_not_le hiv)))]
    refine Or.inl ⟨?_, rfl⟩
    unfold kExplicitIvSize at hiv
    omega

/-! ## Authenticity -/

/-- AES-128-GCM decryption of a ciphertext with its tag. -/
def gcmOpen (ossl : OpenSsl) (key : AES128Key) (nonce aad bytes : List UInt8) :
    Option (List UInt8) :=
  if bytes.drop (bytes.length - kGcmTagSize) =
      (ossl.gcmTag key nonce aad (bytes.take (bytes.length - kGcmTagSize))).toList then
    some (gcmPlaintext ossl key nonce bytes)
  else none

/-- The first record opened with the server's write key, as the record with this sequence
number. -/
def openRecord (ossl : OpenSsl) (seq : UInt64) (c : Client) : Option (List UInt8) :=
  gcmOpen ossl c.keys.serverWriteKey (c.keys.serverWriteIv.toList ++ explicitIvOf c.stream)
    (additionalAuthData seq .ApplicationData
      ((firstRecord c.stream).size - kExplicitIvSize - kGcmTagSize))
    (ciphertextOf c.stream)

theorem length_ciphertextOf {s : Stream} (hrec : HoldsRecord s)
    (hsize : kExplicitIvSize ≤ (firstRecord s).size) :
    (ciphertextOf s).length = (firstRecord s).size - kExplicitIvSize := by
  have hcomplete := hrec.complete
  rw [ciphertextOf, List.length_take, List.length_drop, Stream.length_content]
  unfold RecordHeader.sizeof kExplicitIvSize at *
  omega

/-- After the handshake every record with more than a tag is returned, whatever its tag. -/
theorem receive_long (hc : Keyed c) (hstate : c.handshakeState = .ServerFinished)
    (hrec : HoldsRecord c.stream) (htype : (firstRecord c.stream).contentType = .ApplicationData)
    (hsize : 24 < (firstRecord c.stream).size) :
    ∃ ctx s, ctx.key = c.keys.serverWriteKey ∧ s.content = afterRecord c.stream ∧
      s.capacity = c.stream.capacity ∧ receive env c =
        .ok (some (gcmPlaintext env.ossl c.keys.serverWriteKey
          (c.keys.serverWriteIv.toList ++ explicitIvOf c.stream) (ciphertextOf c.stream)))
        { c.afterPops s with
          decCtx := some ctx
          readSequenceNumber := c.readSequenceNumber + 1 } := by
  obtain ⟨ctx, hctx⟩ := Option.isSome_iff_exists.mp (hc.installed (Or.inr hstate))
  obtain ⟨hkey, hiv⟩ := hc.key ctx hctx
  have hsize' : kExplicitIvSize ≤ (firstRecord c.stream).size := by
    unfold kExplicitIvSize
    omega
  have hcap : c.stream.capacity < 2 ^ 63 := by
    rw [hc.capacity]
    decide
  obtain ⟨s, hcontent, hscap, hreceive⟩ := @receiveRecord_long c env.ossl hrec htype hsize' hcap
  have hlen : kGcmTagSize < (ciphertextOf c.stream).length := by
    rw [length_ciphertextOf hrec hsize']
    unfold kGcmTagSize kExplicitIvSize
    omega
  have hctx' : (c.afterPops s).decCtx = some ctx := hctx
  obtain ⟨ctx', hkey', -, hdecrypt⟩ := @decrypt_of_some _ env.ossl _ _ hctx' hlen
  refine ⟨ctx', s, hkey'.trans hkey, hcontent, hscap, ?_⟩
  rw [receive_finished hrec hstate, hreceive, bind_of_ok hdecrypt, ← hkey, ← hiv]
  rfl

/-- A shorter record is refused. -/
theorem receive_short (hc : Keyed c) (hstate : c.handshakeState = .ServerFinished)
    (hrec : HoldsRecord c.stream) (htype : (firstRecord c.stream).contentType = .ApplicationData)
    (hsize : (firstRecord c.stream).size ≤ 24) {plaintext : List UInt8} :
    receive env c ≠ .ok (some plaintext) c' := by
  have hcap : c.stream.capacity < 2 ^ 63 := by
    rw [hc.capacity]
    decide
  rw [receive_finished hrec hstate]
  intro h
  by_cases hiv : kExplicitIvSize ≤ (firstRecord c.stream).size
  · obtain ⟨s, -, -, hreceive⟩ := @receiveRecord_long c env.ossl hrec htype hiv hcap
    have hlen : (ciphertextOf c.stream).length ≤ kGcmTagSize := by
      rw [length_ciphertextOf hrec hiv]
      unfold kGcmTagSize kExplicitIvSize
      omega
    rw [hreceive, bind_of_error (decrypt_short hlen)] at h
    cases h
  · obtain ⟨-, hnone⟩ | ⟨-, c'', hnone, -⟩ :=
      @receiveRecord_tiny c env.ossl hrec htype (Nat.lt_of_not_le hiv) hcap
    all_goals
      rw [hnone] at h
      cases h

/-- **Authenticity**: with a complete application record in the stream after the handshake, what
`receive` returns is what AES-GCM opens the record to, exactly if the record is too short for a tag
or AES-GCM does open it. -/
theorem authentic_iff (env : Env) (c : Client) (seq : UInt64) (hreach : Reachable env c)
    (hstate : c.handshakeState = .ServerFinished) (hrec : HoldsRecord c.stream)
    (htype : (firstRecord c.stream).contentType = .ApplicationData) :
    (∀ plaintext c', receive env c = .ok (some plaintext) c' →
        openRecord env.ossl seq c = some plaintext) ↔
      (firstRecord c.stream).size ≤ 24 ∨ (openRecord env.ossl seq c).isSome := by
  have hkeyed := hreach.keyed
  by_cases hsize : (firstRecord c.stream).size ≤ 24
  · refine ⟨fun _ => Or.inl hsize, fun _ plaintext c' h => ?_⟩
    exact absurd h (receive_short hkeyed hstate hrec htype hsize)
  · obtain ⟨ctx, s, -, -, -, hreceive⟩ :=
      @receive_long env c hkeyed hstate hrec htype (Nat.lt_of_not_le hsize)
    constructor
    · intro h
      exact Or.inr (by rw [h _ _ hreceive]; rfl)
    · rintro (hle | hopen) plaintext c' h
      · exact absurd hle hsize
      · rw [hreceive] at h
        cases h
        unfold openRecord gcmOpen at hopen ⊢
        split at hopen
        · rw [if_pos ‹_›]
        · cases hopen

/-! ### A handshake with a small server -/

/-- The records of the server's first flight, each as short as it can be. -/
def sampleFlight : List UInt8 :=
  [0x16, 3, 3, 0, 44, 2, 0, 0, 40, 3, 3] ++ List.replicate 32 0 ++ [0, 0xC0, 0x2F, 0, 0, 0] ++
    [0x16, 3, 3, 0, 4, 0x0B, 0, 0, 0] ++
    [0x16, 3, 3, 0, 44, 0x0C, 0, 0, 40, 3, 0, 0x1D, 32] ++ List.replicate 32 0 ++ [4, 1, 0, 0] ++
    [0x16, 3, 3, 0, 4, 0x0E, 0, 0, 0]

/-- The client after a packet and a call of `receive`. -/
def fed (p : Tcp.PacketView) (c : Client) : Client :=
  after (receive sampleEnv (after (processPacket sampleEnv p c)))

theorem Reachable.fed (h : Reachable sampleEnv c) (p : Tcp.PacketView) :
    Reachable sampleEnv (fed p c) :=
  .receive (.processPacket p h)

/-- A client that is connected and has sent nothing. -/
def connectedClient : Client :=
  after (processPacket sampleEnv (Tcp.Client.synAck 0)
    (after (construct sampleEnv (.init [] (.new Tcp.Client.sampleConnection {} 7 0)))))

def handshakenClient : Client :=
  fed (Tcp.Client.segment 117 [0x14, 3, 3, 0, 1, 1, 0x16, 3, 3, 0, 0])
    (fed (Tcp.Client.segment 1 sampleFlight) (fed (Tcp.Client.synAck 0)
      (after (construct sampleEnv (.init [] (.new Tcp.Client.sampleConnection {} 7 0))))))

theorem handshakenClient_reachable : Reachable sampleEnv handshakenClient :=
  (((Reachable.construct sampleEnv [] _).fed _).fed _).fed _

/-- The handshake is over, and with this small server both sides have one key. -/
theorem handshakenClient_finished :
    handshakenClient.handshakeState = .ServerFinished ∧ handshakenClient.encCtx.isSome = true ∧
      handshakenClient.keys.clientWriteKey = handshakenClient.keys.serverWriteKey ∧
      handshakenClient.keys.clientWriteIv = handshakenClient.keys.serverWriteIv := by
  decide +kernel

/-- The client with a record of one byte in its stream, under this tag. -/
def taggedClient (tag : List UInt8) : Client :=
  after (processPacket sampleEnv
    (Tcp.Client.segment 128 ([0x17, 3, 3, 0, 25] ++ List.replicate 8 0 ++ [9] ++ tag))
    handshakenClient)

theorem taggedClient_reachable (tag : List UInt8) : Reachable sampleEnv (taggedClient tag) :=
  .processPacket _ handshakenClient_reachable

/-- The record stands alone in the stream of a client that has finished its handshake. -/
theorem taggedClient_stream : ∀ b ∈ [(0 : UInt8), 1],
    (taggedClient (List.replicate 16 b)).handshakeState = .ServerFinished ∧
      firstRecord (taggedClient (List.replicate 16 b)).stream = ⟨.ApplicationData, kTls12, 25⟩ ∧
      (taggedClient (List.replicate 16 b)).stream.size = 30 ∧
      (openRecord sampleEnv.ossl 1 (taggedClient (List.replicate 16 b))).isSome = (b == 0) := by
  decide +kernel

theorem taggedClient_holds {b : UInt8} (hb : b ∈ [0, 1]) :
    HoldsRecord (taggedClient (List.replicate 16 b)).stream := by
  obtain ⟨-, hfirst, hsize, -⟩ := taggedClient_stream b hb
  refine ⟨?_, by rw [hfirst], by rw [hfirst, hsize]; rfl⟩
  rw [hsize]
  decide

theorem taggedClient_receives {b : UInt8} (hb : b ∈ [0, 1]) : ∃ plaintext c',
    receive sampleEnv (taggedClient (List.replicate 16 b)) = .ok (some plaintext) c' := by
  obtain ⟨hstate, hfirst, -, -⟩ := taggedClient_stream b hb
  obtain ⟨ctx, s, -, -, -, hreceive⟩ := @receive_long sampleEnv _ (taggedClient_reachable _).keyed
    hstate (taggedClient_holds hb) (by rw [hfirst]) (by rw [hfirst]; decide)
  exact ⟨_, _, hreceive⟩

theorem authentic_zero_tag :
    ∃ plaintext c', receive sampleEnv (taggedClient (List.replicate 16 0)) =
        .ok (some plaintext) c' ∧
      openRecord sampleEnv.ossl 1 (taggedClient (List.replicate 16 0)) = some plaintext := by
  obtain ⟨hstate, hfirst, -, hopen⟩ := taggedClient_stream 0 (by decide)
  obtain ⟨plaintext, c', hreceive⟩ := taggedClient_receives (b := 0) (by decide)
  exact ⟨plaintext, c', hreceive, (authentic_iff sampleEnv _ 1 (taggedClient_reachable _) hstate
    (taggedClient_holds (by decide)) (by rw [hfirst])).mpr (Or.inr hopen) _ _ hreceive⟩

/-- A record whose tag was altered is returned. -/
theorem altered_tag_returned :
    Reachable sampleEnv (taggedClient (List.replicate 16 1)) ∧
      (taggedClient (List.replicate 16 1)).handshakeState = .ServerFinished ∧
      HoldsRecord (taggedClient (List.replicate 16 1)).stream ∧
      (∃ plaintext c', receive sampleEnv (taggedClient (List.replicate 16 1)) =
        .ok (some plaintext) c') ∧
      openRecord sampleEnv.ossl 1 (taggedClient (List.replicate 16 1)) = none := by
  obtain ⟨hstate, -, -, hopen⟩ := taggedClient_stream 1 (by decide)
  refine ⟨taggedClient_reachable _, hstate, taggedClient_holds (by decide),
    taggedClient_receives (by decide), ?_⟩
  rw [← Option.not_isSome_iff_eq_none, hopen]
  decide

end Client

end WsGateway.Network.Tls12
