import WsGateway.Verify.Tcp.Tracking
import WsGateway.Verify.Tls12.Handshake

/-!
# Sending application data

`flush` obtains a packet, takes the pending bytes out of the send buffer, encrypts
them and sends them in one record. Whether it comes to its call of `encrypt` is
decided by the buffer it gets and the size of its payload view; what follows is
one equation. The context for sending keeps the client's key, whatever the calls
on it do, so the record has the same form in every run.
-/

namespace WsGateway.Network.Tls12

open Library

namespace Client

/-! ## What all calls keep -/

/-- A relation that allows all that a client does. -/
structure Allows (R : Client → Client → Prop) : Prop extends Encrypts R where
  decrypt (ossl : OpenSsl) (bytes : List UInt8) : Moves R (decrypt ossl bytes)
  pushString (str : List UInt8) : Moves R (onSendBuffer (Stream.pushString str))
  shift : Moves R (modify fun c => { c with stream := c.stream.shift } : Prog Client Unit)
  pushBytes (bytes : ByteView) : Moves R (onStream (Stream.pushBytes bytes))

namespace Allows

variable {R : Client → Client → Prop} [Std.Refl R] [IsTrans Client R] {env : Env} {c : Client}

theorem receiveOnce (h : Allows R) (env : Env) : Moves R (receiveOnce env) := by
  intro c
  refine receiveOnce_related (fun _ => ?_) (fun _ _ => ?_) (fun _ _ => ?_)
  · exact Moves.seq (h.sendClientHello env) (fun _ => h.state _) c
  · refine h.processHandshake env fun _ d _ => ?_
    exact Moves.seq (h.sendClientKeyExchangeAndFinished env) (fun _ => h.state _) d
  · exact h.receiveRecord (h.decrypt _) _ c

omit [Std.Refl R] in
theorem processPacket (h : Allows R) (env : Env) (p : Tcp.PacketView) :
    Moves R (processPacket env p) := by
  refine Moves.seq (h.tcp _) fun _ => ?_
  exact Moves.seq h.shift fun _ => h.pushBytes _

/-- **Invariants of the client**: what holds before the constructor and goes along with everything
a client does holds in every reachable state. -/
theorem invariant (h : Allows R) {I : Client → Prop} (hstep : ∀ c c', R c c' → I c → I c')
    (hinit : ∀ sniHostname tcp, I (.init sniHostname tcp)) (hc : Reachable env c) : I c := by
  refine hc.invariant (fun sniHostname tcp => ?_) fun c call ih => ?_
  · have hconstruct : Moves R (Client.construct env) :=
      Moves.seq (h.random _) fun _ => h.tcp _
    exact hstep _ _ (hconstruct _) (hinit sniHostname tcp)
  · cases call with
    | processPacket p => exact hstep _ _ (h.processPacket env p c) ih
    | receive => exact hstep _ _ (h.receiveOnce env c) ih
    | pushString str => exact hstep _ _ (h.pushString str c) ih
    | flush fails => exact hstep _ _ (h.flushWith fails env c) ih

end Allows

/-! ## The key for sending -/

/-- The context for sending has the client's write key. -/
def SendKeyed (c : Client) : Prop := ∀ ctx, c.encCtx = some ctx → ctx.key = c.keys.clientWriteKey

/-- The key of the context for sending stays the client's, and the send buffer its size. -/
structure KeepsSending (c c' : Client) : Prop where
  key : SendKeyed c → SendKeyed c'
  capacity : c'.sendBuffer.capacity = c.sendBuffer.capacity

instance : Std.Refl KeepsSending := ⟨fun _ => ⟨id, rfl⟩⟩

instance : IsTrans Client KeepsSending :=
  ⟨fun _ _ _ h h' => ⟨h'.key ∘ h.key, h'.capacity.trans h.capacity⟩⟩

theorem pop_capacity (n : Nat) :
    Moves (fun s s' => s'.capacity = s.capacity) (Stream.pop n) := by
  intro s
  by_cases h : n ≤ s.size
  · rw [s.pop_of_le h]
    exact s.capacity_advance h
  · rw [s.pop_of_gt (Nat.lt_of_not_le h)]
    rfl

theorem pushString_capacity (str : List UInt8) :
    Moves (fun s s' => s'.capacity = s.capacity) (Stream.pushString str) := by
  intro s
  unfold Stream.pushString
  split
  · rfl
  · rfl

theorem keepsSending_allows : Allows KeepsSending where
  stream _ := Moves.member (S := fun _ _ => True) (fun _ => trivial) fun _ _ _ => ⟨id, rfl⟩
  hash _ := Moves.update fun _ => ⟨id, rfl⟩
  serverRandom _ := Moves.update fun _ => ⟨id, rfl⟩
  serverEphPubkey _ := Moves.update fun _ => ⟨id, rfl⟩
  tcp _ := Moves.member (S := fun _ _ => True) (fun _ => trivial) fun _ _ _ => ⟨id, rfl⟩
  random ossl := by
    refine Moves.seq Moves.read fun c => ?_
    refine Moves.seq (Moves.update fun _ => ⟨id, rfl⟩) fun _ => ?_
    cases ossl.randBytes c.drawn with
    | none => exact Moves.raise _
    | some random => exact Moves.update fun _ => ⟨id, rfl⟩
  state _ := Moves.update fun _ => ⟨id, rfl⟩
  explicitIv _ := Moves.update fun _ => ⟨id, rfl⟩
  context {c ctx ctx'} hctx hkey := by
    refine ⟨fun hc e he => ?_, rfl⟩
    cases he
    exact hkey.trans (hc ctx hctx)
  number _ := ⟨id, rfl⟩
  decrypt ossl bytes := by
    refine Moves.seq (require_moves _ _) fun _ => ?_
    refine Moves.seq Moves.read fun c => ?_
    cases c.decCtx with
    | none => exact Moves.raise _
    | some ctx => exact Moves.seq (Moves.update fun _ => ⟨id, rfl⟩) fun _ => Moves.ret _
  deriveKeys ossl sharedSecret := by
    refine Moves.update fun c => ⟨fun _ ctx hctx => ?_, rfl⟩
    rw [← Option.some.inj hctx]
  draw := Moves.update fun _ => ⟨id, rfl⟩
  keyExchange := Moves.update fun _ => ⟨id, rfl⟩
  pop n := Moves.member (pop_capacity n) fun _ _ hs => ⟨id, hs⟩
  pushString str := Moves.member (pushString_capacity str) fun _ _ hs => ⟨id, hs⟩
  shift := Moves.update fun _ => ⟨id, rfl⟩
  pushBytes _ := Moves.member (S := fun _ _ => True) (fun _ => trivial) fun _ _ _ => ⟨id, rfl⟩

/-- **The key for sending** is the client's in every reachable state. -/
theorem Reachable.sending {env : Env} {c : Client} (h : Reachable env c) :
    SendKeyed c ∧ c.sendBuffer.capacity = 20600 :=
  keepsSending_allows.invariant (I := fun c => SendKeyed c ∧ c.sendBuffer.capacity = 20600)
    (fun _ _ hkeep hc => ⟨hkeep.key hc.1, hkeep.capacity.trans hc.2⟩)
    (fun _ _ => ⟨nofun, rfl⟩) h

/-! ## What a flush does -/

section Flush

variable {env : Env} {a a' : Client}

/-- The size of the TCP payload view of a packet, in `size_t`. -/
def payloadRoom (dpdk : Dpdk) : Nat := sizeSub (dpdk.dataRoomSize.toNat - 34) 20

/-- `flush` gets as far as taking the pending bytes: there is a buffer, it is large enough for the
IP header, and the payload view for the start of a record. -/
structure Takes (env : Env) (a : Client) : Prop where
  alloc : env.dpdk.pktmbufAlloc a.tcp.sender.allocs ≠ none
  headers : 34 ≤ env.dpdk.dataRoomSize.toNat
  start : RecordHeader.sizeof + kExplicitIvSize ≤ payloadRoom env.dpdk

/-- The TCP client that has taken a buffer. -/
def withBuffer (t : Tcp.Client) : Tcp.Client :=
  { t with sender := { t.sender with allocs := t.sender.allocs + 1 } }

/-- The packet that `flush` gets. -/
theorem getSendBuffer_room (halloc : env.dpdk.pktmbufAlloc a.tcp.sender.allocs ≠ none)
    (hheaders : 34 ≤ env.dpdk.dataRoomSize.toNat) :
    ∃ packet, Tcp.Client.getSendBuffer env.dpdk .PSH_ACK false a.tcp =
        .ok packet (withBuffer a.tcp) ∧
      packet.tcp.payload.size = payloadRoom env.dpdk := by
  obtain ⟨mem, hmem⟩ := Option.ne_none_iff_exists'.mp halloc
  obtain ⟨packet, hget, hlaid⟩ :=
    Tcp.Client.getSendBuffer_laid a.tcp .PSH_ACK false hmem hheaders
  refine ⟨packet, hget, ?_⟩
  have htotal : (Tcp.PacketView.ipHeader a.tcp.connection.session
      (env.dpdk.dataRoomSize.toNat - 14) a.tcp.ipId).totalLength =
      env.dpdk.dataRoomSize.toNat - 14 := rfl
  rw [hlaid.payload_size_eq (by omega), htotal, payloadRoom, Nat.sub_sub]
  rfl

/-- Without a buffer of the size of the headers there is no packet. -/
theorem getSendBuffer_error (h : ¬ (env.dpdk.pktmbufAlloc a.tcp.sender.allocs ≠ none ∧
    34 ≤ env.dpdk.dataRoomSize.toNat)) :
    ∃ e t, onTcp (Tcp.Client.getSendBuffer env.dpdk .PSH_ACK false) a =
      .error e { a with tcp := t } ∧ t.sender.transmitted = a.tcp.sender.transmitted := by
  suffices herror : ∃ e t, Tcp.Client.getSendBuffer env.dpdk .PSH_ACK false a.tcp = .error e t ∧
      t.sender.transmitted = a.tcp.sender.transmitted by
    obtain ⟨e, t, herror, ht⟩ := herror
    exact ⟨e, t, zoom_of_error herror, ht⟩
  have hcall := Device.getSendBuffer_apply env.dpdk a.tcp.sender
  cases halloc : env.dpdk.pktmbufAlloc a.tcp.sender.allocs with
  | none =>
    rw [halloc] at hcall
    exact ⟨_, withBuffer a.tcp, bind_of_error (zoom_of_error hcall), rfl⟩
  | some mem =>
    rw [halloc] at hcall h
    have hsmall : ¬ 34 ≤ env.dpdk.dataRoomSize.toNat := fun hle => h ⟨nofun, hle⟩
    have hinit := Tcp.PacketView.init_isOk (.ofBytes ⟨mem, 0, env.dpdk.dataRoomSize.toNat⟩)
      a.tcp.connection .PSH_ACK a.tcp.seq a.tcp.ack false env.dpdk.dataRoomSize.toNat_lt
    cases hok : (Tcp.PacketView.ofBytes ⟨mem, 0, env.dpdk.dataRoomSize.toNat⟩).init
        a.tcp.connection .PSH_ACK a.tcp.seq a.tcp.ack false with
    | ok tcp =>
      rw [hok] at hinit
      exact absurd (of_decide_eq_true hinit.symm) hsmall
    | error e =>
      refine ⟨e, withBuffer a.tcp, ?_, rfl⟩
      refine (bind_of_ok (zoom_of_ok hcall)).trans ?_
      refine (bind_of_ok (get_apply _)).trans ?_
      change (Tcp.Client.ofExcept ((Tcp.PacketView.ofBytes
        ⟨mem, 0, env.dpdk.dataRoomSize.toNat⟩).init a.tcp.connection .PSH_ACK a.tcp.seq a.tcp.ack
          false) >>= _) _ = _
      rw [hok]
      rfl

/-- Up to there nothing of the client is lost. -/
theorem flushWith_early (fails : Option EvpCall) (h : ¬ Takes env a) :
    ∃ e t, flushWith fails env a = .error e { a with tcp := t } ∧
      t.sender.transmitted = a.tcp.sender.transmitted := by
  by_cases hbuffer : env.dpdk.pktmbufAlloc a.tcp.sender.allocs ≠ none ∧
      34 ≤ env.dpdk.dataRoomSize.toNat
  · obtain ⟨packet, hget, hroom⟩ := getSendBuffer_room hbuffer.1 hbuffer.2
    have hstart : ¬ 0 + (RecordHeader.sizeof + kExplicitIvSize) ≤ packet.tcp.payload.size := by
      rw [hroom, Nat.zero_add]
      exact fun hle => h ⟨hbuffer.1, hbuffer.2, hle⟩
    have hpacket : onTcp (Tcp.Client.getSendBuffer env.dpdk .PSH_ACK false) a =
        .ok packet { a with tcp := withBuffer a.tcp } := zoom_of_ok hget
    refine ⟨.runtimeError "Out of bounds", withBuffer a.tcp, ?_, rfl⟩
    rw [flushWith, bind_of_ok hpacket]
    dsimp only [WriteStream.ofView]
    rw [WriteStream.push, if_neg hstart]
    rfl
  · obtain ⟨e, t, hget, ht⟩ := getSendBuffer_error hbuffer
    exact ⟨e, t, bind_of_error hget, ht⟩

/-- The client without its pending bytes. -/
def emptied (a : Client) : Client :=
  { a with
    tcp := withBuffer a.tcp
    sendBuffer := a.sendBuffer.advance a.sendBuffer.size (Nat.le_refl _) }

theorem content_emptied (a : Client) : (emptied a).sendBuffer.content = [] := by
  change (a.sendBuffer.advance a.sendBuffer.size (Nat.le_refl _)).content = []
  rw [Stream.content_advance, ← Stream.length_content, List.drop_length]

/-- From there on: the pending bytes are gone, and if the payload view has room for them they are
encrypted and sent in the packet. -/
theorem flushWith_apply (fails : Option EvpCall) (h : Takes env a) :
    ∃ packet, Tcp.Client.getSendBuffer env.dpdk .PSH_ACK false a.tcp =
        .ok packet (withBuffer a.tcp) ∧ flushWith fails env a =
      if RecordHeader.sizeof + kExplicitIvSize + a.sendBuffer.size ≤ payloadRoom env.dpdk then
        (encrypt fails env.ossl a.sendBuffer.content .ApplicationData >>= fun encrypted =>
          sendPayload env packet (RecordHeader.bytes
            ⟨.ApplicationData, kTls12, kExplicitIvSize + encrypted.length⟩ ++
              beBytes 8 a.writeSequenceNumber.toNat ++ encrypted)) (emptied a)
      else .error (.runtimeError "Out of bounds") (emptied a) := by
  obtain ⟨packet, hget, hroom⟩ := getSendBuffer_room h.alloc h.headers
  have hpacket : onTcp (Tcp.Client.getSendBuffer env.dpdk .PSH_ACK false) a =
      .ok packet { a with tcp := withBuffer a.tcp } := zoom_of_ok hget
  have hstart : 0 + (RecordHeader.sizeof + kExplicitIvSize) ≤ packet.tcp.payload.size := by
    rw [hroom, Nat.zero_add]
    exact h.start
  have hall : a.sendBuffer.content.take a.sendBuffer.size = a.sendBuffer.content := by
    rw [← Stream.length_content, List.take_length]
  have hpop : onSendBuffer (Stream.pop a.sendBuffer.size) { a with tcp := withBuffer a.tcp } =
      .ok (some a.sendBuffer.content) (emptied a) := by
    have hpop := Stream.pop_of_le a.sendBuffer (Nat.le_refl _)
    rw [hall] at hpop
    exact zoom_of_ok hpop
  refine ⟨packet, hget, ?_⟩
  rw [flushWith, bind_of_ok hpacket]
  dsimp only [WriteStream.ofView]
  rw [bind_of_ok (push_of_le hstart), bind_of_ok (get_apply _)]
  refine (bind_of_ok hpop).trans ?_
  rw [require_bind, if_pos (show (some a.sendBuffer.content).isSome = true from rfl)]
  simp only [Option.getD_some, WriteStream.push, Stream.length_content, hroom, Nat.zero_add]
  by_cases hfits : RecordHeader.sizeof + kExplicitIvSize + a.sendBuffer.size ≤
      payloadRoom env.dpdk
  · rw [if_pos hfits, if_pos hfits]
    rfl
  · rw [if_neg hfits, if_neg hfits]
    rfl

/-! ## The record of a flush -/

/-- The record that is put together behind its explicit nonce. -/
theorem record_eq (contentType : ContentType) (explicitIv encrypted : List UInt8)
    (hiv : explicitIv.length = kExplicitIvSize) :
    RecordHeader.bytes ⟨contentType, kTls12, kExplicitIvSize + encrypted.length⟩ ++ explicitIv ++
      encrypted = recordBytes contentType (explicitIv ++ encrypted) := by
  rw [recordBytes, List.length_append, hiv, List.append_assoc]

/-- The body of the record with the client's next number. -/
def sealedBody (ossl : OpenSsl) (c : Client) (plaintext : List UInt8) : List UInt8 :=
  beBytes 8 c.writeSequenceNumber.toNat ++ gcmSeal ossl c.keys.clientWriteKey (nextNonce c)
    (additionalAuthData c.writeSequenceNumber .ApplicationData plaintext.length) plaintext

theorem length_sealedBody (ossl : OpenSsl) (c : Client) (plaintext : List UInt8) :
    (sealedBody ossl c plaintext).length = 8 + plaintext.length + 16 := by
  rw [sealedBody, List.length_append, length_gcmSeal, length_beBytes, kGcmTagSize]
  omega

/-- Bytes that fit are sealed and given to the TCP client. -/
theorem flush_sealed (h : Takes env a)
    (hfits : RecordHeader.sizeof + kExplicitIvSize + a.sendBuffer.size ≤ payloadRoom env.dpdk)
    (hkey : SendKeyed a) (hctx : a.encCtx.isSome) :
    let record := recordBytes .ApplicationData (sealedBody env.ossl a a.sendBuffer.content)
    ∃ packet ctx', Tcp.Client.getSendBuffer env.dpdk .PSH_ACK false a.tcp =
        .ok packet (withBuffer a.tcp) ∧
      flush env a = onTcp (Tcp.Client.send env.dpdk ⟨packet.tcp.writePayload record⟩ record.length)
        { emptied a with
          encCtx := some ctx'
          writeSequenceNumber := a.writeSequenceNumber + 1 } := by
  intro record
  obtain ⟨packet, hget, hflush⟩ := flushWith_apply none h
  obtain ⟨ctx, hctx⟩ := Option.isSome_iff_exists.mp hctx
  obtain ⟨ctx', hsealed⟩ := @encrypt_of_some (emptied a) env.ossl ctx a.sendBuffer.content
    .ApplicationData hctx
  rw [hkey ctx hctx] at hsealed
  refine ⟨packet, ctx', hget, ?_⟩
  rw [flush, hflush, if_pos hfits, bind_of_ok hsealed, record_eq _ _ _ (length_beBytes 8 _)]
  rfl

/-- A `flush` that returns has sent the send buffer in one record. -/
theorem flush_eq_ok (hkey : SendKeyed a) (h : flush env a = .ok () a') :
    Sent env a.tcp (recordBytes .ApplicationData (sealedBody env.ossl a a.sendBuffer.content))
      a'.tcp ∧ a'.sendBuffer.content = [] := by
  have hno : ∀ {e t}, flush env a ≠ .error e t := by
    intro e t herror
    rw [h] at herror
    cases herror
  by_cases htakes : Takes env a
  · obtain ⟨packet, hget, hflush⟩ := flushWith_apply none htakes
    by_cases hfits : RecordHeader.sizeof + kExplicitIvSize + a.sendBuffer.size ≤
        payloadRoom env.dpdk
    · rw [if_pos hfits] at hflush
      cases hctx : a.encCtx with
      | none => exact absurd (hflush.trans (bind_of_error (encrypt_of_none hctx))) hno
      | some ctx =>
        obtain ⟨packet, ctx', hget, hsealed⟩ := flush_sealed htakes hfits hkey
          (Option.isSome_of_eq_some hctx)
        rw [h] at hsealed
        obtain ⟨t', hsend, rfl⟩ := zoom_eq_ok hsealed.symm
        exact ⟨⟨packet, _, hget, hsend⟩, content_emptied a⟩
    · rw [if_neg hfits] at hflush
      exact absurd hflush hno
  · obtain ⟨e, t, hflush, -⟩ := flushWith_early none htakes
    exact absurd hflush hno

end Flush

end Client

end WsGateway.Network.Tls12
