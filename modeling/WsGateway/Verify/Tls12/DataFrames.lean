import WsGateway.Verify.Tls12.Sending

/-!
# Frames of application data

The packets of the handshake begin with the header of a handshake record and an
acknowledgement is empty, so a frame that begins like a record of application
data comes from a `flush`. A `flush` that returns has sent one such frame; one
that throws has sent none, as nothing is done behind the call to the card.
-/

namespace WsGateway.Network

open Library

namespace Tcp.Client

/-- From one state to the other the card took frames with `P` only. -/
def Transmits (P : ByteView → Prop) (c c' : Client) : Prop :=
  ∃ frames, c'.sender.transmitted = c.sender.transmitted ++ frames ∧ ∀ frame ∈ frames, P frame

section Transmits

variable {P : ByteView → Prop} {dpdk : Dpdk} {c c' : Client}

theorem Transmits.of_same (h : c'.sender.transmitted = c.sender.transmitted) :
    Transmits P c c' :=
  ⟨[], by rw [h, List.append_nil], by simp⟩

instance : Std.Refl (Transmits P) := ⟨fun _ => .of_same rfl⟩

theorem Transmits.trans {c'' : Client} (h : Transmits P c c') (h' : Transmits P c' c'') :
    Transmits P c c'' := by
  obtain ⟨frames, htransmitted, hP⟩ := h
  obtain ⟨frames', htransmitted', hP'⟩ := h'
  refine ⟨frames ++ frames', ?_, fun frame hframe => ?_⟩
  · rw [htransmitted', htransmitted, List.append_assoc]
  · exact (List.mem_append.mp hframe).elim (hP frame) (hP' frame)

instance : IsTrans Client (Transmits P) := ⟨fun _ _ _ => Transmits.trans⟩

theorem Transmits.of_mem_framesSince (h : Transmits P c c') :
    ∀ frame ∈ framesSince c c', P frame := by
  obtain ⟨frames, htransmitted, hP⟩ := h
  rw [framesSince, htransmitted, List.drop_left]
  exact hP

/-- `send` asks the card to take the packet. -/
theorem send_transmits (packet : SendBuffer) (n : Nat)
    (h : P (finishPacket dpdk packet n).eth.rawBytes) :
    Moves (Transmits P) (send dpdk packet n) := by
  intro c
  rw [send_apply]
  split
  · split
    · exact .of_same rfl
    · exact ⟨[_], rfl, by simpa using h⟩
  · exact .of_same rfl

theorem send_throws {packet : SendBuffer} {n : Nat} {e : Error}
    (h : send dpdk packet n c = .error e c') :
    c'.sender.transmitted = c.sender.transmitted := by
  rw [send_apply] at h
  split at h
  · split at h
    · cases h
      rfl
    · cases h
  · cases h
    rfl

/-- An acknowledgement is empty. -/
theorem sendAck_transmits (h : ∀ frame, (PacketView.ofBytes frame).payload.toList = [] → P frame) :
    Moves (Transmits P) (sendAck dpdk) := by
  intro c
  have hcall : sendAck dpdk c =
      sendCall dpdk .ACK false [] ([] : List UInt8).length c := by
    rw [sendAck_eq_sendCall]
    rfl
  rw [hcall]
  rcases @sendCall_cases dpdk c .ACK [] (by decide) with
    ⟨d, heq, hd⟩ | ⟨packet, d, heq, hcarries, hd⟩
  · rw [heq]
    exact .of_same hd
  · rw [heq]
    rcases hd with hd | hd
    · exact .of_same hd
    · refine ⟨[_], hd, fun frame hframe => ?_⟩
      rw [List.mem_singleton.mp hframe]
      exact h _ hcarries.payload

/-- What `process_packet` sends are acknowledgements. -/
theorem processPacket_transmits
    (h : ∀ frame, (PacketView.ofBytes frame).payload.toList = [] → P frame) (p : PacketView) :
    Moves (Transmits P) (processPacket dpdk p) := by
  have hack : Moves (Transmits P) (sendAck dpdk) := sendAck_transmits h
  have hdeliver : Moves (Transmits P) (deliver dpdk p) := by
    refine Moves.seq Moves.read fun c => ?_
    split
    · refine Moves.seq (Moves.update fun d => .of_same (by rw [established_sender])) fun _ => ?_
      unfold answerSyn
      cases p.parseOptions with
      | error e => exact Moves.raise _
      | ok options =>
        refine Moves.seq (Moves.ret _) fun _ => ?_
        refine Moves.seq (Moves.update fun _ => .of_same rfl) fun _ => ?_
        exact Moves.seq hack fun _ => Moves.ret _
    · split
      · exact Moves.seq (Moves.update fun d => .of_same (by rw [took_sender])) fun _ => hack
      · exact Moves.ret _
  intro c
  rcases processPacket_received dpdk p c with ⟨-, hsame⟩ | ⟨-, hwindow, -⟩ | ⟨hacc, -⟩
  · rw [hsame]
    exact Std.Refl.refl c
  · rw [hwindow]
    exact .of_same (by rw [windowed_sender])
  · rcases processPacket_cases dpdk p c with ⟨-, heq⟩ | ⟨hrej, -⟩
    · rw [heq]
      have hacked : Transmits P c (c.acked p) := .of_same (by rw [acked_sender])
      exact hacked.trans (hdeliver (c.acked p))
    · exact absurd hacc hrej

end Transmits

end Tcp.Client

namespace Tls12

/-- The payload of the frame begins like a record of application data. -/
def carriesData (frame : ByteView) : Bool :=
  (Tcp.PacketView.ofBytes frame).payload.toList.head? == some ContentType.ApplicationData

namespace Client

/-- The card took no frame of application data. -/
def NoData (c c' : Client) : Prop :=
  Tcp.Client.Transmits (fun frame => carriesData frame = false) c.tcp c'.tcp

instance : Std.Refl NoData := ⟨fun _ => .of_same rfl⟩

instance : IsTrans Client NoData := ⟨fun _ _ _ => Tcp.Client.Transmits.trans⟩

section NoData

variable {env : Env} {c c' : Client} {α : Type}

/-- Work on the client's own members sends nothing. -/
theorem noData_of_tcp (h : c'.tcp = c.tcp) : NoData c c' := .of_same (by rw [h])

theorem onStream_noData (x : Prog Stream α) : Moves NoData (onStream x) :=
  Moves.member (S := fun _ _ => True) (fun _ => trivial) fun _ _ _ => noData_of_tcp rfl

theorem update_noData {g : Client → Client} (h : ∀ c, (g c).tcp = c.tcp) :
    Moves NoData (modify g : Prog Client Unit) :=
  Moves.update fun c => noData_of_tcp (h c)

theorem noData_handles : Handles NoData where
  stream _ := onStream_noData _
  hash _ := update_noData fun _ => rfl
  serverRandom _ := update_noData fun _ => rfl
  serverEphPubkey _ := update_noData fun _ => rfl
  random ossl := by
    refine Moves.seq Moves.read fun c => ?_
    refine Moves.seq (update_noData fun _ => rfl) fun _ => ?_
    cases ossl.randBytes c.drawn with
    | none => exact Moves.raise _
    | some random => exact update_noData fun _ => rfl
  state _ := update_noData fun _ => rfl
  explicitIv _ := update_noData fun _ => rfl

theorem decrypt_noData (ossl : OpenSsl) (bytes : List UInt8) :
    Moves NoData (decrypt ossl bytes) := by
  refine Moves.seq (require_moves _ _) fun _ => ?_
  refine Moves.seq Moves.read fun c => ?_
  cases c.decCtx with
  | none => exact Moves.raise _
  | some ctx => exact Moves.seq (update_noData fun _ => rfl) fun _ => Moves.ret _

theorem encrypt_noData (fails : Option EvpCall) (ossl : OpenSsl) (view : List UInt8)
    (contentType : ContentType) : Moves NoData (encrypt fails ossl view contentType) :=
  encrypt_moves (fun _ _ _ _ _ => noData_of_tcp rfl) (fun _ => noData_of_tcp rfl) _ _ _ _

/-- A packet for the handshake is obtained and sent with a handshake record at its front. -/
theorem getSendBuffer_noData {k : Tcp.SendBuffer → Prog Client α}
    (hk : ∀ packet, (∀ bs, Moves NoData (sendPayload env packet (ContentType.Handshake :: bs))) →
      Moves NoData (k packet)) :
    Moves NoData (onTcp (Tcp.Client.getSendBuffer env.dpdk .PSH_ACK false) >>= k) := by
  intro c
  rcases Tcp.Client.getSendBuffer_cases env.dpdk c.tcp .PSH_ACK with
    ⟨packet, hget, eth, ip, hlaid⟩ | ⟨e, device, hget, hdevice⟩
  · have hsends : ∀ bs, Moves NoData (sendPayload env packet (ContentType.Handshake :: bs)) := by
      intro bs
      refine Moves.member (Tcp.Client.send_transmits
        (P := fun frame => carriesData frame = false) _ _ ?_) fun _ _ h => h
      refine beq_eq_false_iff_ne.mpr fun hhead => ?_
      have hne := Tcp.Client.head_of_laid env.dpdk hlaid rfl hhead
      exact absurd hne (by decide)
    have hpacket : onTcp (Tcp.Client.getSendBuffer env.dpdk .PSH_ACK false) c =
        .ok packet { c with tcp := withBuffer c.tcp } := zoom_of_ok hget
    have hbuffer : NoData c { c with tcp := withBuffer c.tcp } := .of_same rfl
    rw [bind_of_ok hpacket]
    exact hbuffer.trans (hk packet hsends _)
  · have herror : onTcp (Tcp.Client.getSendBuffer env.dpdk .PSH_ACK false) c =
        .error e { c with tcp := { c.tcp with sender := device } } := zoom_of_error hget
    rw [bind_of_error herror]
    exact .of_same hdevice

theorem sendClientHello_noData (env : Env) : Moves NoData (sendClientHello env) := by
  refine getSendBuffer_noData fun packet hsends => ?_
  refine Moves.seq (noData_handles.random _) fun _ => ?_
  refine Moves.seq (ofExcept_moves _) fun ws => ?_
  refine Moves.seq Moves.read fun c => ?_
  refine Moves.seq (ofExcept_moves _) fun ws => ?_
  refine Moves.seq (ofExcept_moves _) fun ws => ?_
  refine Moves.seq (ofExcept_moves _) fun ws => ?_
  exact Moves.seq (noData_handles.hash _) fun _ => hsends _

theorem sendClientKeyExchangeAndFinished_noData (env : Env) :
    Moves NoData (sendClientKeyExchangeAndFinished env) := by
  refine Moves.seq (update_noData fun _ => rfl) fun _ => ?_
  refine getSendBuffer_noData fun packet hsends => ?_
  refine Moves.seq (ofExcept_moves _) fun ws => ?_
  refine Moves.seq Moves.read fun c => ?_
  refine Moves.seq (update_noData fun _ => rfl) fun _ => ?_
  cases env.ossl.generateX25519Key c.drawn with
  | none => exact Moves.raise _
  | some clientEphKey =>
    dsimp only
    cases env.ossl.derive clientEphKey (c.serverEphPubkey.take 32) with
    | none => exact Moves.raise _
    | some sharedSecret =>
      refine Moves.seq (noData_handles.hash _) fun _ => ?_
      refine Moves.seq (update_noData fun _ => rfl) fun _ => ?_
      refine Moves.seq Moves.read fun c => ?_
      refine Moves.seq (ofExcept_moves _) fun ws => ?_
      refine Moves.seq (ofExcept_moves _) fun ws => ?_
      refine Moves.seq (encrypt_noData _ _ _ _) fun encrypted => ?_
      exact Moves.seq (ofExcept_moves _) fun _ => hsends _

/-- **Receiving** sends no application data. -/
theorem receive_noData (env : Env) : Moves NoData (receive env) := by
  refine receive_moves fun c => receiveOnce_related (fun _ => ?_) (fun _ _ => ?_) (fun _ _ => ?_)
  · exact Moves.seq (sendClientHello_noData env) (fun _ => noData_handles.state _) c
  · refine noData_handles.processHandshake env fun _ d _ => ?_
    exact Moves.seq (sendClientKeyExchangeAndFinished_noData env)
      (fun _ => noData_handles.state _) d
  · exact noData_handles.receiveRecord (decrypt_noData _) _ c

theorem processPacket_noData (env : Env) (p : Tcp.PacketView) :
    Moves NoData (processPacket env p) := by
  have hpacket : Moves NoData (onTcp (Tcp.Client.processPacket env.dpdk p)) := by
    refine Moves.member (Tcp.Client.processPacket_transmits
      (P := fun frame => carriesData frame = false) (fun frame hempty => ?_) p) fun _ _ h => h
    rw [carriesData, hempty]
    rfl
  refine Moves.seq hpacket fun _ => ?_
  exact Moves.seq (update_noData fun _ => rfl) fun _ => onStream_noData _

end NoData

/-! ## The frame of a flush -/

section Flush

variable {env : Env} {t t' : Tcp.Client} {a a' : Client} {record : List UInt8}

/-- One packet that was sent is one frame. -/
theorem Sent.frame (h : Sent env t record t') (hfits : record.length + 40 < 2 ^ 16) :
    ∃ frame, t'.sender.transmitted = t.sender.transmitted ++ [frame] ∧
      (Tcp.PacketView.ofBytes frame).payload.toList = record := by
  obtain ⟨packet, t₁, hget, hsend⟩ := h
  rcases Tcp.Client.getSendBuffer_cases env.dpdk t .PSH_ACK with
    ⟨packet', hget', eth, ip, hlaid⟩ | ⟨e, d, hget', -⟩
  · rw [hget] at hget'
    injection hget' with hpacket hclient
    subst hpacket hclient
    have hcarries := @Tcp.Client.carries_of_laid env.dpdk _ _ _ _ _ record hlaid rfl (by
      change 20 + 20 + record.length < 2 ^ 16
      omega)
    rw [Tcp.Client.send_apply] at hsend
    split at hsend
    · split at hsend
      · cases hsend
      · cases hsend
        exact ⟨_, rfl, hcarries.payload⟩
    · cases hsend
  · rw [hget] at hget'
    cases hget'

/-- A `flush` that returns has sent one frame, with the pending bytes. -/
theorem flush_frame (hkey : SendKeyed a) (hcapacity : a.sendBuffer.capacity = 20600)
    (h : flush env a = .ok () a') :
    ∃ frame, a'.tcp.sender.transmitted = a.tcp.sender.transmitted ++ [frame] ∧
      (Tcp.PacketView.ofBytes frame).payload.toList =
        recordBytes .ApplicationData (sealedBody env.ossl a a.sendBuffer.content) := by
  have hle := a.sendBuffer.size_le_capacity
  refine Sent.frame (flush_eq_ok hkey h).1 ?_
  rw [length_recordBytes, length_sealedBody, Stream.length_content, RecordHeader.sizeof]
  omega

/-- One that throws has sent nothing. -/
theorem flush_throws {e : Error} (hkey : SendKeyed a) (h : flush env a = .error e a') :
    a'.tcp.sender.transmitted = a.tcp.sender.transmitted := by
  by_cases htakes : Takes env a
  · obtain ⟨packet, hget, hflush⟩ := flushWith_apply none htakes
    by_cases hfits : RecordHeader.sizeof + kExplicitIvSize + a.sendBuffer.size ≤
        payloadRoom env.dpdk
    · rw [if_pos hfits] at hflush
      cases hctx : a.encCtx with
      | none =>
        have hnone : flush env a = _ := hflush.trans (bind_of_error (encrypt_of_none hctx))
        rw [h] at hnone
        cases hnone
        rfl
      | some ctx =>
        obtain ⟨packet, ctx', -, hsealed⟩ := flush_sealed htakes hfits hkey
          (Option.isSome_of_eq_some hctx)
        dsimp only at hsealed
        rw [h] at hsealed
        obtain ⟨t, hsend, rfl⟩ := zoom_eq_error hsealed.symm
        change t.sender.transmitted = (withBuffer a.tcp).sender.transmitted
        exact Tcp.Client.send_throws hsend
    · rw [if_neg hfits] at hflush
      rw [flush, hflush] at h
      cases h
      rfl
  · obtain ⟨e', t, hflush, ht⟩ := flushWith_early none htakes
    rw [flush, hflush] at h
    cases h
    exact ht

end Flush

end Client

end Tls12

end WsGateway.Network
