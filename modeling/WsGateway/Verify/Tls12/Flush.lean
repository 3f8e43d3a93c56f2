import WsGateway.Verify.Tls12.RoundTrip

/-!
# Flushing

`flush` takes the pending bytes out of the send buffer and counts a record before
it knows that the packet has room for them and that the TCP client and the card
take it. What it does is decided by the buffer it gets, the size of its payload
view, the peer's window and the card; the bytes and the record number survive a
`flush` that throws only if it throws before the bytes are taken. The packet that
goes out is measured against a view that begins behind the headroom of the mbuf
and has the size of the whole data room.
-/

namespace WsGateway.Network.Tls12

open Library

namespace Client

/-! ## The contexts of a client after the handshake -/

/-- With the context for reading comes the one for sending. -/
def KeepsContexts (c c' : Client) : Prop :=
  (c.decCtx.isSome → c.encCtx.isSome) → c'.decCtx.isSome → c'.encCtx.isSome

instance : Std.Refl KeepsContexts := ⟨fun _ => id⟩

instance : IsTrans Client KeepsContexts := ⟨fun _ _ _ h h' => h' ∘ h⟩

theorem keepsContexts_allows : Allows KeepsContexts where
  stream _ := Moves.member (S := fun _ _ => True) (fun _ => trivial) fun _ _ _ => id
  hash _ := Moves.update fun _ => id
  serverRandom _ := Moves.update fun _ => id
  serverEphPubkey _ := Moves.update fun _ => id
  tcp _ := Moves.member (S := fun _ _ => True) (fun _ => trivial) fun _ _ _ => id
  random ossl := by
    refine Moves.seq Moves.read fun c => ?_
    refine Moves.seq (Moves.update fun _ => id) fun _ => ?_
    cases ossl.randBytes c.drawn with
    | none => exact Moves.raise _
    | some random => exact Moves.update fun _ => id
  state _ := Moves.update fun _ => id
  explicitIv _ := Moves.update fun _ => id
  context _ _ := fun _ _ => rfl
  number _ := id
  decrypt ossl bytes := by
    refine Moves.seq (require_moves _ _) fun _ => Moves.of_ends fun c => Ends.read ?_
    cases hctx : c.decCtx with
    | none => exact Ends.raise (show KeepsContexts c c from id)
    | some ctx =>
      exact Ends.update (Ends.ret fun hc _ => hc (Option.isSome_of_eq_some hctx))
  deriveKeys ossl sharedSecret := Moves.update fun _ _ _ => rfl
  draw := Moves.update fun _ => id
  keyExchange := Moves.update fun _ => id
  pop _ := Moves.member (S := fun _ _ => True) (fun _ => trivial) fun _ _ _ => id
  pushString _ := Moves.member (S := fun _ _ => True) (fun _ => trivial) fun _ _ _ => id
  shift := Moves.update fun _ => id
  pushBytes _ := Moves.member (S := fun _ _ => True) (fun _ => trivial) fun _ _ _ => id

theorem Reachable.encCtx {env : Env} {c : Client} (h : Reachable env c)
    (hstate : c.handshakeState = .ServerFinished) : c.encCtx.isSome :=
  keepsContexts_allows.invariant (I := fun c => c.decCtx.isSome → c.encCtx.isSome)
    (fun _ _ hkeep hc => hkeep hc) (fun _ _ => nofun) h (h.keyed.installed (Or.inr hstate))

/-! ## What a flush does -/

section Flush

variable {env : Env} {a : Client}

/-- The payload view has room for the pending bytes, the peer's window for the record, and the card
takes the packet. -/
structure Goes (env : Env) (a : Client) : Prop where
  fits : RecordHeader.sizeof + kExplicitIvSize + a.sendBuffer.size ≤ payloadRoom env.dpdk
  window : (a.tcp.unacknowledgedBytes.toNat + (29 + a.sendBuffer.size)) % 2 ^ 64 ≤
    a.tcp.sendWnd.toNat
  burst : env.dpdk.ethTxBurst a.tcp.sender.bursts ≠ 0

/-- Bytes that do not fit are gone. -/
theorem flush_overflow (h : Takes env a)
    (hfits : ¬ RecordHeader.sizeof + kExplicitIvSize + a.sendBuffer.size ≤ payloadRoom env.dpdk) :
    ∃ e, flush env a = .error e (emptied a) := by
  obtain ⟨packet, -, hflush⟩ := flushWith_apply none h
  rw [if_neg hfits] at hflush
  exact ⟨_, hflush⟩

theorem length_record (ossl : OpenSsl) (a : Client) :
    (recordBytes .ApplicationData (sealedBody ossl a a.sendBuffer.content)).length =
      29 + a.sendBuffer.size := by
  rw [length_recordBytes, length_sealedBody, Stream.length_content, RecordHeader.sizeof]
  omega

/-- A `flush` that goes through returns. -/
theorem flush_returns (h : Takes env a) (hgoes : Goes env a) (hkey : SendKeyed a)
    (hctx : a.encCtx.isSome) : ∃ a', flush env a = .ok () a' := by
  obtain ⟨packet, ctx', -, hflush⟩ := flush_sealed h hgoes.fits hkey hctx
  have hsend := Tcp.Client.send_apply env.dpdk ⟨packet.tcp.writePayload
    (recordBytes .ApplicationData (sealedBody env.ossl a a.sendBuffer.content))⟩
    (29 + a.sendBuffer.size) (withBuffer a.tcp)
  have hwindow : ((withBuffer a.tcp).unacknowledgedBytes.toNat + (29 + a.sendBuffer.size)) % 2 ^ 64 ≤
      (withBuffer a.tcp).sendWnd.toNat := hgoes.window
  have hburst : env.dpdk.ethTxBurst (withBuffer a.tcp).sender.bursts ≠ 0 := hgoes.burst
  rw [if_pos hwindow, if_neg hburst] at hsend
  dsimp only at hflush
  rw [hflush, length_record]
  exact ⟨_, zoom_of_ok hsend⟩

/-- A record that the TCP client or the card refuses is gone and counted. -/
theorem flush_refused (h : Takes env a)
    (hfits : RecordHeader.sizeof + kExplicitIvSize + a.sendBuffer.size ≤ payloadRoom env.dpdk)
    (hgoes : ¬ Goes env a) (hkey : SendKeyed a) (hctx : a.encCtx.isSome) :
    ∃ e a', flush env a = .error e a' ∧
      a'.writeSequenceNumber = a.writeSequenceNumber + 1 := by
  obtain ⟨packet, ctx', -, hflush⟩ := flush_sealed h hfits hkey hctx
  have hsend := Tcp.Client.send_apply env.dpdk ⟨packet.tcp.writePayload
    (recordBytes .ApplicationData (sealedBody env.ossl a a.sendBuffer.content))⟩
    (29 + a.sendBuffer.size) (withBuffer a.tcp)
  dsimp only at hflush
  rw [hflush, length_record]
  by_cases hwindow : ((withBuffer a.tcp).unacknowledgedBytes.toNat +
      (29 + a.sendBuffer.size)) % 2 ^ 64 ≤ (withBuffer a.tcp).sendWnd.toNat
  · have hburst : env.dpdk.ethTxBurst (withBuffer a.tcp).sender.bursts = 0 := by
      by_contra hne
      exact hgoes ⟨hfits, hwindow, hne⟩
    rw [if_pos hwindow, if_pos hburst] at hsend
    exact ⟨_, _, zoom_of_error hsend, rfl⟩
  · rw [if_neg hwindow] at hsend
    exact ⟨_, _, zoom_of_error hsend, rfl⟩

end Flush

/-! ## All or nothing -/

/-- A `flush` that throws leaves the pending bytes and the record number, and so a later one that
returns sends these bytes with this number. -/
structure AllOrNothing (env : Env) (a : Client) : Prop where
  pending : ∀ e a', flush env a = .error e a' → a'.sendBuffer.content = a.sendBuffer.content
  number : ∀ e a', flush env a = .error e a' → a'.writeSequenceNumber = a.writeSequenceNumber
  later : ∀ e a' env' a'', flush env a = .error e a' → flush env' a' = .ok () a'' →
    Sent env' a'.tcp
      (recordBytes .ApplicationData (sealedBody env'.ossl a a.sendBuffer.content)) a''.tcp

/-- **Flushing is all or nothing**, after the handshake, exactly if it throws before the bytes are
taken or goes through. -/
theorem allOrNothing_iff (env : Env) (a : Client) (ha : Reachable env a)
    (hstate : a.handshakeState = .ServerFinished) :
    AllOrNothing env a ↔ (Takes env a → Goes env a) := by
  obtain ⟨hkey, -⟩ := ha.sending
  have hctx := ha.encCtx hstate
  constructor
  · intro hall htakes
    by_contra hgoes
    by_cases hfits : RecordHeader.sizeof + kExplicitIvSize + a.sendBuffer.size ≤
        payloadRoom env.dpdk
    · obtain ⟨e, a', hflush, hnumber⟩ := flush_refused htakes hfits hgoes hkey hctx
      have hsame : a.writeSequenceNumber + 1 = a.writeSequenceNumber :=
        hnumber.symm.trans (hall.number e a' hflush)
      simp at hsame
    · obtain ⟨e, hflush⟩ := flush_overflow htakes hfits
      have hpending := hall.pending e _ hflush
      rw [content_emptied] at hpending
      have hsize : a.sendBuffer.size = 0 := by
        rw [← Stream.length_content, ← hpending]
        rfl
      exact hfits (hsize ▸ htakes.start)
  · intro hcond
    by_cases htakes : Takes env a
    · obtain ⟨a', hflush⟩ := flush_returns htakes (hcond htakes) hkey hctx
      have hno : ∀ e a'', flush env a ≠ .error e a'' := by
        intro e a'' herror
        rw [hflush] at herror
        cases herror
      exact ⟨fun e a'' h => absurd h (hno e a''), fun e a'' h => absurd h (hno e a''),
        fun e a'' _ _ h => absurd h (hno e a'')⟩
    · obtain ⟨e, t, hflush, -⟩ := flushWith_early none htakes
      have herror : ∀ e' a', flush env a = .error e' a' → a' = { a with tcp := t } := by
        intro e' a' h
        rw [flush, hflush] at h
        injection h with _ ha'
        exact ha'.symm
      refine ⟨fun e' a' h => ?_, fun e' a' h => ?_, fun e' a' env' a'' h hlater => ?_⟩
      · rw [herror e' a' h]
      · rw [herror e' a' h]
      · obtain rfl := herror e' a' h
        exact (flush_eq_ok (a := { a with tcp := t }) (fun ctx hc => hkey ctx hc) hlater).1

/-! ## Where the bytes go -/

section Written

variable {env : Env} {a a' : Client} {frame view : ByteView}

/-- The frame that a `flush` handed over, from its Ethernet header to the tag, and the view of the
packet it was written through. -/
structure Written (env : Env) (a a' : Client) (frame view : ByteView) : Prop where
  sent : a'.tcp.sender.transmitted = a.tcp.sender.transmitted ++ [frame]
  size : frame.size = 14 + 20 + 20 + 13 + a.sendBuffer.size + 16
  buffer : ∃ d, Device.getSendBuffer env.dpdk a.tcp.sender = .ok view d

/-- The frame lies inside the view, and the view inside the buffer of the mbuf, whose headroom it
starts behind. -/
structure WritesInside (dpdk : Dpdk) (frame view : ByteView) : Prop where
  frame_le : frame.size ≤ view.size
  view_le : view.size ≤ dpdk.tailroom

/-- A `flush` that returns has written one frame. -/
theorem flush_written (ha : Reachable env a) (h : flush env a = .ok () a') :
    ∃ frame view, Written env a a' frame view ∧ view.size = env.dpdk.dataRoomSize.toNat ∧
      34 ≤ env.dpdk.dataRoomSize.toNat := by
  obtain ⟨hkey, hcap⟩ := ha.sending
  have hle := a.sendBuffer.size_le_capacity
  obtain ⟨⟨packet, t, hget, hsend⟩, -⟩ := flush_eq_ok hkey h
  rw [length_record] at hsend
  have hbuffer : env.dpdk.pktmbufAlloc a.tcp.sender.allocs ≠ none ∧
      34 ≤ env.dpdk.dataRoomSize.toNat := by
    by_contra hno
    obtain ⟨e, t', herror, -⟩ := getSendBuffer_error hno
    rw [onTcp, zoom_of_ok hget] at herror
    cases herror
  obtain ⟨mem, hmem⟩ := Option.ne_none_iff_exists'.mp hbuffer.1
  obtain ⟨packet', hget', hlaid⟩ :=
    Tcp.Client.getSendBuffer_laid a.tcp .PSH_ACK false hmem hbuffer.2
  rw [hget'] at hget
  injection hget with hpacket ht
  subst hpacket
  subst ht
  -- the frame ends where the record does
  have hlength := length_record env.ossl a
  generalize recordBytes .ApplicationData (sealedBody env.ossl a a.sendBuffer.content) = record at *
  have hpredict := Tcp.PacketView.predictSize_eq false record
  simp only [Tcp.PacketView.optionBytes, Bool.false_eq_true, if_false, List.length_nil] at hpredict
  have hsize : (Tcp.Client.finishPacket env.dpdk ⟨packet'.tcp.writePayload record⟩
      record.length).raw.size = _ := hlaid.size_finish (by omega)
  rw [hlength] at hsize hpredict
  have hsent := Tcp.Client.transmitted_of_send _ hsend
  refine ⟨_, ⟨mem, 0, env.dpdk.dataRoomSize.toNat⟩, ⟨hsent, ?_, ?_⟩, rfl, hbuffer.2⟩
  · refine hsize.trans ?_
    omega
  · have hcall := Device.getSendBuffer_apply env.dpdk a.tcp.sender
    rw [hmem] at hcall
    exact ⟨_, hcall⟩

/-- **Where a flush writes**: whenever it returns, the view of the packet it has written through
does not lie inside the buffer of its mbuf, which ends a headroom earlier. The frame lies inside the
view if the data room has room for all of it, the tag included. -/
theorem flush_not_inside (env : Env) (a a' : Client) (ha : Reachable env a)
    (h : flush env a = .ok () a') :
    ∃ frame view, Written env a a' frame view ∧ ¬ WritesInside env.dpdk frame view ∧
      (frame.size ≤ view.size ↔ 83 + a.sendBuffer.size ≤ env.dpdk.dataRoomSize.toNat) := by
  obtain ⟨frame, view, hwritten, hview, hheaders⟩ := flush_written ha h
  refine ⟨frame, view, hwritten, fun hinside => ?_, ?_⟩
  · have hle := hinside.view_le
    rw [hview, Dpdk.tailroom, kPktmbufHeadroom] at hle
    omega
  · rw [hwritten.size, hview]
    omega

end Written

/-! ### Messages of several sizes -/

theorem handshakenClient_sendBuffer :
    handshakenClient.sendBuffer.read = 0 ∧ handshakenClient.sendBuffer.write = 0 ∧
      handshakenClient.tcp.unacknowledgedBytes = 179 ∧ handshakenClient.tcp.sendWnd = 65535 := by
  decide +kernel

section Loaded

variable {bytes : List UInt8}

theorem size_pushString {s : Stream} (h : s.write + bytes.length ≤ s.capacity) :
    (after (Stream.pushString bytes s)).size = s.size + bytes.length := by
  have hle := s.read_le_write
  rw [Stream.pushString, dif_pos h]
  change s.write + bytes.length - s.read = s.write - s.read + bytes.length
  omega

theorem size_loadedClient (h : bytes.length ≤ 20600) :
    (loadedClient bytes).sendBuffer.size = bytes.length := by
  obtain ⟨hread, hwrite, -, -⟩ := handshakenClient_sendBuffer
  have hcap := handshakenClient_reachable.sending.2
  have hroom : handshakenClient.sendBuffer.write + bytes.length ≤
      handshakenClient.sendBuffer.capacity := by
    rw [hwrite, hcap, Nat.zero_add]
    exact h
  have hbuffer : (loadedClient bytes).sendBuffer =
      after (Stream.pushString bytes handshakenClient.sendBuffer) := by
    rw [loadedClient, pushString, onSendBuffer, after_zoom]
  rw [hbuffer, size_pushString hroom, Stream.size, hread, hwrite, Nat.sub_zero, Nat.zero_add]

theorem loadedClient_tcp : (loadedClient bytes).tcp = handshakenClient.tcp := by
  rw [loadedClient, pushString, onSendBuffer, after_zoom]

theorem loadedClient_takes : Takes sampleEnv (loadedClient bytes) :=
  ⟨nofun, by decide, by decide⟩

theorem loadedClient_goes (h : bytes.length ≤ 2109) : Goes sampleEnv (loadedClient bytes) := by
  obtain ⟨-, -, hunacked, hwindow⟩ := handshakenClient_sendBuffer
  have hroom : payloadRoom sampleEnv.dpdk = 2122 := by decide
  have hsize : (loadedClient bytes).sendBuffer.size = bytes.length :=
    size_loadedClient (Nat.le_trans h (by decide))
  constructor
  · rw [hsize, hroom, RecordHeader.sizeof, kExplicitIvSize]
    omega
  · rw [hsize, loadedClient_tcp, hunacked, hwindow]
    change (179 + (29 + bytes.length)) % 2 ^ 64 ≤ 65535
    omega
  · exact Nat.one_ne_zero

end Loaded

theorem loadedClient_allOrNothing : AllOrNothing sampleEnv (loadedClient [7, 8, 9]) := by
  refine (allOrNothing_iff sampleEnv (loadedClient [7, 8, 9]) (loadedClient_reachable _) ?_).mpr
    fun _ => loadedClient_goes (by decide)
  exact (loadedClient_handshakeState _).trans handshakenClient_finished.1

/-- One byte more than a packet has room for, and `flush` throws them all away. -/
theorem large_message_lost :
    Reachable sampleEnv (loadedClient (List.replicate 2110 0)) ∧
      (loadedClient (List.replicate 2110 0)).handshakeState = .ServerFinished ∧
      (loadedClient (List.replicate 2110 0)).sendBuffer.size = 2110 ∧
      (∃ e a', flush sampleEnv (loadedClient (List.replicate 2110 0)) = .error e a' ∧
        a'.sendBuffer.content = []) ∧
      ¬ AllOrNothing sampleEnv (loadedClient (List.replicate 2110 0)) := by
  have hsize : (loadedClient (List.replicate 2110 0)).sendBuffer.size = 2110 := by
    rw [size_loadedClient] <;> rw [List.length_replicate]
    decide
  have hfits : ¬ RecordHeader.sizeof + kExplicitIvSize +
      (loadedClient (List.replicate 2110 0)).sendBuffer.size ≤ payloadRoom sampleEnv.dpdk := by
    rw [hsize]
    decide
  obtain ⟨e, hflush⟩ := flush_overflow loadedClient_takes hfits
  refine ⟨loadedClient_reachable _,
    (loadedClient_handshakeState _).trans handshakenClient_finished.1, hsize,
    ⟨e, _, hflush, content_emptied _⟩, fun hall => ?_⟩
  have hpending := hall.pending e _ hflush
  rw [content_emptied] at hpending
  have hlength := congrArg List.length hpending
  rw [Stream.length_content, hsize] at hlength
  cases hlength

theorem loadedClient_not_inside :
    ∃ a' frame view, flush sampleEnv (loadedClient [7, 8, 9]) = .ok () a' ∧
      Written sampleEnv (loadedClient [7, 8, 9]) a' frame view ∧
      ¬ WritesInside sampleEnv.dpdk frame view := by
  have hreach := loadedClient_reachable [7, 8, 9]
  have hstate := (loadedClient_handshakeState [7, 8, 9]).trans handshakenClient_finished.1
  obtain ⟨a', hflush⟩ := flush_returns loadedClient_takes (loadedClient_goes (by decide))
    hreach.sending.1 (hreach.encCtx hstate)
  obtain ⟨frame, view, hwritten, houtside, -⟩ :=
    flush_not_inside sampleEnv (loadedClient [7, 8, 9]) a' hreach hflush
  exact ⟨a', frame, view, hflush, hwritten, houtside⟩

/-- The largest message that `flush` lets through puts its tag behind the end of the view. -/
theorem largest_message_outside :
    ∃ a' frame view, flush sampleEnv (loadedClient (List.replicate 2109 0)) = .ok () a' ∧
      Written sampleEnv (loadedClient (List.replicate 2109 0)) a' frame view ∧
      frame.size = 2192 ∧ view.size = 2176 ∧ sampleEnv.dpdk.tailroom = 2048 ∧
      ¬ WritesInside sampleEnv.dpdk frame view := by
  have hreach := loadedClient_reachable (List.replicate 2109 0)
  have hstate := (loadedClient_handshakeState (List.replicate 2109 0)).trans
    handshakenClient_finished.1
  have hsize : (loadedClient (List.replicate 2109 0)).sendBuffer.size = 2109 := by
    rw [size_loadedClient] <;> rw [List.length_replicate]
    decide
  obtain ⟨a', hflush⟩ := flush_returns loadedClient_takes
    (loadedClient_goes (Nat.le_of_eq List.length_replicate)) hreach.sending.1 (hreach.encCtx hstate)
  obtain ⟨frame, view, hwritten, hview, -⟩ := flush_written hreach hflush
  have hframe : frame.size = 2192 := by rw [hwritten.size, hsize]
  refine ⟨a', frame, view, hflush, hwritten, hframe, hview, rfl, fun hinside => ?_⟩
  have hle := hinside.frame_le
  rw [hframe, hview] at hle
  exact absurd hle (by decide)

end Client

end WsGateway.Network.Tls12
