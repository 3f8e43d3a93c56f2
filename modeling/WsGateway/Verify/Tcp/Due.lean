import WsGateway.Verify.Tcp.Acknowledge

/-!
# Segments that are due

What it takes for a connected client to get through `process_packet` without an exception: the
device works, the segment is valid, starts at the next byte expected, acknowledges what was sent,
and leaves no more in flight than the window covers. Such a segment leaves the client connected.
-/

namespace WsGateway.Network.Tcp

open Library

/-- The pool never runs out of buffers with room for the headers, and the card takes every packet. -/
structure Serves (dpdk : Dpdk) : Prop where
  alloc : ∀ k, dpdk.pktmbufAlloc k ≠ none
  room : 34 ≤ dpdk.dataRoomSize.toNat
  burst : ∀ k, dpdk.ethTxBurst k ≠ 0

theorem sampleDpdk_serves : Serves sampleDpdk := by
  refine ⟨fun k => ?_, ?_, fun k => ?_⟩ <;> simp [sampleDpdk]

namespace Client

/-- The segment is the next one, and its acknowledgement is in order. -/
structure Due (c : Client) (p : PacketView) : Prop where
  valid : p.isValid = true
  no_rst : hasFlag p.header.flags .RST = false
  seq : p.header.seq = c.ack
  ack : c.AckOk p
  covers : c.WindowCovers p

section Due

variable {dpdk : Dpdk} {c : Client} {p : PacketView}

theorem Serves.deviceReady (h : Serves dpdk) (d : Device) : DeviceReady dpdk d :=
  ⟨h.alloc _, h.room, h.burst _⟩

theorem Due.not_old (h : c.Due p) : ¬ c.Old p := by
  intro hold
  have hlt := hold.1
  rw [h.seq, SeqNumber.cmp_self] at hlt
  cases hlt

theorem Due.accepts (h : c.Due p) : c.Accepts p :=
  ⟨h.valid, h.no_rst, h.not_old, Or.inl h.seq, h.ack⟩

theorem Due.not_mistaken (h : c.Due p) : ¬ c.Mistaken p := by
  rintro ⟨hzero, hne, -⟩
  exact hne (h.seq.trans hzero)

theorem WindowCovers.took_le (h : c.WindowCovers p) :
    ((c.acked p).took p).unacknowledgedBytes ≤ ((c.acked p).took p).sendWnd := by
  have hwnd : (c.windowed p).sendWnd = if peerRwnd p.header.window c.peerWindowScale > 0 then
      peerRwnd p.header.window c.peerWindowScale else c.sendWnd := by
    cases c
    rfl
  rw [took_unacknowledgedBytes, took_sendWnd, acked_unacknowledgedBytes, acked_sendWnd, hwnd]
  exact h

/-- A connected client takes a segment that is due. -/
theorem processPacket_due (hserves : Serves dpdk) (hstate : c.state = .Connected) (h : c.Due p) :
    processPacket dpdk p c = .ok () (receiveStep dpdk c p) := by
  unfold receiveStep
  apply eq_ok_of_not_threw
  by_cases hpayload : p.payload.size = 0
  · rcases processPacket_cases dpdk p c with ⟨-, heq⟩ | ⟨hrej, -⟩
    · rw [heq, deliver_nothing]
      · rfl
      · rw [acked_state, hstate]
        rintro ⟨hconnecting, -⟩
        cases hconnecting
      · rintro ⟨-, hne⟩
        exact hne hpayload
    · exact absurd h.accepts hrej
  · obtain ⟨c', h', hack, -⟩ := sendAck_eq_ok dpdk (c := (c.acked p).took p)
      (Serves.deviceReady hserves _) h.covers.took_le
    rw [processPacket_accepted dpdk hstate hpayload h.accepts, hack]
    exact threw_ok () c'

theorem receiveStep_due (hstate : c.state = .Connected) (h : c.Due p) :
    (receiveStep dpdk c p).state = .Connected :=
  (receiveStep_connected dpdk hstate h.not_mistaken).1

end Due

end Client

end WsGateway.Network.Tcp
