import WsGateway.Verify.Dpdk.SendQueue
import WsGateway.Verify.Tcp.Receive

/-!
# Calls that fail

`send` moves its counters after the window was checked and before the card takes
the packet, so a packet the card refuses leaves a gap in the sequence numbers.
`process_packet` takes over the window of a segment before it looks at the
acknowledgement number, so a segment it refuses for that number still changes the
window.
-/

namespace WsGateway.Network.Tcp.Client

open Library Device

/-! ## Sending -/

/-- A `send` that throws leaves the counters, and one that returns has given the card one frame and
moved them by the payload. -/
structure SendsAtomically (dpdk : Dpdk) (packet : SendBuffer) (payloadLen : Nat) (c : Client) :
    Prop where
  failed : ∀ e c', send dpdk packet payloadLen c = .error e c' →
    c'.seq = c.seq ∧ c'.unacknowledgedBytes = c.unacknowledgedBytes ∧ c'.ipId = c.ipId
  returned : ∀ c', send dpdk packet payloadLen c = .ok () c' →
    c'.sender.transmitted = c.sender.transmitted ++
        [(finishPacket dpdk packet payloadLen).eth.rawBytes] ∧
      c'.seq = c.seq + UInt32.ofNat payloadLen ∧
      c'.unacknowledgedBytes = c.unacknowledgedBytes + UInt32.ofNat payloadLen

/-- **Sending is atomic** exactly if the window is full or the card takes the packet. -/
theorem sendsAtomically_iff (dpdk : Dpdk) (packet : SendBuffer) (payloadLen : Nat) (c : Client) :
    SendsAtomically dpdk packet payloadLen c ↔
      c.sendWnd.toNat < (c.unacknowledgedBytes.toNat + payloadLen) % 2 ^ 64 ∨
        dpdk.ethTxBurst c.sender.bursts ≠ 0 := by
  have hsend := send_apply dpdk packet payloadLen c
  by_cases hwindow : (c.unacknowledgedBytes.toNat + payloadLen) % 2 ^ 64 ≤ c.sendWnd.toNat
  · rw [if_pos hwindow] at hsend
    by_cases hburst : dpdk.ethTxBurst c.sender.bursts = 0
    · -- the card refuses the packet after `ip_id` was counted
      rw [if_pos hburst] at hsend
      refine iff_of_false (fun h => ?_) ?_
      · have hid : c.ipId + 1 = c.ipId := (h.failed _ _ hsend).2.2
        exact absurd hid (by simp)
      · rintro (hlt | hne)
        · exact absurd hwindow (Nat.not_le_of_lt hlt)
        · exact hne hburst
    · rw [if_neg hburst] at hsend
      refine iff_of_true ⟨fun e c' h => ?_, fun c' h => ?_⟩ (Or.inr hburst)
      · rw [hsend] at h
        cases h
      · rw [hsend] at h
        cases h
        exact ⟨rfl, rfl, rfl⟩
  · rw [if_neg hwindow] at hsend
    refine iff_of_true ⟨fun e c' h => ?_, fun c' h => ?_⟩ (Or.inl (Nat.lt_of_not_le hwindow))
    · rw [hsend] at h
      cases h
      exact ⟨rfl, rfl, rfl⟩
    · rw [hsend] at h
      cases h

/-- A connected client that has sent nothing but its SYN. -/
def connected : Client := { connecting with state := .Connected }

/-- A packet that the card refuses is counted all the same: the next one leaves a gap of its five
bytes. -/
theorem refused_packet_counted :
    ∃ packet c e c', getSendBuffer Device.refusingDpdk .PSH_ACK false connected = .ok packet c ∧
      send Device.refusingDpdk packet 5 c = .error e c' ∧ c.seq = 7 ∧ c'.seq = 12 ∧
      ¬ SendsAtomically Device.refusingDpdk packet 5 c := by
  have hreturns : threw (getSendBuffer Device.refusingDpdk .PSH_ACK false connected) = false := by
    decide +kernel
  cases hget : getSendBuffer Device.refusingDpdk .PSH_ACK false connected with
  | error e c =>
    rw [hget] at hreturns
    cases hreturns
  | ok packet c =>
    obtain ⟨-, d, rfl⟩ := (getSendBuffer_ends Device.refusingDpdk .PSH_ACK false _).ok hget
    have hwindow : (connected.unacknowledgedBytes.toNat + 5) % 2 ^ 64 ≤
        connected.sendWnd.toNat := by decide
    have hsend := send_apply Device.refusingDpdk packet 5 { connected with sender := d }
    rw [if_pos hwindow, if_pos (show Device.refusingDpdk.ethTxBurst d.bursts = 0 from rfl)] at hsend
    have hseq : connected.seq + UInt32.ofNat 5 = 12 := by decide
    refine ⟨packet, _, _, _, rfl, hsend, rfl, hseq, fun h => ?_⟩
    have hsame : connected.seq + UInt32.ofNat 5 = connected.seq := (h.failed _ _ hsend).1
    exact absurd hsame (by decide)

/-! ## Receiving -/

/-- The variables of the connection are the same. -/
structure SameConnection (c c' : Client) : Prop where
  state : c'.state = c.state
  seq : c'.seq = c.seq
  ack : c'.ack = c.ack
  lastAckNumber : c'.lastAckNumber = c.lastAckNumber
  unacknowledgedBytes : c'.unacknowledgedBytes = c.unacknowledgedBytes
  sendWnd : c'.sendWnd = c.sendWnd
  peerWindowScale : c'.peerWindowScale = c.peerWindowScale

variable {dpdk : Dpdk} {c : Client} {p : PacketView}

theorem SameConnection.refl (c : Client) : SameConnection c c := ⟨rfl, rfl, rfl, rfl, rfl, rfl, rfl⟩

/-- A segment with a bad acknowledgement number is refused after its window was taken over. -/
theorem processPacket_badAck (dpdk : Dpdk) (h : c.Reaches p) (hack : ¬ c.AckOk p) :
    ∃ e, processPacket dpdk p c = .error e (c.windowed p) := by
  rw [processPacket, require_bind, if_pos h.valid]
  dsimp only
  rw [require_bind, if_pos (by simpa using h.no_rst), bind_of_ok (get_apply c),
    if_neg (by simpa [Old] using h.not_old), require_bind, if_pos (by simpa using h.in_order),
    bind_of_ok (modify_apply _ c), require_bind]
  by_cases hdec : c.lastAckNumber.cmp p.header.ack ≠ .gt
  · have hcover : ¬ p.header.ack - c.lastAckNumber ≤ c.unacknowledgedBytes := fun hcover =>
      hack ⟨hdec, hcover⟩
    rw [if_pos (by simpa using hdec), require_bind, if_neg fun h => hcover (of_decide_eq_true h)]
    exact ⟨_, rfl⟩
  · rw [if_neg (by simpa using hdec)]
    exact ⟨_, rfl⟩

/-- **Rejected segments**: a segment that `process_packet` drops or refuses leaves the variables of
the connection exactly if it is not one with a new window whose acknowledgement number alone is
bad. -/
theorem rejected_unchanged_iff (dpdk : Dpdk) (c : Client) (p : PacketView) :
    (¬ c.Accepts p → SameConnection c (after (processPacket dpdk p c))) ↔
      ¬ (c.Reaches p ∧ ¬ c.AckOk p ∧ 0 < peerRwnd p.header.window c.peerWindowScale ∧
        peerRwnd p.header.window c.peerWindowScale ≠ c.sendWnd) := by
  constructor
  · rintro hsame ⟨hreach, hack, hpos, hne⟩
    obtain ⟨e, hbad⟩ := processPacket_badAck dpdk hreach hack
    have hwnd := (hsame fun h => hack h.ack_ok).sendWnd
    rw [hbad] at hwnd
    change (if _ then _ else _) = _ at hwnd
    rw [if_pos hpos] at hwnd
    exact hne hwnd
  · intro hcond hrej
    rcases processPacket_cases dpdk p c with ⟨hacc, -⟩ | ⟨-, hcase⟩
    · exact absurd hacc hrej
    · generalize processPacket dpdk p c = r at hcase
      cases hcase with
      | dropped => exact .refl c
      | refused => exact .refl c
      | refusedAck e hreach =>
        -- only the window can have moved, and the condition excludes a new one
        have hack : ¬ c.AckOk p := fun hack =>
          hrej ⟨hreach.valid, hreach.no_rst, hreach.not_old, hreach.in_order, hack⟩
        refine ⟨rfl, rfl, rfl, rfl, rfl, ?_, rfl⟩
        change (if _ then _ else _) = _
        split
        · rename_i hpos
          by_contra hne
          exact hcond ⟨hreach, hack, hpos, hne⟩
        · rfl

/-- The client when the peer's next byte has the number `100`. -/
def expecting : Client := { connected with ack := 100 }

/-- A segment with that number and a window of one byte that acknowledges `1000` bytes, of which
none was sent. -/
def ackBeyond : PacketView := .receivedWith sampleConnection .ACK 100 1007 1 [] []

/-- The refused segment shrinks the send window to one byte. -/
theorem refused_segment_moves_window :
    ¬ (¬ expecting.Accepts ackBeyond →
        SameConnection expecting (after (processPacket sampleDpdk ackBeyond expecting))) ∧
      threw (processPacket sampleDpdk ackBeyond expecting) = true := by
  have hreach : expecting.Reaches ackBeyond := ⟨by decide, by decide, by decide, by decide⟩
  have hack : ¬ expecting.AckOk ackBeyond := by decide
  obtain ⟨e, hbad⟩ := processPacket_badAck sampleDpdk hreach hack
  refine ⟨fun h => ?_, by rw [hbad]; rfl⟩
  have hwnd : (expecting.windowed ackBeyond).sendWnd = expecting.sendWnd := by
    have hsame := (h fun hacc => hack hacc.ack_ok).sendWnd
    rwa [hbad] at hsame
  exact absurd hwnd (by decide)

end WsGateway.Network.Tcp.Client
