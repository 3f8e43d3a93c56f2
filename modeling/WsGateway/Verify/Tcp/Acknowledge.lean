import WsGateway.Verify.Tcp.Frame

/-!
# Acknowledgements

A segment with payload should be answered with one acknowledgement that names the
next byte expected. `process_packet` drops an old segment without a word, and
sends its acknowledgements through the window check meant for data, so a peer
that shrinks its window below what is in flight gets none. For a segment a
connected client has to answer, these and a missing buffer are all that can go
wrong.
-/

namespace WsGateway.Network.Tcp

open Library

namespace Client

/-- The number of the next byte expected after the segment. -/
def expected (c : Client) (p : PacketView) : SeqNumber :=
  if p.header.seq = c.ack then p.header.seq + UInt32.ofNat p.payload.size else c.ack

/-- The segment is answered with exactly one acknowledgement, which names the next byte. -/
def Acknowledged (dpdk : Dpdk) (c : Client) (p : PacketView) : Prop :=
  ∃ c' h, processPacket dpdk p c = .ok () c' ∧ c'.handed = c.handed ++ [h] ∧ h.payloadLen = 0 ∧
    h.frame.header.flags = .ACK ∧ h.frame.header.ack = c.expected p

/-- The pool has a buffer with room for the headers, and the card takes a packet. -/
def DeviceReady (dpdk : Dpdk) (d : Device) : Prop :=
  dpdk.pktmbufAlloc d.allocs ≠ none ∧ 34 ≤ dpdk.dataRoomSize.toNat ∧ dpdk.ethTxBurst d.bursts ≠ 0

section Sending

variable (dpdk : Dpdk) {c : Client}

theorem cksumBytes_eq_beBytes (x : UInt16) : ∃ y : UInt16, cksumBytes x = beBytes 2 y.toNat := by
  refine ⟨swapBytes x, ?_⟩
  rw [← cksumBytes_swapBytes, swapBytes_swapBytes]

/-- The steps of `send` keep the flags and the numbers of an empty packet. -/
theorem finishPacket_header {v : PacketView} {eth : EthernetHeader} {ip : IpHeader} {tcp : Header}
    {rest : List UInt8} (h : v.Laid eth ip tcp rest) :
    (finishPacket dpdk ⟨v⟩ 0).header.flags = tcp.flags ∧
      (finishPacket dpdk ⟨v⟩ 0).header.ack = tcp.ack := by
  have hoff : 20 + tcp.dataOffset + 0 < 2 ^ 16 := by
    rcases h.tcpPlain.offset with hoff | hoff
    · rw [Header.dataOffset, hoff]
      decide
    · rw [Header.dataOffset, hoff]
      decide
  obtain ⟨hcut, -⟩ := h.resizePayload hoff
  obtain ⟨tcpSum, htcpSum⟩ := cksumBytes_eq_beBytes (dpdk.ipv4UdptcpCksum
    (v.resizePayload 0).raw.mem ((v.resizePayload 0).raw.data + 14)
    ((v.resizePayload 0).raw.data + 34))
  have hsummed := hcut.updateChecksum htcpSum
  obtain ⟨ipSum, hipSum⟩ := cksumBytes_eq_beBytes (dpdk.ipv4Cksum
    ((v.resizePayload 0).updateChecksum dpdk).raw.mem
    (((v.resizePayload 0).updateChecksum dpdk).raw.data + 14))
  have hheader : (finishPacket dpdk ⟨v⟩ 0).header = { tcp with checksum := tcpSum } :=
    (hsummed.updateIpChecksum hipSum).header_eq
  rw [hheader]
  exact ⟨rfl, rfl⟩

theorem sendAck_eq_ok (hready : DeviceReady dpdk c.sender)
    (hwindow : c.unacknowledgedBytes ≤ c.sendWnd) :
    ∃ c' h, sendAck dpdk c = .ok () c' ∧ c'.handed = c.handed ++ [h] ∧ h.payloadLen = 0 ∧
      h.frame.header.flags = .ACK ∧ h.frame.header.ack = c.ack := by
  obtain ⟨halloc, hroom, hburst⟩ := hready
  obtain ⟨mem, hmem⟩ := Option.ne_none_iff_exists'.mp halloc
  obtain ⟨packet, hbuffer, hlaid⟩ := getSendBuffer_laid c .ACK false hmem hroom
  obtain ⟨d, hsend, -⟩ := send_eq_ok packet (n := 0)
    (c := { c with sender := { c.sender with allocs := c.sender.allocs + 1 } }) hwindow hburst
  obtain ⟨hflags, hack⟩ := finishPacket_header dpdk hlaid
  exact ⟨_, _, (bind_of_ok hbuffer).trans hsend, rfl, rfl, hflags, hack⟩

theorem send_threw {packet : SendBuffer}
    (h : ¬ (c.unacknowledgedBytes ≤ c.sendWnd ∧ dpdk.ethTxBurst c.sender.bursts ≠ 0)) :
    threw (send dpdk packet 0 c) = true := by
  have hlt := c.unacknowledgedBytes.toNat_lt
  have hmod : (c.unacknowledgedBytes.toNat + 0) % 2 ^ 64 = c.unacknowledgedBytes.toNat := by omega
  rw [send, bind_of_ok (get_apply c), require_bind, hmod]
  split
  · rename_i hroom
    have hburst : dpdk.ethTxBurst c.sender.bursts = 0 := by
      by_contra hne
      exact h ⟨of_decide_eq_true hroom, hne⟩
    rw [bind_of_ok (modify_apply _ c), onSender, threw_zoom]
    change threw (Device.sendPacket dpdk _ _ c.sender) = true
    rw [Device.sendPacket_apply, if_pos hburst]
    rfl
  · rfl

theorem sendAck_threw
    (h : ¬ (DeviceReady dpdk c.sender ∧ c.unacknowledgedBytes ≤ c.sendWnd)) :
    threw (sendAck dpdk c) = true := by
  have hbuffer := getSendBuffer_returns dpdk .ACK false c
  rw [sendAck]
  cases hr : getSendBuffer dpdk .ACK false c with
  | error e t =>
    rw [bind_of_error hr]
    rfl
  | ok packet t =>
    obtain ⟨⟨halloc, hroom⟩, rfl⟩ := hbuffer.ok hr
    rw [bind_of_ok hr]
    refine send_threw dpdk ?_
    rintro ⟨hwindow, hburst⟩
    exact h ⟨⟨halloc, hroom, hburst⟩, hwindow⟩

end Sending

section Answer

variable (dpdk : Dpdk) {c : Client} {p : PacketView}

/-- The segment carries a number the client has sent up to, counted from the last one. -/
def AckBetween (c : Client) (p : PacketView) : Prop :=
  c.lastAckNumber.cmp p.header.ack ≠ .gt ∧
    p.header.ack - c.lastAckNumber ≤ c.seq - c.lastAckNumber

theorem ackOk_of_between (hc : c.Balanced) (hstate : c.state = .Connected)
    (h : c.AckBetween p) : c.AckOk p := by
  refine ⟨h.1, ?_⟩
  have hunack : c.unacknowledgedBytes = c.seq - c.lastAckNumber := by
    have hseq : c.seq + synByte c.state = c.seq := by
      rw [synByte, if_neg (by rw [hstate]; decide)]
      exact SeqNumber.add_zero c.seq
    rw [Balanced, hseq] at hc
    exact hc
  rw [hunack]
  exact h.2

/-- How a connected client answers a segment with payload that it accepts. -/
theorem processPacket_accepted (hstate : c.state = .Connected) (hpayload : p.payload.size ≠ 0)
    (hacc : c.Accepts p) :
    processPacket dpdk p c = sendAck dpdk ((c.acked p).took p) := by
  rcases processPacket_cases dpdk p c with ⟨-, heq⟩ | ⟨hrej, -⟩
  · rw [heq, deliver, bind_of_ok (get_apply _), if_neg (by simp [hstate]),
      if_pos (by simpa [hstate, ByteView.empty] using hpayload), bind_of_ok (modify_apply _ _)]
  · exact absurd hacc hrej

theorem not_acknowledged_of_old (hold : c.Old p) : ¬ Acknowledged dpdk c p := by
  rintro ⟨c', h, hok, hhanded, -⟩
  rcases processPacket_cases dpdk p c with ⟨hacc, -⟩ | ⟨-, hcase⟩
  · exact hacc.not_old hold
  · rw [hok] at hcase
    cases hcase
    simp at hhanded

/-- What is in flight after the segment fits the window in force after it. -/
def WindowCovers (c : Client) (p : PacketView) : Prop :=
  c.unacknowledgedBytes - (p.header.ack - c.lastAckNumber) ≤
    if peerRwnd p.header.window c.peerWindowScale > 0 then
      peerRwnd p.header.window c.peerWindowScale
    else c.sendWnd

theorem acknowledged_of_accepts (hstate : c.state = .Connected) (hpayload : p.payload.size ≠ 0)
    (hacc : c.Accepts p) :
    Acknowledged dpdk c p ↔ p.header.seq + UInt32.ofNat p.payload.size = c.expected p ∧
      c.WindowCovers p ∧ DeviceReady dpdk c.sender := by
  have hsender : ((c.acked p).took p).sender = c.sender := by
    cases c
    rfl
  have hack : ((c.acked p).took p).ack = p.header.seq + UInt32.ofNat p.payload.size := rfl
  have hwindow : ((c.acked p).took p).unacknowledgedBytes ≤ ((c.acked p).took p).sendWnd ↔
      c.WindowCovers p := by
    rw [took_unacknowledgedBytes, took_sendWnd, acked_unacknowledgedBytes, acked_sendWnd]
    have hwnd : (c.windowed p).sendWnd = if peerRwnd p.header.window c.peerWindowScale > 0 then
        peerRwnd p.header.window c.peerWindowScale else c.sendWnd := by
      cases c
      rfl
    rw [hwnd, WindowCovers]
  have hhanded : ((c.acked p).took p).handed = c.handed := by simp
  unfold Acknowledged
  rw [processPacket_accepted dpdk hstate hpayload hacc]
  generalize (c.acked p).took p = t at *
  by_cases hsend : DeviceReady dpdk t.sender ∧ t.unacknowledgedBytes ≤ t.sendWnd
  · obtain ⟨c', h, hok, hc', hlen, hflags, hnum⟩ := sendAck_eq_ok dpdk hsend.1 hsend.2
    constructor
    · rintro ⟨c'', h', hok', hc'', -, -, hnum'⟩
      have hsame : c'' = c' := by
        rw [hok] at hok'
        cases hok'
        rfl
      have hlast : h' = h := by
        have happend : c.handed ++ [h'] = c.handed ++ [h] := by rw [← hc'', hsame, hc', hhanded]
        simpa using happend
      refine ⟨?_, hwindow.mp hsend.2, hsender ▸ hsend.1⟩
      rw [← hack, ← hnum, ← hlast]
      exact hnum'
    · rintro ⟨hnext, -, -⟩
      exact ⟨c', h, hok, hhanded ▸ hc', hlen, hflags, by rw [hnum, hack, hnext]⟩
  · have hthrew := sendAck_threw dpdk hsend
    constructor
    · rintro ⟨c', h, hok, -⟩
      rw [hok] at hthrew
      cases hthrew
    · rintro ⟨-, hcovers, hready⟩
      exact absurd ⟨hsender.symm ▸ hready, hwindow.mpr hcovers⟩ hsend

/-- `connect` that returns leaves the counters balanced. -/
theorem connect_balanced {connection : Connection} {sender : Device} {isn : SeqNumber}
    {ipId : UInt16} {c₀ : Client}
    (h : connect dpdk (new connection sender isn ipId) = .ok () c₀) : c₀.Balanced := by
  obtain ⟨tx, c₁, htx, h⟩ := bind_eq_ok h
  obtain ⟨d, rfl⟩ := (onSender_ends _ _).ok htx
  obtain ⟨_, c₂, hmod, h⟩ := bind_eq_ok h
  cases hmod
  obtain ⟨packet, c₃, hbuffer, h⟩ := bind_eq_ok h
  obtain ⟨-, d, rfl⟩ := (getSendBuffer_ends dpdk .SYN true _).ok hbuffer
  obtain ⟨_, c₄, hsend, h⟩ := bind_eq_ok h
  obtain ⟨d, rfl⟩ := (send_ends dpdk packet 0 _).ok hsend
  cases h
  rw [balanced_iff]
  change 1 + isn.value = isn.value + 0 + 1
  grind

/-- **Acknowledgements**: in every state a run from a successful `connect` leads to, a connected
client answers a valid segment with payload, in order or old and with an acknowledgement number it
has sent up to, exactly if the segment is in order (or ends at the number `0`, where the mark for an
unknown number lets it through), what is then in flight fits the window, and the device can send. -/
theorem acknowledged_iff {connection : Connection} {sender : Device} {isn : SeqNumber}
    {ipId : UInt16} {c₀ : Client}
    (hconnect : connect dpdk (new connection sender isn ipId) = .ok () c₀) (calls : List Call)
    (hc : calls.foldl (callStep dpdk) c₀ = c) (hstate : c.state = .Connected)
    (hvalid : p.isValid = true) (hrst : hasFlag p.header.flags .RST = false)
    (hpayload : p.payload.size ≠ 0)
    (hseq : p.header.seq = c.ack ∨ p.header.seq.cmp c.ack = .lt) (hack : c.AckBetween p) :
    Acknowledged dpdk c p ↔
      (p.header.seq = c.ack ∨
        (c.ack = 0 ∧ p.header.seq + UInt32.ofNat p.payload.size = 0)) ∧
      c.WindowCovers p ∧ DeviceReady dpdk c.sender := by
  have hbalanced : c.Balanced := hc ▸ run_balanced dpdk calls (connect_balanced dpdk hconnect)
  by_cases hold : c.Old p
  · have hne : p.header.seq ≠ c.ack := by
      intro heq
      have hlt := hold.1
      rw [heq, SeqNumber.cmp_self] at hlt
      cases hlt
    constructor
    · intro h
      exact absurd h (not_acknowledged_of_old dpdk hold)
    · rintro ⟨heq | ⟨hzero, -⟩, -⟩
      · exact absurd heq hne
      · exact absurd hzero hold.2
  · have horder : p.header.seq = c.ack ∨ c.ack = 0 := by
      rcases hseq with heq | hlt
      · exact Or.inl heq
      · by_contra hno
        exact hold ⟨hlt, fun hzero => hno (Or.inr hzero)⟩
    have hacc : c.Accepts p :=
      ⟨hvalid, hrst, hold, horder, ackOk_of_between hbalanced hstate hack⟩
    rw [acknowledged_of_accepts dpdk hstate hpayload hacc]
    refine and_congr_left fun _ => ?_
    unfold expected
    by_cases heq : p.header.seq = c.ack
    · simp [heq]
    · have hzero : c.ack = 0 := horder.resolve_left heq
      rw [if_neg heq, hzero]
      simp [hzero ▸ heq]

end Answer

/-- A first segment is answered. -/
theorem first_segment_acknowledged :
    Acknowledged sampleDpdk (runFrom sampleDpdk unconnected [.receive (synAck 0)])
      (segment 1 [65, 66]) := by
  have hconnect : connect sampleDpdk unconnected = .ok () (after (connect sampleDpdk unconnected)) :=
    eq_ok_of_not_threw (by decide +kernel)
  refine (acknowledged_iff sampleDpdk hconnect [.receive (synAck 0)] rfl ?_ ?_ ?_ ?_ ?_ ?_).mpr
    ⟨Or.inl ?_, ?_, ?_⟩
  · decide +kernel
  · decide +kernel
  · decide +kernel
  · decide +kernel
  · exact Or.inl (by decide +kernel)
  · exact ⟨by decide +kernel, by decide +kernel⟩
  · decide +kernel
  · unfold WindowCovers
    decide +kernel
  · exact ⟨by decide +kernel, by decide +kernel, by decide +kernel⟩

/-- The client after the first segment. -/
def acknowledging : Client :=
  runFrom sampleDpdk unconnected [.receive (synAck 0), .receive (segment 1 [65, 66])]

/-- The retransmission of the first segment is not answered. -/
theorem retransmission_not_acknowledged :
    acknowledging.state = .Connected ∧ (segment 1 [65, 66]).isValid = true ∧
      hasFlag (segment 1 [65, 66]).header.flags .RST = false ∧
      (segment 1 [65, 66]).payload.size ≠ 0 ∧
      (segment 1 [65, 66]).header.seq.cmp acknowledging.ack = .lt ∧
      acknowledging.AckBetween (segment 1 [65, 66]) ∧
      ¬ Acknowledged sampleDpdk acknowledging (segment 1 [65, 66]) := by
  refine ⟨by decide +kernel, by decide +kernel, by decide +kernel, by decide +kernel,
    by decide +kernel, ⟨by decide +kernel, by decide +kernel⟩, ?_⟩
  refine not_acknowledged_of_old sampleDpdk ?_
  exact ⟨by decide +kernel, by decide +kernel⟩

end Client

end WsGateway.Network.Tcp
