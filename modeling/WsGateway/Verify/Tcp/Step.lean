import WsGateway.Verify.Tcp.Packet

/-!
# What a call does to the TCP client

`Sends c c'` says that `c'` is `c` after any number of calls to the device, each
of them either without effect on the counters or one that hands a packet with
the current sequence number to `send_raw`. Everything above the TCP client that
sends moves it along this relation. `process_packet` is split into its checks,
`Accepts`, and what follows them, `deliver`; the later files use the case lemmas
and never unfold it.
-/

namespace WsGateway.Network.Tcp

open Library

namespace Client

/-! ## Sending -/

/-- One call to the device. -/
inductive SendStep : Client → Client → Prop where
  /-- Only the device's own state changes. -/
  | device (c : Client) (d : Device) : SendStep c { c with sender := d }
  /-- A packet with the current sequence number is handed over, and the counters move on. -/
  | hand (c : Client) (frame : PacketView) (n : Nat) (hseq : frame.header.seq = c.seq) :
      SendStep c { c with
        ipId := c.ipId + 1
        seq := c.seq + UInt32.ofNat n
        unacknowledgedBytes := c.unacknowledgedBytes + UInt32.ofNat n
        handed := c.handed ++ [⟨c.state, frame, n⟩] }

/-- Any number of calls to the device. -/
def Sends : Client → Client → Prop := Relation.ReflTransGen SendStep

instance : Std.Refl Sends := ⟨fun _ => .refl⟩

instance : IsTrans Client Sends := ⟨fun _ _ _ => Relation.ReflTransGen.trans⟩

theorem Sends.device (c : Client) (d : Device) : Sends c { c with sender := d } :=
  .single (.device c d)

/-- What every call to the device preserves, a sequence of them does. -/
theorem Sends.invariant {I : Client → Prop} (hstep : ∀ c c', SendStep c c' → I c → I c')
    {c c' : Client} (h : Sends c c') (hc : I c) : I c' := by
  induction h with
  | refl => exact hc
  | tail _ hlast ih => exact hstep _ _ hlast ih

/-- Sending leaves the receive side and the state alone. -/
theorem Sends.frame {c c' : Client} (h : Sends c c') :
    c'.state = c.state ∧ c'.ack = c.ack ∧ c'.lastAckNumber = c.lastAckNumber ∧
      c'.sendWnd = c.sendWnd ∧ c'.peerWindowScale = c.peerWindowScale ∧
      c'.connection = c.connection := by
  refine h.invariant (I := fun t => t.state = c.state ∧ t.ack = c.ack ∧
    t.lastAckNumber = c.lastAckNumber ∧ t.sendWnd = c.sendWnd ∧
    t.peerWindowScale = c.peerWindowScale ∧ t.connection = c.connection) ?_
    ⟨rfl, rfl, rfl, rfl, rfl, rfl⟩
  intro t t' hstep ht
  cases hstep with
  | device d => exact ht
  | hand frame n hseq => exact ht

theorem Sends.state_eq {c c' : Client} (h : Sends c c') : c'.state = c.state := h.frame.1

theorem Sends.ack_eq {c c' : Client} (h : Sends c c') : c'.ack = c.ack := h.frame.2.1

section Calls

variable (dpdk : Dpdk)

/-- A method call on the device. -/
theorem onSender_ends {α : Type} (x : Prog Device α) (c : Client) :
    Ends (onSender x) c (fun _ t => ∃ d, t = { c with sender := d })
      (fun _ t => ∃ d, t = { c with sender := d }) := by
  apply Ends.member
  unfold Ends
  cases x c.sender <;> exact ⟨_, rfl⟩

/-- `get_send_buffer` returns a packet with the current sequence number and changes only the
device. -/
theorem getSendBuffer_ends (flags : Flags) (includeOptions : Bool) (c : Client) :
    Ends (getSendBuffer dpdk flags includeOptions) c
      (fun packet t => packet.tcp.Stamped c.seq ∧ ∃ d, t = { c with sender := d })
      (fun _ t => ∃ d, t = { c with sender := d }) := by
  refine Ends.seq (onSender_ends _ c) ?_
  rintro tx _ ⟨d, rfl⟩
  apply Ends.read
  cases hinit : (PacketView.ofBytes tx).init c.connection flags c.seq c.ack includeOptions with
  | error e => exact ⟨d, rfl⟩
  | ok tcp => exact ⟨(PacketView.stamped_of_init hinit).setIpId c.ipId, d, rfl⟩

/-- The client right after `send` moved its counters. -/
def handOver (c : Client) (packet : SendBuffer) (payloadLen : Nat) : Client :=
  { c with
    ipId := c.ipId + 1
    seq := c.seq + UInt32.ofNat payloadLen
    unacknowledgedBytes := c.unacknowledgedBytes + UInt32.ofNat payloadLen
    handed := c.handed ++ [⟨c.state, finishPacket dpdk packet payloadLen, payloadLen⟩] }

/-- `send` either finds the window full or hands the packet over. -/
theorem send_ends (packet : SendBuffer) (payloadLen : Nat) (c : Client) :
    Ends (send dpdk packet payloadLen) c
      (fun _ t => ∃ d, t = { handOver dpdk c packet payloadLen with sender := d })
      (fun _ t => t = c ∨ ∃ d, t = { handOver dpdk c packet payloadLen with sender := d }) := by
  apply Ends.read
  refine Ends.seq (Q := fun _ t => t = c) ?_ ?_
  · unfold require
    split
    · exact rfl
    · exact Or.inl rfl
  · rintro _ _ rfl
    apply Ends.update
    exact (onSender_ends _ _).mono (fun _ _ h => h) (fun _ _ h => Or.inr h)

/-- The counters move after the window is checked and before the card is asked. -/
theorem send_apply (packet : SendBuffer) (payloadLen : Nat) (c : Client) :
    send dpdk packet payloadLen c =
      if (c.unacknowledgedBytes.toNat + payloadLen) % 2 ^ 64 ≤ c.sendWnd.toNat then
        if dpdk.ethTxBurst c.sender.bursts = 0 then
          .error (.runtimeError "failed to send") { handOver dpdk c packet payloadLen with
            sender := { c.sender with bursts := c.sender.bursts + 1 } }
        else
          .ok () { handOver dpdk c packet payloadLen with
            sender := { c.sender with
              bursts := c.sender.bursts + 1
              transmitted := c.sender.transmitted ++
                [(finishPacket dpdk packet payloadLen).eth.rawBytes] } }
      else .error (.runtimeError "window is full") c := by
  have hsender : (handOver dpdk c packet payloadLen).sender = c.sender := by
    cases c
    rfl
  rw [send, bind_of_ok (get_apply c), require_bind]
  by_cases hwindow : (c.unacknowledgedBytes.toNat + payloadLen) % 2 ^ 64 ≤ c.sendWnd.toNat
  · rw [if_pos (decide_eq_true hwindow), if_pos hwindow]
    refine (bind_of_ok (t := handOver dpdk c packet payloadLen) rfl).trans ?_
    by_cases hburst : dpdk.ethTxBurst c.sender.bursts = 0
    · have hcard : ∀ frame : ByteView, Device.sendPacket dpdk frame frame.size c.sender =
          .error (.runtimeError "failed to send")
            { c.sender with bursts := c.sender.bursts + 1 } := by
        intro frame
        rw [Device.sendPacket_apply, if_pos hburst]
      rw [if_pos hburst]
      refine zoom_of_error ?_
      rw [hsender]
      exact hcard _
    · have hcard : ∀ frame : ByteView, Device.sendPacket dpdk frame frame.size c.sender =
          .ok () { c.sender with
            bursts := c.sender.bursts + 1
            transmitted := c.sender.transmitted ++ [frame] } := by
        intro frame
        rw [Device.sendPacket_apply, if_neg hburst]
      rw [if_neg hburst]
      refine zoom_of_ok ?_
      rw [hsender]
      exact hcard _
  · rw [if_neg fun h => hwindow (of_decide_eq_true h), if_neg hwindow]

/-- A `send` that returns has given the card one frame. -/
theorem transmitted_of_send {packet : SendBuffer} {payloadLen : Nat} {c c' : Client}
    (h : send dpdk packet payloadLen c = .ok () c') :
    c'.sender.transmitted = c.sender.transmitted ++
      [(finishPacket dpdk packet payloadLen).eth.rawBytes] := by
  rw [send_apply] at h
  split at h
  · split at h
    · cases h
    · injection h with _ hc
      rw [← hc]
  · cases h

/-- A packet that carries the current sequence number is sent along `Sends`. -/
theorem send_sends {packet : SendBuffer} {c : Client} (hp : packet.tcp.Stamped c.seq)
    (payloadLen : Nat) :
    Ends (send dpdk packet payloadLen) c (fun _ t => Sends c t) (fun _ t => Sends c t) := by
  have hhand : Sends c (handOver dpdk c packet payloadLen) :=
    .single (.hand c _ payloadLen (hp.finishPacket dpdk payloadLen).header_seq)
  refine (send_ends dpdk packet payloadLen c).mono ?_ ?_
  · rintro _ _ ⟨d, rfl⟩
    exact hhand.tail (.device _ d)
  · rintro _ _ (rfl | ⟨d, rfl⟩)
    · exact .refl
    · exact hhand.tail (.device _ d)

/-- A packet sent right after it was obtained. -/
theorem getSendBuffer_send_sends (flags : Flags) (includeOptions : Bool)
    (fill : SendBuffer → SendBuffer)
    (hfill : ∀ {packet seq}, packet.tcp.Stamped seq → (fill packet).tcp.Stamped seq) (n : Nat) :
    Moves Sends (getSendBuffer dpdk flags includeOptions >>= fun packet =>
      send dpdk (fill packet) n) := by
  refine Moves.of_ends fun c => Ends.seq ((getSendBuffer_ends dpdk flags includeOptions c).mono
    (fun _ _ h => h) ?_) ?_
  · rintro _ _ ⟨d, rfl⟩
    exact .device c d
  · rintro packet _ ⟨hp, d, rfl⟩
    have htrans : ∀ t, Sends { c with sender := d } t → Sends c t :=
      fun t => (Sends.device c d).trans
    exact (send_sends dpdk (c := { c with sender := d }) (hfill hp) n).mono
      (fun _ => htrans) (fun _ => htrans)

theorem sendAck_sends : Moves Sends (sendAck dpdk) :=
  getSendBuffer_send_sends dpdk .ACK false id (fun h => h) 0

/-- An acknowledgement takes no sequence numbers. -/
theorem sendAck_seq : Moves (fun c t : Client => t.seq = c.seq) (sendAck dpdk) := by
  refine Moves.of_ends fun c => Ends.seq ((getSendBuffer_ends dpdk .ACK false c).mono
    (fun _ _ h => h) ?_) ?_
  · rintro _ _ ⟨d, rfl⟩
    rfl
  · rintro packet _ ⟨-, d, rfl⟩
    refine (send_ends dpdk packet 0 _).mono ?_ ?_
    · rintro _ _ ⟨d', rfl⟩
      exact SeqNumber.add_zero c.seq
    · rintro _ _ (rfl | ⟨d', rfl⟩)
      · rfl
      · exact SeqNumber.add_zero c.seq

end Calls

/-! ## Receiving -/

/-- The segment starts before the next byte expected, which is known. -/
def Old (c : Client) (p : PacketView) : Prop := p.header.seq.cmp c.ack = .lt ∧ c.ack ≠ 0

/-- The acknowledgement number does not fall behind the last one and covers only bytes sent. -/
def AckOk (c : Client) (p : PacketView) : Prop :=
  c.lastAckNumber.cmp p.header.ack ≠ .gt ∧
    p.header.ack - c.lastAckNumber ≤ c.unacknowledgedBytes

/-- The segment passes every check of `process_packet`. -/
structure Accepts (c : Client) (p : PacketView) : Prop where
  valid : p.isValid = true
  no_rst : hasFlag p.header.flags .RST = false
  not_old : ¬ c.Old p
  in_order : p.header.seq = c.ack ∨ c.ack = 0
  ack_ok : c.AckOk p

/-- The segment passes the checks before its window is read. -/
structure Reaches (c : Client) (p : PacketView) : Prop where
  valid : p.isValid = true
  no_rst : hasFlag p.header.flags .RST = false
  not_old : ¬ c.Old p
  in_order : p.header.seq = c.ack ∨ c.ack = 0

/-- The client after the window update. -/
def windowed (c : Client) (p : PacketView) : Client :=
  { c with
    sendWnd :=
      if peerRwnd p.header.window c.peerWindowScale > 0 then
        peerRwnd p.header.window c.peerWindowScale
      else c.sendWnd }

/-- The client after the window and acknowledgement updates. -/
def acked (c : Client) (p : PacketView) : Client :=
  { c with
    sendWnd := (c.windowed p).sendWnd
    unacknowledgedBytes := c.unacknowledgedBytes - (p.header.ack - c.lastAckNumber)
    lastAckNumber := p.header.ack }

/-- The client when it becomes connected. -/
def established (c : Client) (p : PacketView) : Client :=
  { c with
    state := .Connected
    ack := p.header.seq + (1 : UInt32)
    seq := c.seq + (1 : UInt32)
    lastAckNumber := p.header.ack }

/-- The client when it has taken a segment's payload. -/
def took (c : Client) (p : PacketView) : Client :=
  { c with ack := p.header.seq + UInt32.ofNat p.payload.size }

section Fields

variable (c : Client) (p : PacketView)

@[simp] theorem windowed_state : (c.windowed p).state = c.state := by cases c; rfl

@[simp] theorem windowed_ack : (c.windowed p).ack = c.ack := by cases c; rfl

@[simp] theorem windowed_seq : (c.windowed p).seq = c.seq := by cases c; rfl

@[simp] theorem windowed_handed : (c.windowed p).handed = c.handed := by cases c; rfl

@[simp] theorem windowed_lastAckNumber : (c.windowed p).lastAckNumber = c.lastAckNumber := by
  cases c; rfl

@[simp] theorem windowed_unacknowledgedBytes :
    (c.windowed p).unacknowledgedBytes = c.unacknowledgedBytes := by cases c; rfl

@[simp] theorem acked_state : (c.acked p).state = c.state := by cases c; rfl

@[simp] theorem acked_ack : (c.acked p).ack = c.ack := by cases c; rfl

@[simp] theorem acked_seq : (c.acked p).seq = c.seq := by cases c; rfl

@[simp] theorem acked_handed : (c.acked p).handed = c.handed := by cases c; rfl

@[simp] theorem acked_lastAckNumber : (c.acked p).lastAckNumber = p.header.ack := by
  cases c; rfl

@[simp] theorem acked_unacknowledgedBytes : (c.acked p).unacknowledgedBytes =
    c.unacknowledgedBytes - (p.header.ack - c.lastAckNumber) := by cases c; rfl

@[simp] theorem established_state : (c.established p).state = .Connected := rfl

@[simp] theorem established_ack : (c.established p).ack = p.header.seq + (1 : UInt32) := rfl

@[simp] theorem established_seq : (c.established p).seq = c.seq + (1 : UInt32) := rfl

@[simp] theorem established_handed : (c.established p).handed = c.handed := by cases c; rfl

@[simp] theorem established_lastAckNumber : (c.established p).lastAckNumber = p.header.ack := rfl

@[simp] theorem established_unacknowledgedBytes :
    (c.established p).unacknowledgedBytes = c.unacknowledgedBytes := by cases c; rfl

@[simp] theorem took_state : (c.took p).state = c.state := by cases c; rfl

@[simp] theorem took_ack : (c.took p).ack = p.header.seq + UInt32.ofNat p.payload.size := rfl

@[simp] theorem took_seq : (c.took p).seq = c.seq := by cases c; rfl

@[simp] theorem took_handed : (c.took p).handed = c.handed := by cases c; rfl

@[simp] theorem took_lastAckNumber : (c.took p).lastAckNumber = c.lastAckNumber := by cases c; rfl

@[simp] theorem took_unacknowledgedBytes :
    (c.took p).unacknowledgedBytes = c.unacknowledgedBytes := by cases c; rfl

@[simp] theorem windowed_peerWindowScale :
    (c.windowed p).peerWindowScale = c.peerWindowScale := by cases c; rfl

@[simp] theorem acked_peerWindowScale : (c.acked p).peerWindowScale = c.peerWindowScale := by
  cases c; rfl

@[simp] theorem acked_sendWnd : (c.acked p).sendWnd = (c.windowed p).sendWnd := by cases c; rfl

@[simp] theorem established_peerWindowScale :
    (c.established p).peerWindowScale = c.peerWindowScale := by cases c; rfl

@[simp] theorem established_sendWnd : (c.established p).sendWnd = c.sendWnd := by cases c; rfl

@[simp] theorem took_peerWindowScale : (c.took p).peerWindowScale = c.peerWindowScale := by
  cases c; rfl

@[simp] theorem took_sendWnd : (c.took p).sendWnd = c.sendWnd := by cases c; rfl

end Fields

/-- The end of the branch of `process_packet` for a SYN-ACK. -/
def answerSyn (dpdk : Dpdk) (p : PacketView) : Prog Client Unit := do
  let options ← ofExcept p.parseOptions
  modify fun c => { c with peerWindowScale := options.windowScale.getD c.peerWindowScale }
  sendAck dpdk
  return ()

/-- The part of `process_packet` after its checks. -/
def deliver (dpdk : Dpdk) (p : PacketView) : Prog Client Unit := do
  let c ← get
  if c.state == .Connecting && p.header.flags == .SYN_ACK then
    modify fun c => c.established p
    answerSyn dpdk p
  else if c.state == .Connected && !p.payload.empty then
    modify fun c => c.took p
    sendAck dpdk

/-- How `process_packet` treats a segment that does not pass its checks. -/
inductive Rejected (c : Client) (p : PacketView) : EStateM.Result Error Client Unit → Prop where
  | dropped : c.Old p → Rejected c p (.ok () c)
  | refused (e : Error) : Rejected c p (.error e c)
  | refusedAck (e : Error) : c.Reaches p → Rejected c p (.error e (c.windowed p))

/-- `process_packet` delivers what it accepts; anything else is dropped or refused. -/
theorem processPacket_cases (dpdk : Dpdk) (p : PacketView) (c : Client) :
    (c.Accepts p ∧ processPacket dpdk p c = deliver dpdk p (c.acked p)) ∨
      (¬ c.Accepts p ∧ Rejected c p (processPacket dpdk p c)) := by
  unfold processPacket
  rw [require_bind]
  by_cases hvalid : p.isValid = true
  · rw [if_pos hvalid]
    dsimp only
    rw [require_bind]
    by_cases hrst : hasFlag p.header.flags .RST = false
    · rw [if_pos (by simpa using hrst), bind_of_ok (get_apply c)]
      by_cases hold : c.Old p
      · rw [if_pos (by simpa [Old] using hold)]
        exact Or.inr ⟨fun h => h.not_old hold, .dropped hold⟩
      · rw [if_neg (by simpa [Old] using hold), require_bind]
        by_cases hseq : p.header.seq = c.ack ∨ c.ack = 0
        · rw [if_pos (by simpa using hseq), bind_of_ok (modify_apply _ c), require_bind]
          by_cases hdec : c.lastAckNumber.cmp p.header.ack ≠ .gt
          · rw [if_pos (by simpa using hdec), require_bind]
            by_cases hcover : p.header.ack - c.lastAckNumber ≤ c.unacknowledgedBytes
            · rw [if_pos (decide_eq_true hcover)]
              refine Or.inl ⟨⟨hvalid, hrst, hold, hseq, hdec, hcover⟩, ?_⟩
              rw [bind_of_ok (modify_apply _ _), deliver, bind_of_ok (get_apply _), acked_state, answerSyn]
              rfl
            · rw [if_neg fun h => hcover (of_decide_eq_true h)]
              exact Or.inr ⟨fun h => hcover h.ack_ok.2, .refusedAck _ ⟨hvalid, hrst, hold, hseq⟩⟩
          · rw [if_neg (by simpa using hdec)]
            exact Or.inr ⟨fun h => hdec h.ack_ok.1, .refusedAck _ ⟨hvalid, hrst, hold, hseq⟩⟩
        · rw [if_neg (by simpa using hseq)]
          exact Or.inr ⟨fun h => hseq h.in_order, .refused _⟩
    · rw [if_neg (by simpa using hrst)]
      exact Or.inr ⟨fun h => hrst h.no_rst, .refused _⟩
  · rw [if_neg hvalid]
    exact Or.inr ⟨fun h => hvalid h.valid, .refused _⟩

/-- An accepted segment that neither establishes the connection nor carries payload for it. -/
theorem deliver_nothing {dpdk : Dpdk} {p : PacketView} {c : Client}
    (hsyn : ¬ (c.state = .Connecting ∧ p.header.flags = .SYN_ACK))
    (hdata : ¬ (c.state = .Connected ∧ p.payload.size ≠ 0)) : deliver dpdk p c = .ok () c := by
  rw [deliver, bind_of_ok (get_apply c), if_neg (by simpa using hsyn),
    if_neg (by simpa [ByteView.empty] using hdata), pure_apply]

/-- The window scale in force after the options of a SYN-ACK were read. -/
def scaleAfter (current : UInt8) : Except Error Options → UInt8
  | .ok options => options.windowScale.getD current
  | .error _ => current

def negotiated (c : Client) (p : PacketView) : UInt8 := scaleAfter c.peerWindowScale p.parseOptions

/-- The answer to a SYN-ACK may set the window scale, and sends an empty packet. -/
theorem answerSyn_sends (dpdk : Dpdk) (p : PacketView) (c : Client) :
    Sends { c with peerWindowScale := c.negotiated p } (after (answerSyn dpdk p c)) ∧
      (after (answerSyn dpdk p c)).seq = c.seq := by
  have hpure : ∀ t : Client, after ((sendAck dpdk >>= fun _ => pure ()) t) =
      after (sendAck dpdk t) := by
    intro t
    rw [bind_apply]
    cases sendAck dpdk t <;> rfl
  cases hoptions : p.parseOptions with
  | error e =>
    have hscale : c.negotiated p = c.peerWindowScale := by
      rw [negotiated, hoptions, scaleAfter]
    have hafter : after (answerSyn dpdk p c) = c := by
      rw [answerSyn, hoptions]
      rfl
    rw [hscale, hafter]
    exact ⟨.refl, rfl⟩
  | ok options =>
    have hscale : c.negotiated p = options.windowScale.getD c.peerWindowScale := by
      rw [negotiated, hoptions, scaleAfter]
    rw [hscale, answerSyn, hoptions]
    refine ⟨(hpure _).symm ▸ sendAck_sends dpdk _, (congrArg Client.seq (hpure _)).trans ?_⟩
    exact sendAck_seq dpdk { c with
      peerWindowScale := options.windowScale.getD c.peerWindowScale }

/-- What delivering a segment leaves behind, whether the acknowledgement went out or not. -/
inductive Delivered (c : Client) (p : PacketView) (t : Client) : Prop where
  | established (scale : UInt8) (hstate : c.state = .Connecting)
      (hflags : p.header.flags = .SYN_ACK)
      (hsends : Sends { c.established p with peerWindowScale := scale } t)
      (hseq : t.seq = c.seq + (1 : UInt32)) (hscale : scale = c.negotiated p)
  | took (hstate : c.state = .Connected) (hpayload : p.payload.size ≠ 0)
      (hsends : Sends (c.took p) t)
  | nothing (hsyn : ¬ (c.state = .Connecting ∧ p.header.flags = .SYN_ACK))
      (hdata : ¬ (c.state = .Connected ∧ p.payload.size ≠ 0)) (hsame : t = c)

theorem deliver_delivered (dpdk : Dpdk) (p : PacketView) (c : Client) :
    Delivered c p (after (deliver dpdk p c)) := by
  by_cases hsyn : c.state = .Connecting ∧ p.header.flags = .SYN_ACK
  · rw [deliver, bind_of_ok (get_apply c), if_pos (by simpa using hsyn),
      bind_of_ok (modify_apply _ c)]
    obtain ⟨hsends, hseq⟩ := answerSyn_sends dpdk p (c.established p)
    have hscale : (c.established p).negotiated p = c.negotiated p := by
      rw [negotiated, negotiated, established_peerWindowScale]
    exact .established _ hsyn.1 hsyn.2 hsends hseq hscale
  · by_cases hdata : c.state = .Connected ∧ p.payload.size ≠ 0
    · rw [deliver, bind_of_ok (get_apply c), if_neg (by simpa using hsyn),
        if_pos (by simpa [ByteView.empty] using hdata), bind_of_ok (modify_apply _ c)]
      exact .took hdata.1 hdata.2 (sendAck_sends dpdk (c.took p))
    · rw [deliver_nothing hsyn hdata]
      exact .nothing hsyn hdata rfl

/-- **One call of `process_packet`**: the state it leaves behind, returned or thrown. -/
inductive Received (c : Client) (p : PacketView) (t : Client) : Prop where
  | same (hrej : ¬ c.Accepts p) (hsame : t = c)
  | windowed (hrej : ¬ c.Accepts p) (hwindow : t = c.windowed p) (hreach : c.Reaches p)
  | delivered (hacc : c.Accepts p) (hdel : Delivered (c.acked p) p t)

theorem processPacket_received (dpdk : Dpdk) (p : PacketView) (c : Client) :
    Received c p (after (processPacket dpdk p c)) := by
  rcases processPacket_cases dpdk p c with ⟨hacc, heq⟩ | ⟨hrej, hcase⟩
  · rw [heq]
    exact .delivered hacc (deliver_delivered dpdk p _)
  · cases hr : processPacket dpdk p c with
    | ok u t => rw [hr] at hcase; cases hcase; exact .same hrej rfl
    | error e t =>
      rw [hr] at hcase
      cases hcase with
      | refused => exact .same hrej rfl
      | refusedAck _ hreach => exact .windowed hrej rfl hreach

end Client

end WsGateway.Network.Tcp
