import WsGateway.Verify.Tcp.Due
import WsGateway.Verify.Tcp.Offsets

/-!
# The numbers of a connected client

What the calls of a connected client do to its sequence numbers, counted from the first byte of each
direction, and which numbers and payload the frames carry that the card takes. `Tracks` is what the
client knows of the two directions; a segment that is accepted carries it on, any other leaves it.
-/

namespace WsGateway.Network.Tcp

open Library

/-! ## Numbers less than `2 ^ 32` apart -/

section Numbers

variable {s : SeqNumber} {x y : Nat}

theorem SeqNumber.add_ofNat_inj (hx : x < 2 ^ 32) (hy : y < 2 ^ 32) :
    s + UInt32.ofNat x = s + UInt32.ofNat y ↔ x = y := by
  refine ⟨fun heq => ?_, fun heq => by rw [heq]⟩
  have hnum := congrArg UInt32.toNat (SeqNumber.add_right_inj.mp heq)
  rwa [UInt32.toNat_ofNat', UInt32.toNat_ofNat', Nat.mod_eq_of_lt hx, Nat.mod_eq_of_lt hy] at hnum

theorem SeqNumber.toNat_sub_of_le (h : y ≤ x) (hx : x < 2 ^ 32) :
    ((s + UInt32.ofNat x) - (s + UInt32.ofNat y)).toNat = x - y := by
  rw [SeqNumber.sub_offsets, ← UInt32.ofNat_sub h, UInt32.toNat_ofNat']
  exact Nat.mod_eq_of_lt (by omega)

/-- Backwards the distance wraps. -/
theorem SeqNumber.toNat_sub_of_lt (h : x < y) (hy : y < 2 ^ 32) :
    ((s + UInt32.ofNat x) - (s + UInt32.ofNat y)).toNat = 2 ^ 32 - (y - x) := by
  have hneg : UInt32.ofNat x - UInt32.ofNat y = -(UInt32.ofNat y - UInt32.ofNat x) :=
    UInt32.neg_sub.symm
  have hback : (UInt32.ofNat y - UInt32.ofNat x).toNat = y - x := by
    rw [← UInt32.ofNat_sub h.le, UInt32.toNat_ofNat']
    exact Nat.mod_eq_of_lt (by omega)
  rw [SeqNumber.sub_offsets, hneg, UInt32.toNat_neg, hback]
  exact Nat.mod_eq_of_lt (Nat.sub_lt (by decide) (Nat.sub_pos_of_lt h))

end Numbers

namespace Client

/-! ## The frames of a call -/

/-- The frame has these numbers and this payload. -/
structure Carries (v : PacketView) (seq ack : SeqNumber) (payload : List UInt8) : Prop where
  seq : v.header.seq = seq
  ack : v.header.ack = ack
  payload : v.payload.toList = payload

section Frames

variable (dpdk : Dpdk) {c : Client}

/-- The last steps of `send` fill in the checksums. -/
theorem summed_of_laid {w : PacketView} {eth : EthernetHeader} {ip : IpHeader} {tcp : Header}
    {rest : List UInt8} (h : w.Laid eth ip tcp rest) :
    ∃ ipSum tcpSum, ((w.updateChecksum dpdk).updateIpChecksum dpdk).Laid eth
      { ip with check := ipSum } { tcp with checksum := tcpSum } rest := by
  obtain ⟨tcpSum, htcpSum⟩ := cksumBytes_eq_beBytes
    (dpdk.ipv4UdptcpCksum w.raw.mem (w.raw.data + 14) (w.raw.data + 34))
  obtain ⟨ipSum, hipSum⟩ := cksumBytes_eq_beBytes
    (dpdk.ipv4Cksum (w.updateChecksum dpdk).raw.mem ((w.updateChecksum dpdk).raw.data + 14))
  exact ⟨ipSum, tcpSum, (h.updateChecksum htcpSum).updateIpChecksum hipSum⟩

/-- The steps of `send` keep the numbers of a packet and the payload written into it. -/
theorem carries_of_laid {v : PacketView} {eth : EthernetHeader} {ip : IpHeader} {tcp : Header}
    {rest payload : List UInt8} (h : v.Laid eth ip tcp rest)
    (hrest : 20 + rest.length = tcp.dataOffset)
    (hfits : 20 + tcp.dataOffset + payload.length < 2 ^ 16) :
    Carries (finishPacket dpdk ⟨v.writePayload payload⟩ payload.length) tcp.seq tcp.ack payload := by
  obtain ⟨hcut, -⟩ := (h.writePayload hrest payload).resizePayload hfits
  obtain ⟨ipSum, tcpSum, hfinal⟩ := summed_of_laid dpdk hcut
  refine ⟨?_, ?_, ?_⟩
  · rw [finishPacket, hfinal.header_eq]
  · rw [finishPacket, hfinal.header_eq]
  · rw [← List.append_nil (rest ++ payload)] at hfinal
    refine hfinal.payload_toList ?_ hrest.symm
    change 20 + tcp.dataOffset + payload.length = _
    rw [← hrest, List.length_append]
    omega

/-- Whatever their length is, the bytes written into a packet stay where its payload begins. -/
theorem head_of_laid {v : PacketView} {eth : EthernetHeader} {ip : IpHeader} {tcp : Header}
    {rest bs : List UInt8} {b x : UInt8} {n : Nat} (h : v.Laid eth ip tcp rest)
    (hrest : 20 + rest.length = tcp.dataOffset)
    (hx : (finishPacket dpdk ⟨v.writePayload (b :: bs)⟩ n).payload.toList.head? = some x) :
    x = b := by
  obtain ⟨hcut, -⟩ := (h.writePayload hrest (b :: bs)).resizePayload_mod n
  obtain ⟨ipSum, tcpSum, hfinal⟩ := summed_of_laid dpdk hcut
  rw [finishPacket] at hx
  generalize (((v.writePayload (b :: bs)).resizePayload n).updateChecksum dpdk).updateIpChecksum
    dpdk = w at hfinal hx
  have hpayload := (Memory.holds_append.mp hfinal.parts.2.2.2).2
  have hdata : w.payload.data = w.raw.data + 54 + rest.length := by
    change w.ipPacketView.payload.data + w.header.dataOffset = _
    rw [hfinal.ip_payload_data, hfinal.header_eq]
    change w.raw.data + 34 + tcp.dataOffset = _
    omega
  have hfirst : w.raw.mem (w.raw.data + 54 + rest.length) = b := by
    rw [Memory.Holds, List.length_cons, Memory.bytes_succ] at hpayload
    exact (List.cons.inj hpayload).1
  have htoList : w.payload.toList = w.raw.mem.bytes (w.raw.data + 54 + rest.length)
      w.payload.size := by
    rw [← hdata]
    rfl
  rw [htoList] at hx
  cases hsize : w.payload.size with
  | zero =>
    rw [hsize, Memory.bytes_zero] at hx
    cases hx
  | succ k =>
    rw [hsize, Memory.bytes_succ, List.head?_cons, hfirst] at hx
    exact (Option.some.inj hx).symm

/-- A packet is obtained with the current numbers, or only a buffer is used up. -/
theorem getSendBuffer_cases (c : Client) (flags : Flags) :
    (∃ packet, getSendBuffer dpdk flags false c =
        .ok packet { c with sender := { c.sender with allocs := c.sender.allocs + 1 } } ∧
      ∃ eth ip, packet.tcp.Laid eth ip (PacketView.tcpHeader c.connection flags c.seq c.ack false) []) ∨
    ∃ e d, getSendBuffer dpdk flags false c = .error e { c with sender := d } ∧
      d.transmitted = c.sender.transmitted := by
  cases halloc : dpdk.pktmbufAlloc c.sender.allocs with
  | none =>
    have hcall := Device.getSendBuffer_apply dpdk c.sender
    rw [halloc] at hcall
    exact Or.inr ⟨_, { c.sender with allocs := c.sender.allocs + 1 },
      bind_of_error (zoom_of_error hcall), rfl⟩
  | some mem =>
    by_cases hroom : 34 ≤ dpdk.dataRoomSize.toNat
    · obtain ⟨packet, hbuffer, hlaid⟩ := getSendBuffer_laid c flags false halloc hroom
      exact Or.inl ⟨packet, hbuffer, _, _, hlaid⟩
    · have hmem : Device.getSendBuffer dpdk c.sender = .ok ⟨mem, 0, dpdk.dataRoomSize.toNat⟩
          { c.sender with allocs := c.sender.allocs + 1 } := by
        rw [Device.getSendBuffer_apply, halloc]
      have hshort := PacketView.init_isOk (.ofBytes ⟨mem, 0, dpdk.dataRoomSize.toNat⟩) c.connection
        flags c.seq c.ack false dpdk.dataRoomSize.toNat_lt
      rw [show (PacketView.ofBytes ⟨mem, 0, dpdk.dataRoomSize.toNat⟩).raw.size =
        dpdk.dataRoomSize.toNat from rfl, decide_eq_false hroom] at hshort
      refine Or.inr ?_
      rw [getSendBuffer, onSender, bind_of_ok (zoom_of_ok hmem), bind_of_ok (get_apply _)]
      cases hinit : (PacketView.ofBytes ⟨mem, 0, dpdk.dataRoomSize.toNat⟩).init c.connection flags
          c.seq c.ack false with
      | error e => exact ⟨e, _, rfl, rfl⟩
      | ok tcp =>
        rw [hinit] at hshort
        cases hshort

/-- Obtaining a packet, filling it and sending it does nothing but use up a buffer, or hands the
packet over; then the card takes it or not. -/
theorem sendCall_cases (c : Client) (flags : Flags) {payload : List UInt8}
    (hfits : payload.length + 40 < 2 ^ 16) :
    (∃ d, after (sendCall dpdk flags false payload payload.length c) = { c with sender := d } ∧
      d.transmitted = c.sender.transmitted) ∨
    ∃ packet d, after (sendCall dpdk flags false payload payload.length c) =
        { handOver dpdk c packet payload.length with sender := d } ∧
      Carries (finishPacket dpdk packet payload.length) c.seq c.ack payload ∧
      (d.transmitted = c.sender.transmitted ∨ d.transmitted = c.sender.transmitted ++
        [(finishPacket dpdk packet payload.length).eth.rawBytes]) := by
  rcases getSendBuffer_cases dpdk c flags with ⟨packet, hbuffer, eth, ip, hlaid⟩ |
    ⟨e, d, hbuffer, hd⟩
  · have hcarries := @carries_of_laid dpdk _ _ _ _ _ payload hlaid rfl (by
      change 20 + 20 + payload.length < 2 ^ 16
      omega)
    rw [sendCall, bind_of_ok hbuffer, send_apply]
    split
    · split
      · exact Or.inr ⟨_, _, rfl, hcarries, Or.inl rfl⟩
      · exact Or.inr ⟨_, _, rfl, hcarries, Or.inr rfl⟩
    · exact Or.inl ⟨_, rfl, rfl⟩
  · rw [sendCall, bind_of_error hbuffer]
    exact Or.inl ⟨d, rfl, hd⟩

/-- An acknowledgement is a packet filled with nothing. -/
theorem sendAck_eq_sendCall : sendAck dpdk = sendCall dpdk .ACK false [] 0 := by
  have hnone : ∀ packet : SendBuffer, packet.tcp.writePayload [] = packet.tcp := by
    rintro ⟨⟨⟨⟨⟨mem, data, size⟩⟩⟩⟩⟩
    exact congrArg (fun mem => PacketView.ofBytes ⟨mem, data, size⟩) (Memory.write_nil mem _)
  unfold sendAck sendCall
  simp only [hnone]

/-- The frames that the card took between two states. -/
def framesSince (c c' : Client) : List ByteView :=
  c'.sender.transmitted.drop c.sender.transmitted.length

theorem framesSince_self (t : Client) : framesSince t t = [] := List.drop_length

/-- `send` gives the card the packet, or nothing. -/
theorem framesSince_send (packet : SendBuffer) (n : Nat) (t : Client) :
    framesSince t (after (send dpdk packet n t)) = [] ∨
      framesSince t (after (send dpdk packet n t)) =
        [(finishPacket dpdk packet n).eth.rawBytes] := by
  rw [framesSince, send_apply]
  split
  · split
    · exact Or.inl List.drop_length
    · exact Or.inr List.drop_left
  · exact Or.inl List.drop_length

/-- What the card takes of one call carries the numbers of the client and the payload. -/
theorem framesSince_sendCall (c : Client) (flags : Flags) {payload : List UInt8}
    (hfits : payload.length + 40 < 2 ^ 16) :
    ∀ frame ∈ framesSince c (after (sendCall dpdk flags false payload payload.length c)),
      Carries (.ofBytes frame) c.seq c.ack payload := by
  intro frame hmem
  rcases sendCall_cases dpdk c flags hfits with ⟨d, heq, hd⟩ | ⟨packet, d, heq, hcarries, hd⟩
  · rw [framesSince, heq, hd, List.drop_length] at hmem
    cases hmem
  · rcases hd with hd | hd
    · rw [framesSince, heq, hd, List.drop_length] at hmem
      cases hmem
    · rw [framesSince, heq, hd, List.drop_left, List.mem_singleton] at hmem
      rw [hmem]
      exact hcarries

end Frames

/-! ## The numbers of a connected client -/

/-- A connected client that has counted `given` bytes from the number `iss` on and taken `taken`
bytes from the number `irs` on, and knows `acked` of its own to be delivered. -/
structure Tracks (irs iss : SeqNumber) (taken given acked : Nat) (c : Client) : Prop where
  state : c.state = .Connected
  balanced : c.Balanced
  ack : c.ack = irs + UInt32.ofNat taken
  ack_ne : c.ack ≠ 0
  seq : c.seq = iss + UInt32.ofNat given
  lastAck : c.lastAckNumber = iss + UInt32.ofNat acked

@[simp] theorem acked_sender (c : Client) (p : PacketView) : (c.acked p).sender = c.sender := by
  cases c
  rfl

@[simp] theorem took_sender (c : Client) (p : PacketView) : (c.took p).sender = c.sender := by
  cases c
  rfl

@[simp] theorem windowed_sender (c : Client) (p : PacketView) :
    (c.windowed p).sender = c.sender := by
  cases c
  rfl

@[simp] theorem established_sender (c : Client) (p : PacketView) :
    (c.established p).sender = c.sender := by
  cases c
  rfl

section Tracking

variable (dpdk : Dpdk) {c : Client} {p : PacketView} {irs iss : SeqNumber} {taken given acked : Nat}

theorem Tracks.callStep_balanced (h : Tracks irs iss taken given acked c) (call : Call) :
    (callStep dpdk c call).Balanced :=
  run_balanced dpdk [call] h.balanced

/-- A call of the user changes none of the numbers and sends nothing, or counts its payload. -/
theorem Tracks.send (h : Tracks irs iss taken given acked c) (flags : Flags) {payload : List UInt8}
    (hfits : payload.length + 40 < 2 ^ 16) :
    let t := callStep dpdk c (.send flags false payload payload.length)
    (t.handed.drop c.handed.length = [] ∧ framesSince c t = [] ∧
      Tracks irs iss taken given acked t) ∨
    ((t.handed.drop c.handed.length).length = 1 ∧
      Tracks irs iss taken (given + payload.length) acked t ∧
      ∀ frame ∈ framesSince c t, Carries (.ofBytes frame) (iss + UInt32.ofNat given)
        (irs + UInt32.ofNat taken) payload) := by
  intro t
  have hbalanced : t.Balanced := h.callStep_balanced dpdk _
  rcases sendCall_cases dpdk c flags hfits with ⟨d, heq, hd⟩ | ⟨packet, d, heq, -, -⟩
  · have ht : t = { c with sender := d } := heq
    have hhanded : t.handed = c.handed := by rw [ht]
    have hsent : t.sender.transmitted = c.sender.transmitted := by rw [ht, hd]
    refine Or.inl ⟨?_, ?_, ?_⟩
    · rw [hhanded, List.drop_length]
    · rw [framesSince, hsent, List.drop_length]
    · rw [ht] at hbalanced ⊢
      exact ⟨h.state, hbalanced, h.ack, h.ack_ne, h.seq, h.lastAck⟩
  · have ht : t = { handOver dpdk c packet payload.length with sender := d } := heq
    have hhanded : t.handed = c.handed ++ [⟨c.state, finishPacket dpdk packet payload.length,
        payload.length⟩] := by rw [ht, handOver]
    have hframes := framesSince_sendCall dpdk c flags hfits
    rw [h.seq, h.ack] at hframes
    refine Or.inr ⟨?_, ?_, hframes⟩
    · rw [hhanded, List.drop_left, List.length_singleton]
    · rw [ht] at hbalanced ⊢
      refine ⟨h.state, hbalanced, h.ack, h.ack_ne, ?_, h.lastAck⟩
      change c.seq + UInt32.ofNat payload.length = _
      rw [h.seq, SeqNumber.add_add, UInt32.ofNat_add]

/-- A segment that is not accepted changes none of the numbers, and nothing is sent. -/
theorem Tracks.reject (h : Tracks irs iss taken given acked c) (hrej : ¬ c.Accepts p) :
    Tracks irs iss taken given acked (receiveStep dpdk c p) ∧
      framesSince c (receiveStep dpdk c p) = [] := by
  have hbalanced : (receiveStep dpdk c p).Balanced := h.callStep_balanced dpdk (.receive p)
  have hreceived : Received c p (receiveStep dpdk c p) := processPacket_received dpdk p c
  cases hreceived with
  | same _ hsame =>
    rw [hsame, framesSince, List.drop_length]
    exact ⟨h, rfl⟩
  | windowed _ hwindow =>
    rw [hwindow] at hbalanced ⊢
    rw [framesSince]
    refine ⟨⟨?_, hbalanced, ?_, ?_, ?_, ?_⟩, List.drop_length⟩
    · rw [windowed_state, h.state]
    · rw [windowed_ack, h.ack]
    · rw [windowed_ack]
      exact h.ack_ne
    · rw [windowed_seq, h.seq]
    · rw [windowed_lastAckNumber, h.lastAck]
  | delivered hacc => exact absurd hacc hrej

/-- An acknowledgement is counted nowhere. -/
theorem Tracks.sendAck (h : Tracks irs iss taken given acked c) :
    Tracks irs iss taken given acked (after (sendAck dpdk c)) ∧
      ∀ frame ∈ framesSince c (after (sendAck dpdk c)), Carries (.ofBytes frame)
        (iss + UInt32.ofNat given) (irs + UInt32.ofNat taken) [] := by
  have hbalanced : (after (Client.sendAck dpdk c)).Balanced :=
    (sendAck_sends dpdk c).balanced h.balanced
  have hfits : ([] : List UInt8).length + 40 < 2 ^ 16 := by decide
  have hframes := framesSince_sendCall dpdk c .ACK hfits
  have hcases := sendCall_cases dpdk c .ACK hfits
  rw [List.length_nil, ← sendAck_eq_sendCall] at hframes hcases
  constructor
  · rcases hcases with ⟨d, heq, -⟩ | ⟨packet, d, heq, -, -⟩
    · rw [heq] at hbalanced ⊢
      exact ⟨h.state, hbalanced, h.ack, h.ack_ne, h.seq, h.lastAck⟩
    · rw [heq] at hbalanced ⊢
      refine ⟨h.state, hbalanced, h.ack, h.ack_ne, ?_, h.lastAck⟩
      exact (SeqNumber.add_zero c.seq).trans h.seq
  · rw [h.seq, h.ack] at hframes
    exact hframes

/-- A segment that is accepted carries the acknowledgement on, and the client by its payload. -/
theorem Tracks.accept {a : Nat} (h : Tracks irs iss taken given acked c) (hacc : c.Accepts p)
    (hack : p.header.ack = iss + UInt32.ofNat a)
    (hne : p.payload.size ≠ 0 → p.header.seq + UInt32.ofNat p.payload.size ≠ 0) :
    Tracks irs iss (taken + p.payload.size) given a (receiveStep dpdk c p) ∧
      ∀ frame ∈ framesSince c (receiveStep dpdk c p), Carries (.ofBytes frame)
        (iss + UInt32.ofNat given) (irs + UInt32.ofNat (taken + p.payload.size)) [] := by
  have hseq : p.header.seq = c.ack := hacc.in_order.resolve_right h.ack_ne
  have hacked : Tracks irs iss taken given a (c.acked p) := by
    refine ⟨?_, acked_balanced h.balanced, ?_, ?_, ?_, ?_⟩
    · rw [acked_state, h.state]
    · rw [acked_ack, h.ack]
    · rw [acked_ack]
      exact h.ack_ne
    · rw [acked_seq, h.seq]
    · rw [acked_lastAckNumber, hack]
  by_cases hpayload : p.payload.size = 0
  · have hstep : receiveStep dpdk c p = c.acked p := by
      rcases processPacket_cases dpdk p c with ⟨-, heq⟩ | ⟨hrej, -⟩
      · rw [receiveStep, heq, deliver_nothing]
        · rfl
        · rw [hacked.state]
          rintro ⟨hconnecting, -⟩
          cases hconnecting
        · rintro ⟨-, hsize⟩
          exact hsize hpayload
      · exact absurd hacc hrej
    have hnone : framesSince c (c.acked p) = [] := by
      rw [framesSince, acked_sender, List.drop_length]
    rw [hstep, hpayload, Nat.add_zero, hnone]
    refine ⟨hacked, fun frame hmem => ?_⟩
    cases hmem
  · -- the payload is taken, and its acknowledgement is sent
    have htook : Tracks irs iss (taken + p.payload.size) given a ((c.acked p).took p) := by
      refine ⟨?_, ?_, ?_, ?_, ?_, ?_⟩
      · rw [took_state, hacked.state]
      · have hbalanced := hacked.balanced
        rw [balanced_iff] at hbalanced ⊢
        rw [took_unacknowledgedBytes, took_lastAckNumber, took_seq, took_state]
        exact hbalanced
      · rw [took_ack, hseq, h.ack, SeqNumber.add_add, UInt32.ofNat_add]
      · rw [took_ack]
        exact hne hpayload
      · rw [took_seq, hacked.seq]
      · rw [took_lastAckNumber, hacked.lastAck]
    have hstep : receiveStep dpdk c p = after (Client.sendAck dpdk ((c.acked p).took p)) := by
      rw [receiveStep, processPacket_accepted dpdk h.state hpayload hacc]
    have hsame : framesSince c = framesSince ((c.acked p).took p) := by
      funext t
      rw [framesSince, framesSince, took_sender, acked_sender]
    rw [hstep, hsame]
    exact htook.sendAck dpdk

theorem Tracks.unacknowledged (h : Tracks irs iss taken given acked c) (hle : acked ≤ given)
    (hgiven : given < 2 ^ 32) : c.unacknowledgedBytes.toNat = given - acked := by
  have hbalanced := h.balanced
  have hdiff : c.unacknowledgedBytes = c.seq - c.lastAckNumber := by
    rw [Balanced, h.state] at hbalanced
    rw [hbalanced]
    exact congrArg (· - c.lastAckNumber) (SeqNumber.add_zero c.seq)
  rw [hdiff, h.seq, h.lastAck, SeqNumber.toNat_sub_of_le hle hgiven]

/-- An acknowledgement that is accepted does not go back. -/
theorem Tracks.acked_le {a : Nat} (h : Tracks irs iss taken given acked c) (hacc : c.Accepts p)
    (hack : p.header.ack = iss + UInt32.ofNat a) (hle : acked ≤ given) (hgiven : given < 2 ^ 32) :
    acked ≤ a := by
  have hcover := UInt32.le_iff_toNat_le.mp hacc.ack_ok.2
  rw [h.unacknowledged hle hgiven, hack, h.lastAck] at hcover
  by_contra hlt
  rw [SeqNumber.toNat_sub_of_lt (by omega) (by omega)] at hcover
  omega

/-! ## Segments that end the run -/

/-- A segment that starts before the next byte expected is dropped. -/
theorem processPacket_old (hvalid : p.isValid = true)
    (hrst : hasFlag p.header.flags .RST = false) (hold : c.Old p) :
    processPacket dpdk p c = .ok () c := by
  unfold processPacket
  rw [require_bind, if_pos hvalid]
  dsimp only
  rw [require_bind, if_pos (by simpa using hrst), bind_of_ok (get_apply c),
    if_pos (by simpa [Old] using hold)]
  rfl

/-- Any other segment that does not pass the checks is refused. -/
theorem threw_of_rejected (hold : ¬ c.Old p) (hrej : ¬ c.Accepts p) :
    threw (processPacket dpdk p c) = true := by
  rcases processPacket_cases dpdk p c with ⟨hacc, -⟩ | ⟨-, hcase⟩
  · exact absurd hacc hrej
  · generalize processPacket dpdk p c = r at hcase
    cases hcase with
    | dropped h => exact absurd h hold
    | refused e => rfl
    | refusedAck e => rfl

theorem threw_sendAck_iff (c : Client) : threw (Client.sendAck dpdk c) = true ↔
    ¬ (DeviceReady dpdk c.sender ∧ c.unacknowledgedBytes ≤ c.sendWnd) := by
  refine ⟨?_, sendAck_threw dpdk⟩
  rintro hthrew ⟨hready, hwindow⟩
  obtain ⟨c', h, hok, -⟩ := sendAck_eq_ok dpdk hready hwindow
  rw [hok] at hthrew
  exact absurd hthrew Bool.false_ne_true

/-- A segment that passes the checks is refused if its acknowledgement cannot be sent. -/
theorem threw_of_accepts (hstate : c.state = .Connected) (hacc : c.Accepts p) :
    threw (processPacket dpdk p c) = true ↔
      p.payload.size ≠ 0 ∧ ¬ (c.WindowCovers p ∧ DeviceReady dpdk c.sender) := by
  have hwnd : (c.windowed p).sendWnd = if peerRwnd p.header.window c.peerWindowScale > 0 then
      peerRwnd p.header.window c.peerWindowScale else c.sendWnd := by
    cases c
    rfl
  have hcovers : ((c.acked p).took p).unacknowledgedBytes ≤ ((c.acked p).took p).sendWnd ↔
      c.WindowCovers p := by
    rw [took_unacknowledgedBytes, took_sendWnd, acked_unacknowledgedBytes, acked_sendWnd, hwnd,
      WindowCovers]
  have hsender : ((c.acked p).took p).sender = c.sender := by rw [took_sender, acked_sender]
  by_cases hpayload : p.payload.size = 0
  · rcases processPacket_cases dpdk p c with ⟨-, heq⟩ | ⟨hrej, -⟩
    · have hnothing : deliver dpdk p (c.acked p) = .ok () (c.acked p) := by
        apply deliver_nothing
        · rw [acked_state, hstate]
          rintro ⟨hconnecting, -⟩
          cases hconnecting
        · rintro ⟨-, hsize⟩
          exact hsize hpayload
      rw [heq, hnothing]
      exact ⟨fun h => absurd h Bool.false_ne_true, fun h => absurd hpayload h.1⟩
    · exact absurd hacc hrej
  · rw [processPacket_accepted dpdk hstate hpayload hacc, threw_sendAck_iff, hcovers, hsender]
    constructor
    · exact fun h => ⟨hpayload, fun hboth => h ⟨hboth.2, hboth.1⟩⟩
    · exact fun h hboth => h.2 ⟨hboth.2, hboth.1⟩

/-- When a segment of a peer that keeps to the protocol is refused. -/
theorem Tracks.threw_iff {i a : Nat} (h : Tracks irs iss taken given acked c)
    (hvalid : p.isValid = true) (hrst : hasFlag p.header.flags .RST = false)
    (hseq : p.header.seq = irs + UInt32.ofNat i) (hack : p.header.ack = iss + UInt32.ofNat a)
    (hi : i < 2 ^ 31) (htaken : taken < 2 ^ 31) (hle : acked ≤ given) (ha : a ≤ given)
    (hgiven : given < 2 ^ 31) :
    threw (processPacket dpdk p c) = true ↔ taken < i ∨ (i = taken ∧ (a < acked ∨
      (p.payload.size ≠ 0 ∧ ¬ (c.WindowCovers p ∧ DeviceReady dpdk c.sender)))) := by
  have hcmp : p.header.seq.cmp c.ack = compare i taken := by
    rw [hseq, h.ack, SeqNumber.cmp_offsets irs (by omega) (by omega)]
  rcases Nat.lt_trichotomy i taken with hlt | heq | hgt
  · have hold : c.Old p := ⟨by rw [hcmp, Nat.compare_eq_lt.mpr hlt], h.ack_ne⟩
    rw [processPacket_old dpdk hvalid hrst hold]
    constructor
    · intro hthrew
      exact absurd hthrew Bool.false_ne_true
    · rintro (hgt | ⟨rfl, -⟩)
      · omega
      · exact absurd hlt (Nat.lt_irrefl _)
  · -- the next segment
    have hnext : p.header.seq = c.ack := by rw [hseq, heq, h.ack]
    have hold : ¬ c.Old p := by
      rintro ⟨hlt, -⟩
      rw [hnext, SeqNumber.cmp_self] at hlt
      cases hlt
    have hok : c.AckOk p ↔ acked ≤ a := by
      have hlast : c.lastAckNumber.cmp p.header.ack = compare acked a := by
        rw [h.lastAck, hack, SeqNumber.cmp_offsets iss (by omega) (by omega)]
      rw [AckOk, hlast, Nat.compare_ne_gt]
      refine ⟨fun hboth => hboth.1, fun hge => ⟨hge, ?_⟩⟩
      rw [UInt32.le_iff_toNat_le, h.unacknowledged hle (by omega), hack, h.lastAck,
        SeqNumber.toNat_sub_of_le hge (by omega)]
      omega
    by_cases hge : acked ≤ a
    · have hacc : c.Accepts p := ⟨hvalid, hrst, hold, Or.inl hnext, hok.mpr hge⟩
      rw [threw_of_accepts dpdk h.state hacc]
      constructor
      · exact fun hsend => Or.inr ⟨heq, Or.inr hsend⟩
      · rintro (hgt | ⟨-, hlt | hsend⟩)
        · omega
        · omega
        · exact hsend
    · have hrej : ¬ c.Accepts p := fun hacc => hge (hok.mp hacc.ack_ok)
      refine ⟨fun _ => Or.inr ⟨heq, Or.inl (Nat.lt_of_not_le hge)⟩, fun _ => ?_⟩
      exact threw_of_rejected dpdk hold hrej
  · have hold : ¬ c.Old p := by
      rintro ⟨hlt, -⟩
      rw [hcmp, Nat.compare_eq_gt.mpr hgt] at hlt
      cases hlt
    have hrej : ¬ c.Accepts p := by
      intro hacc
      have hnext := hacc.in_order.resolve_right h.ack_ne
      rw [hnext, SeqNumber.cmp_self, Nat.compare_eq_gt.mpr hgt] at hcmp
      cases hcmp
    exact ⟨fun _ => Or.inl hgt, fun _ => threw_of_rejected dpdk hold hrej⟩

end Tracking

end Client

end WsGateway.Network.Tcp
