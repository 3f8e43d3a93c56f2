import WsGateway.Verify.Tcp.Acknowledge

/-!
# Establishing the connection

While the client is connecting, the only acknowledgement numbers that pass the
checks are its initial sequence number and the one after it. `process_packet`
asks that at most the SYN is acknowledged, not that it is: a SYN-ACK that
repeats the initial number connects the client with the SYN still counted.
-/

namespace WsGateway.Network.Tcp

open Library

namespace Client

/-- The client has sent its SYN and received nothing but acknowledgements of it. -/
structure AwaitsSynAck (isn : SeqNumber) (c : Client) : Prop where
  state : c.state = .Connecting
  seq : c.seq = isn
  balanced : c.Balanced
  last : c.lastAckNumber = isn ∨ c.lastAckNumber = isn + (1 : UInt32)

/-- The segment is a SYN-ACK for the client's SYN, and the counters are where it puts them. -/
structure Synchronized (isn : SeqNumber) (p : PacketView) (c : Client) : Prop where
  flags : p.header.flags = .SYN_ACK
  acknowledges : p.header.ack = isn + (1 : UInt32)
  ack : c.ack = p.header.seq + (1 : UInt32)
  seq : c.seq = isn + (1 : UInt32)
  last : c.lastAckNumber = isn + (1 : UInt32)
  unacknowledged : c.unacknowledgedBytes = 0

section Waiting

variable {isn : SeqNumber} {c c' : Client} {p : PacketView}

theorem AwaitsSynAck.unacknowledged (h : AwaitsSynAck isn c) :
    c.unacknowledgedBytes = isn.value + 1 - c.lastAckNumber.value := by
  have hbalanced := h.balanced
  unfold Balanced synByte at hbalanced
  rw [if_pos h.state, h.seq] at hbalanced
  exact hbalanced

theorem le_one_cases {x : UInt32} (h : x ≤ 1) : x = 0 ∨ x = 1 := by
  rw [UInt32.le_iff_toNat_le] at h
  rw [← UInt32.toNat_inj, ← UInt32.toNat_inj]
  simp at h ⊢
  omega

/-- An acknowledgement that passes the checks is of the SYN or of nothing. -/
theorem AwaitsSynAck.ack_cases (h : AwaitsSynAck isn c) (hacc : c.AckOk p) :
    p.header.ack = isn ∨ p.header.ack = isn + (1 : UInt32) := by
  have hle := hacc.2
  rw [h.unacknowledged] at hle
  change p.header.ack.value - c.lastAckNumber.value ≤ _ at hle
  rw [SeqNumber.ext_iff, SeqNumber.ext_iff, SeqNumber.add_value]
  rcases h.last with hlast | hlast
  · have hone : isn.value + 1 - isn.value = 1 := by grind
    rw [hlast, hone] at hle
    rcases le_one_cases hle with hdiff | hdiff
    · left
      grind
    · right
      grind
  · have hzero : isn.value + 1 - (isn.value + 1) = 0 := by grind
    rw [hlast, SeqNumber.add_value, hzero] at hle
    have hdiff : p.header.ack.value - (isn.value + 1) = 0 := UInt32.le_antisymm hle (by simp)
    right
    grind

theorem AwaitsSynAck.acked (h : AwaitsSynAck isn c) (hacc : c.AckOk p) :
    AwaitsSynAck isn (c.acked p) :=
  ⟨by simpa using h.state, by simpa using h.seq, acked_balanced h.balanced,
    by simpa using h.ack_cases hacc⟩

/-- A segment leaves the client waiting, or it is a SYN-ACK that connects it. -/
theorem AwaitsSynAck.received (h : AwaitsSynAck isn c) (hrec : Received c p c') :
    AwaitsSynAck isn c' ∨
      (c'.state = .Connected ∧ p.header.flags = .SYN_ACK ∧
        (p.header.ack = isn ∨ p.header.ack = isn + (1 : UInt32)) ∧
        c'.ack = p.header.seq + (1 : UInt32) ∧ c'.seq = isn + (1 : UInt32) ∧
        c'.lastAckNumber = p.header.ack ∧ c'.Balanced) := by
  cases hrec with
  | same hrej hsame => exact Or.inl (hsame ▸ h)
  | windowed hrej hwindow =>
    refine Or.inl (hwindow ▸ ⟨by simpa using h.state, by simpa using h.seq, ?_,
      by simpa using h.last⟩)
    have hbalanced := h.balanced
    rw [balanced_iff] at hbalanced ⊢
    simpa using hbalanced
  | delivered hacc hdel =>
    have hacked := h.acked hacc.ack_ok
    have hbalanced := Received.balanced (.delivered hacc hdel) h.balanced
    cases hdel with
    | established scale hstate hflags hsends hseq =>
      obtain ⟨hconnected, hack, hlast, -⟩ := hsends.frame
      refine Or.inr ⟨hconnected, hflags, h.ack_cases hacc.ack_ok, hack, ?_, hlast, hbalanced⟩
      rw [hseq, hacked.seq]
    | took hstate hpayload hsends =>
      rw [hacked.state] at hstate
      cases hstate
    | nothing hsyn hdata hsame => exact Or.inl (hsame ▸ hacked)

end Waiting

section Run

variable (dpdk : Dpdk) {connection : Connection} {sender : Device} {isn : SeqNumber}
  {ipId : UInt16} {c₀ c : Client}

theorem connect_awaitsSynAck
    (h : connect dpdk (new connection sender isn ipId) = .ok () c₀) : AwaitsSynAck isn c₀ := by
  have hbalanced := connect_balanced dpdk h
  obtain ⟨tx, c₁, htx, h⟩ := bind_eq_ok h
  obtain ⟨d, rfl⟩ := (onSender_ends _ _).ok htx
  obtain ⟨_, c₂, hmod, h⟩ := bind_eq_ok h
  cases hmod
  obtain ⟨packet, c₃, hbuffer, h⟩ := bind_eq_ok h
  obtain ⟨-, d, rfl⟩ := (getSendBuffer_ends dpdk .SYN true _).ok hbuffer
  obtain ⟨_, c₄, hsend, h⟩ := bind_eq_ok h
  obtain ⟨d, rfl⟩ := (send_ends dpdk packet 0 _).ok hsend
  cases h
  exact ⟨rfl, SeqNumber.add_zero isn, hbalanced, Or.inl rfl⟩

theorem Received.connected {p : PacketView} {c' : Client} (h : Received c p c')
    (hc : c.state = .Connected) : c'.state = .Connected := by
  cases h with
  | same hrej hsame => rw [hsame, hc]
  | windowed hrej hwindow => rw [hwindow, windowed_state, hc]
  | delivered hacc hdel =>
    cases hdel with
    | established scale hstate hflags hsends => exact hsends.state_eq
    | took hstate hpayload hsends => rw [hsends.state_eq, took_state, hstate]
    | nothing hsyn hdata hsame => rw [hsame, acked_state, hc]

/-- A connected client does not go back. -/
theorem run_stays_connected (segments : List PacketView) (hc : c.state = .Connected) :
    (segments.foldl (receiveStep dpdk) c).state = .Connected := by
  induction segments generalizing c with
  | nil => exact hc
  | cons p segments ih => exact ih ((processPacket_received dpdk p c).connected hc)

/-- As long as a run of segments has not connected the client, it is waiting. -/
theorem run_awaitsSynAck (segments : List PacketView) (hc : AwaitsSynAck isn c)
    (hstate : (segments.foldl (receiveStep dpdk) c).state = .Connecting) :
    AwaitsSynAck isn (segments.foldl (receiveStep dpdk) c) := by
  induction segments generalizing c with
  | nil => exact hc
  | cons p segments ih =>
    rcases hc.received (processPacket_received dpdk p c) with hnext | ⟨hconnected, -⟩
    · exact ih hnext hstate
    · have hrun := run_stays_connected dpdk segments hconnected
      rw [List.foldl_cons] at hstate
      exact absurd (hstate.symm.trans hrun) nofun

/-- **Connection establishment**: in every run of segments after `connect`, a segment that
connects the client is a SYN-ACK for its SYN and leaves the counters where the handshake puts
them, exactly if it does not acknowledge the initial sequence number itself. -/
theorem synchronized_iff (segments : List PacketView) (p : PacketView)
    (hconnect : connect dpdk (new connection sender isn ipId) = .ok () c₀)
    (hbefore : (segments.foldl (receiveStep dpdk) c₀).state = .Connecting)
    (hafter : ((segments ++ [p]).foldl (receiveStep dpdk) c₀).state = .Connected) :
    Synchronized isn p ((segments ++ [p]).foldl (receiveStep dpdk) c₀) ↔ p.header.ack ≠ isn := by
  have hwait := run_awaitsSynAck dpdk segments (connect_awaitsSynAck dpdk hconnect) hbefore
  rw [List.foldl_append, List.foldl_cons, List.foldl_nil] at hafter ⊢
  rcases hwait.received (processPacket_received dpdk p _) with hnext |
    ⟨hconnected, hflags, hcases, hack, hseq, hlast, hbalanced⟩
  · exact absurd (hafter.symm.trans hnext.state) nofun
  · constructor
    · intro h heq
      have hone : isn + (0 : UInt32) = isn + (1 : UInt32) := by
        rw [SeqNumber.add_zero, ← heq]
        exact heq ▸ h.acknowledges
      exact absurd (SeqNumber.add_right_inj.mp hone) (by decide)
    · intro hne
      have hacknowledges := hcases.resolve_left hne
      refine ⟨hflags, hacknowledges, hack, hseq, hlast.trans hacknowledges, ?_⟩
      have hunack := balanced_iff.mp hbalanced
      have hsyn : synByte (after (processPacket dpdk p
          (segments.foldl (receiveStep dpdk) c₀))).state = 0 := if_neg (by rw [hconnected]; nofun)
      rw [hlast, hseq, hacknowledges, hsyn] at hunack
      exact (UInt32.add_left_inj _).mp (hunack.trans (UInt32.add_comm _ _))

end Run

theorem synAck_synchronized :
    Synchronized 7 (synAck 0) (([] ++ [synAck 0]).foldl (receiveStep sampleDpdk)
      (after (connect sampleDpdk unconnected))) := by
  have hconnect : connect sampleDpdk unconnected = .ok () (after (connect sampleDpdk unconnected)) :=
    eq_ok_of_not_threw (by decide +kernel)
  refine (synchronized_iff sampleDpdk [] (synAck 0) hconnect ?_ ?_).mpr ?_
  · decide +kernel
  · decide +kernel
  · decide +kernel

/-- A SYN-ACK that acknowledges nothing. -/
def staleSynAck : PacketView := .received sampleConnection .SYN_ACK 0 7 []

/-- The client is connected by a SYN-ACK for its initial sequence number `7`, and the SYN stays
unacknowledged. -/
theorem staleSynAck_connects :
    connect sampleDpdk (new sampleConnection {} 7 0) =
        .ok () (after (connect sampleDpdk unconnected)) ∧
      (after (connect sampleDpdk unconnected)).state = .Connecting ∧
      (receiveStep sampleDpdk (after (connect sampleDpdk unconnected)) staleSynAck).state =
        .Connected ∧
      (receiveStep sampleDpdk (after (connect sampleDpdk unconnected))
        staleSynAck).unacknowledgedBytes = 1 ∧
      staleSynAck.header.ack ≠ (7 : SeqNumber) + (1 : UInt32) := by
  refine ⟨eq_ok_of_not_threw ?_, ?_, ?_, ?_, ?_⟩
  · decide +kernel
  · decide +kernel
  · decide +kernel
  · decide +kernel
  · decide +kernel

end Client

end WsGateway.Network.Tcp
