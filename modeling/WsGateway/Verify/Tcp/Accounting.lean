import WsGateway.Verify.Tcp.Receive

/-!
# Sender accounting

`unacknowledged_bytes` should be the distance from the last acknowledgement to
the next sequence number, plus one for the SYN while it is unanswered. Sending
and receiving keep this balance, thrown calls included. `connect` breaks it if
it throws after the client is `Connecting` and before it counts the SYN, and
nothing restores it: the balance holds in all runs exactly if that does not
happen. The numbers of the packets sent in the connected state follow on one
another in every run.
-/

namespace WsGateway.Network.Tcp

open Library

namespace Client

/-- A call after `connect`; a packet is sent right after it was obtained. -/
inductive Call where
  | send (flags : Flags) (includeOptions : Bool) (payload : List UInt8) (payloadLen : Nat)
  | receive (p : PacketView)

section Run

variable (dpdk : Dpdk)

/-- The client after a call, returned or thrown. -/
def callStep (c : Client) : Call → Client
  | .send flags includeOptions payload payloadLen =>
    after ((getSendBuffer dpdk flags includeOptions >>= fun packet =>
      send dpdk ⟨packet.tcp.writePayload payload⟩ payloadLen) c)
  | .receive p => receiveStep dpdk c p

/-- The client a run of calls leads to from the call of `connect` on. -/
def runFrom (c : Client) (calls : List Call) : Client :=
  calls.foldl (callStep dpdk) (after (connect dpdk c))

end Run

/-! ## The balance -/

/-- The sequence number the SYN takes while it is unanswered. -/
def synByte (s : State) : UInt32 := if s = .Connecting then 1 else 0

/-- The number of unacknowledged bytes is the distance between the counters. -/
def Balanced (c : Client) : Prop :=
  c.unacknowledgedBytes = c.seq + synByte c.state - c.lastAckNumber

instance (c : Client) : Decidable c.Balanced := inferInstanceAs (Decidable (_ = _))

/-- The client is balanced once it is on its way to be connected. -/
def Accounted (c : Client) : Prop :=
  c.state = .Connecting ∨ c.state = .Connected → c.Balanced

section Balance

variable {c c' : Client} {p : PacketView}

theorem balanced_iff : c.Balanced ↔
    c.unacknowledgedBytes + c.lastAckNumber.value = c.seq.value + synByte c.state := by
  unfold Balanced
  change c.unacknowledgedBytes = c.seq.value + synByte c.state - c.lastAckNumber.value ↔ _
  constructor <;> intro h <;> grind

theorem SendStep.balanced (h : SendStep c c') (hc : c.Balanced) : c'.Balanced := by
  rw [balanced_iff] at hc ⊢
  cases h with
  | device d => exact hc
  | hand frame n hseq =>
    change c.unacknowledgedBytes + UInt32.ofNat n + c.lastAckNumber.value =
      c.seq.value + UInt32.ofNat n + synByte c.state
    grind

theorem Sends.balanced (h : Sends c c') (hc : c.Balanced) : c'.Balanced :=
  h.invariant (fun _ _ => SendStep.balanced) hc

theorem acked_balanced (hc : c.Balanced) : (c.acked p).Balanced := by
  rw [balanced_iff] at hc ⊢
  simp only [acked_unacknowledgedBytes, acked_lastAckNumber, acked_seq, acked_state]
  change c.unacknowledgedBytes - (p.header.ack.value - c.lastAckNumber.value) + _ = _
  grind

theorem Received.balanced (h : Received c p c') (hc : c.Balanced) : c'.Balanced := by
  cases h with
  | same hrej hsame => exact hsame ▸ hc
  | windowed hrej hwindow =>
    rw [balanced_iff] at hc ⊢
    simpa [hwindow] using hc
  | delivered hacc hdel =>
    have hacked := acked_balanced (p := p) hc
    cases hdel with
    | established scale hstate hflags hsends hseq =>
      refine hsends.balanced ?_
      rw [balanced_iff] at hacked ⊢
      have hstate' : c.state = .Connecting := by simpa using hstate
      simp [synByte, hstate'] at hacked ⊢
      grind
    | took hstate hpayload hsends =>
      refine hsends.balanced ?_
      rw [balanced_iff] at hacked ⊢
      simpa using hacked
    | nothing hsyn hdata hsame => exact hsame ▸ hacked

end Balance

/-! ## The numbers of the packets -/

/-- The payload bytes handed over in the connected state. -/
def connectedBytes (handed : List Handed) : Nat :=
  ((handed.filter fun h => h.state = .Connected).map Handed.payloadLen).sum

/-- The packets handed over in the connected state are numbered from `base` on without gap. -/
def Numbered (base : SeqNumber) : List Handed → Prop :=
  Throughout fun before h => h.state = .Connected →
    h.frame.header.seq = base + UInt32.ofNat (connectedBytes before)

/-- No packet was handed over in the connected state yet. -/
def Unconnected (c : Client) : Prop :=
  c.state ≠ .Connected ∧ ∀ h ∈ c.handed, h.state ≠ .Connected

/-- A connected client whose packets are numbered from `base` on, with the next number ready. -/
structure Numbering (base : SeqNumber) (c : Client) : Prop where
  connected : c.state = .Connected
  next : c.seq = base + UInt32.ofNat (connectedBytes c.handed)
  numbered : Numbered base c.handed

section Numbers

variable {c c' : Client} {p : PacketView} {base : SeqNumber}

theorem connectedBytes_append (hs : List Handed) (h : Handed) :
    connectedBytes (hs ++ [h]) =
      connectedBytes hs + if h.state = .Connected then h.payloadLen else 0 := by
  unfold connectedBytes
  by_cases hh : h.state = .Connected <;> simp [hh]

theorem connectedBytes_of_unconnected {hs : List Handed}
    (h : ∀ x ∈ hs, x.state ≠ .Connected) : connectedBytes hs = 0 := by
  have hf : hs.filter (fun x => x.state = .Connected) = [] :=
    List.filter_eq_nil_iff.mpr fun x hx => by simpa using h x hx
  simp [connectedBytes, hf]

theorem SendStep.numbering (h : SendStep c c') (hc : Numbering base c) : Numbering base c' := by
  cases h with
  | device d => exact ⟨hc.connected, hc.next, hc.numbered⟩
  | hand frame n hseq =>
    refine ⟨hc.connected, ?_, hc.numbered.concat fun _ => hseq.trans hc.next⟩
    change c.seq + UInt32.ofNat n = _
    rw [connectedBytes_append, if_pos hc.connected, hc.next, SeqNumber.add_add, UInt32.ofNat_add]

theorem Sends.numbering (h : Sends c c') (hc : Numbering base c) : Numbering base c' :=
  h.invariant (fun _ _ => SendStep.numbering) hc

theorem SendStep.unconnected (h : SendStep c c') (hc : c.Unconnected) : c'.Unconnected := by
  cases h with
  | device d => exact hc
  | hand frame n hseq =>
    refine ⟨hc.1, fun x hx => ?_⟩
    rcases List.mem_append.mp hx with hx | hx
    · exact hc.2 x hx
    · obtain rfl := List.mem_singleton.mp hx
      exact hc.1

theorem Sends.unconnected (h : Sends c c') (hc : c.Unconnected) : c'.Unconnected :=
  h.invariant (fun _ _ => SendStep.unconnected) hc

/-- The call that connects the client starts the numbering at the sequence number it leaves. -/
theorem numbering_of_established {scale : UInt8} (hc : c.Unconnected)
    (hsends : Sends { c.established p with peerWindowScale := scale } c')
    (hseq : c'.seq = c.seq + (1 : UInt32)) : Numbering c'.seq c' := by
  refine hsends.numbering ⟨rfl, ?_, ?_⟩
  · rw [hseq]
    change c.seq + (1 : UInt32) = _ + UInt32.ofNat (connectedBytes (c.established p).handed)
    rw [established_handed, connectedBytes_of_unconnected hc.2]
    exact (SeqNumber.add_zero _).symm
  · refine Throughout.of_forall_mem fun h hmem _ hstate => ?_
    exact absurd hstate (hc.2 h (established_handed c p ▸ hmem))

theorem Received.numbering (h : Received c p c') (hc : Numbering base c) : Numbering base c' := by
  cases h with
  | same hrej hsame => exact hsame ▸ hc
  | windowed hrej hwindow =>
    exact hwindow ▸ ⟨by simpa using hc.connected, by simpa using hc.next, by simpa using hc.numbered⟩
  | delivered hacc hdel =>
    have hacked : Numbering base (c.acked p) :=
      ⟨by simpa using hc.connected, by simpa using hc.next, by simpa using hc.numbered⟩
    cases hdel with
    | established scale hstate hflags hsends hseq => simp [hc.connected] at hstate
    | took hstate hpayload hsends =>
      exact hsends.numbering ⟨by simpa using hc.connected, by simpa using hc.next,
        by simpa using hc.numbered⟩
    | nothing hsyn hdata hsame => exact hsame ▸ hacked

/-- A received segment leaves a client unconnected or starts the numbering. -/
theorem Received.unconnected (h : Received c p c') (hc : c.Unconnected) :
    c'.Unconnected ∨ Numbering c'.seq c' := by
  cases h with
  | same hrej hsame => exact Or.inl (hsame ▸ hc)
  | windowed hrej hwindow =>
    exact Or.inl (hwindow ▸ ⟨by simpa using hc.1, by simpa using hc.2⟩)
  | delivered hacc hdel =>
    have hacked : (c.acked p).Unconnected := ⟨by simpa using hc.1, by simpa using hc.2⟩
    cases hdel with
    | established scale hstate hflags hsends hseq =>
      exact Or.inr (numbering_of_established hacked hsends hseq)
    | took hstate hpayload hsends => exact absurd hstate hacked.1
    | nothing hsyn hdata hsame => exact Or.inl (hsame ▸ hacked)

end Numbers

/-! ## Runs -/

section Runs

variable (dpdk : Dpdk) {c : Client} {base : SeqNumber}

/-- A call either sends or receives. -/
theorem callStep_cases (c : Client) (call : Call) :
    Sends c (callStep dpdk c call) ∨ ∃ p, Received c p (callStep dpdk c call) := by
  cases call with
  | send flags includeOptions payload payloadLen =>
    exact Or.inl (getSendBuffer_send_sends dpdk flags includeOptions
      (fun packet => ⟨packet.tcp.writePayload payload⟩) (fun h => h.writePayload payload)
      payloadLen c)
  | receive p => exact Or.inr ⟨p, processPacket_received dpdk p c⟩

theorem run_balanced (calls : List Call) (hc : c.Balanced) :
    (calls.foldl (callStep dpdk) c).Balanced := by
  induction calls generalizing c with
  | nil => exact hc
  | cons call calls ih =>
    refine ih ?_
    rcases callStep_cases dpdk c call with hsends | ⟨p, hrec⟩
    · exact hsends.balanced hc
    · exact hrec.balanced hc

theorem run_numbering (calls : List Call) (hc : Numbering base c) :
    Numbering base (calls.foldl (callStep dpdk) c) := by
  induction calls generalizing c with
  | nil => exact hc
  | cons call calls ih =>
    refine ih ?_
    rcases callStep_cases dpdk c call with hsends | ⟨p, hrec⟩
    · exact hsends.numbering hc
    · exact hrec.numbering hc

theorem callStep_unconnected (call : Call) (hc : c.Unconnected) :
    (callStep dpdk c call).Unconnected ∨
      Numbering (callStep dpdk c call).seq (callStep dpdk c call) := by
  rcases callStep_cases dpdk c call with hsends | ⟨p, hrec⟩
  · exact Or.inl (hsends.unconnected hc)
  · exact hrec.unconnected hc

/-- As long as a run has not connected the client, no packet went out in the connected state. -/
theorem run_unconnected (calls : List Call) (hc : c.Unconnected)
    (hstate : (calls.foldl (callStep dpdk) c).state ≠ .Connected) :
    (calls.foldl (callStep dpdk) c).Unconnected := by
  induction calls generalizing c with
  | nil => exact hc
  | cons call calls ih =>
    rcases callStep_unconnected dpdk call hc with hnext | hnext
    · exact ih hnext hstate
    · exact absurd (run_numbering dpdk calls hnext).connected hstate

/-- From the call that connects the client on, its packets are numbered from there. -/
theorem run_numbered (before : List Call) (call : Call) (rest : List Call) (hc : c.Unconnected)
    (hstate : (before.foldl (callStep dpdk) c).state ≠ .Connected)
    (hstate' : ((before ++ [call]).foldl (callStep dpdk) c).state = .Connected) :
    Numbered ((before ++ [call]).foldl (callStep dpdk) c).seq
      ((before ++ call :: rest).foldl (callStep dpdk) c).handed := by
  have hun := run_unconnected dpdk before hc hstate
  simp only [List.foldl_append, List.foldl_cons, List.foldl_nil] at hstate' ⊢
  rcases callStep_unconnected dpdk call hun with hnext | hnext
  · exact absurd hstate' hnext.1
  · exact (run_numbering dpdk rest hnext).numbered

end Runs

/-! ## Connecting -/

section Connect

variable (dpdk : Dpdk) (connection : Connection) (sender : Device) (isn : SeqNumber)
  (ipId : UInt16)

/-- The SYN goes out, or the buffer taken first is already missing. -/
def SynGoesOut (d : Device) : Prop :=
  dpdk.pktmbufAlloc d.allocs = none ∨
    (dpdk.pktmbufAlloc (d.allocs + 1) ≠ none ∧ 34 ≤ dpdk.dataRoomSize.toNat ∧
      dpdk.ethTxBurst d.bursts ≠ 0)

/-- The device hands out its next buffer, if it has one. -/
theorem device_getSendBuffer_ends (c : Client) :
    Ends (onSender (Device.getSendBuffer dpdk)) c
      (fun tx t => dpdk.pktmbufAlloc c.sender.allocs ≠ none ∧ tx.size = dpdk.dataRoomSize.toNat ∧
        t = { c with sender := { c.sender with allocs := c.sender.allocs + 1 } })
      (fun _ t => dpdk.pktmbufAlloc c.sender.allocs = none ∧ ∃ d, t = { c with sender := d }) := by
  apply Ends.member
  unfold Ends
  rw [Device.getSendBuffer_apply]
  cases h : dpdk.pktmbufAlloc c.sender.allocs with
  | none => exact ⟨rfl, _, rfl⟩
  | some mem => exact ⟨nofun, rfl, rfl⟩

/-- When `get_send_buffer` returns. -/
theorem getSendBuffer_returns (flags : Flags) (includeOptions : Bool) (c : Client) :
    Ends (getSendBuffer dpdk flags includeOptions) c
      (fun _ t => (dpdk.pktmbufAlloc c.sender.allocs ≠ none ∧ 34 ≤ dpdk.dataRoomSize.toNat) ∧
        t = { c with sender := { c.sender with allocs := c.sender.allocs + 1 } })
      (fun _ t => ¬ (dpdk.pktmbufAlloc c.sender.allocs ≠ none ∧ 34 ≤ dpdk.dataRoomSize.toNat) ∧
        ∃ d, t = { c with sender := d }) := by
  refine Ends.seq ((device_getSendBuffer_ends dpdk c).mono (fun _ _ h => h) ?_) ?_
  · rintro _ _ ⟨hnone, d, rfl⟩
    exact ⟨fun h => h.1 hnone, d, rfl⟩
  · rintro tx _ ⟨hsome, hsize, rfl⟩
    apply Ends.read
    have hroom : tx.size < 2 ^ 16 := hsize ▸ dpdk.dataRoomSize.toNat_lt
    have hok : ((PacketView.ofBytes tx).init c.connection flags c.seq c.ack includeOptions).isOk =
        decide (34 ≤ tx.size) := PacketView.init_isOk _ _ _ _ _ _ hroom
    cases hinit : (PacketView.ofBytes tx).init c.connection flags c.seq c.ack includeOptions with
    | error e =>
      have h34 : ¬ 34 ≤ tx.size := by simpa [hinit, Except.isOk, Except.toBool] using hok
      exact ⟨fun h => h34 (hsize ▸ h.2), _, rfl⟩
    | ok tcp =>
      have h34 : 34 ≤ tx.size := by simpa [hinit, Except.isOk, Except.toBool] using hok
      exact ⟨⟨hsome, hsize ▸ h34⟩, rfl⟩

/-- When an empty packet goes out. -/
theorem send_returns (packet : SendBuffer) {c : Client} (hwnd : c.unacknowledgedBytes = 0) :
    Ends (send dpdk packet 0) c
      (fun _ t => dpdk.ethTxBurst c.sender.bursts ≠ 0 ∧
        ∃ d, t = { handOver dpdk c packet 0 with sender := d })
      (fun _ t => dpdk.ethTxBurst c.sender.bursts = 0 ∧
        ∃ d, t = { handOver dpdk c packet 0 with sender := d }) := by
  apply Ends.read
  rw [hwnd]
  unfold Ends
  rw [require_bind, if_pos (by simp), bind_of_ok (modify_apply _ c)]
  apply Ends.member
  unfold Ends
  rw [Device.sendPacket_apply]
  by_cases h : dpdk.ethTxBurst c.sender.bursts = 0
  · rw [if_pos h]
    exact ⟨h, _, rfl⟩
  · rw [if_neg h]
    exact ⟨h, _, rfl⟩

/-- What `connect` leaves of a new client: balanced if the SYN goes out, and connecting with the
SYN not counted if not. -/
structure Opened (d : Device) (t : Client) : Prop where
  unconnected : t.Unconnected
  balanced : SynGoesOut dpdk d → t.Balanced
  uncounted : ¬ SynGoesOut dpdk d → t.state = .Connecting ∧ ¬ t.Balanced

/-- A client that is connecting, but whose SYN is not counted. -/
theorem not_balanced_of_uncounted {t : Client} (hstate : t.state = .Connecting)
    (hunack : t.unacknowledgedBytes = 0) (hseq : t.seq = t.lastAckNumber) : ¬ t.Balanced := by
  rw [balanced_iff, hunack, hseq, synByte, if_pos hstate]
  intro h
  have h1 : (0 : UInt32) = 1 := by grind
  exact absurd h1 (by decide)

/-- A client that only has empty packets handed over while connecting. -/
theorem opened_of_uncounted {d : Device} {t : Client} (hout : ¬ SynGoesOut dpdk d)
    (hun : t.Unconnected) (hstate : t.state = .Connecting) (hunack : t.unacknowledgedBytes = 0)
    (hseq : t.seq = t.lastAckNumber) : Opened dpdk d t :=
  ⟨hun, fun h => absurd h hout,
    fun _ => ⟨hstate, not_balanced_of_uncounted hstate hunack hseq⟩⟩

theorem connect_opened :
    Opened dpdk sender (after (connect dpdk (new connection sender isn ipId))) := by
  refine Ends.after (P := fun t => Opened dpdk sender t) ?_
  refine Ends.seq ((device_getSendBuffer_ends dpdk _).mono (fun _ _ h => h) ?_) ?_
  · rintro _ _ ⟨hnone, d, rfl⟩
    refine ⟨⟨nofun, nofun⟩, fun _ => ?_, fun h => absurd (Or.inl hnone) h⟩
    rw [balanced_iff]
    change 0 + isn.value = isn.value + 0
    grind
  · rintro tx _ ⟨hsome, -, rfl⟩
    apply Ends.update
    refine Ends.seq ((getSendBuffer_returns dpdk .SYN true _).mono (fun _ _ h => h) ?_) ?_
    · rintro _ _ ⟨hno, d, rfl⟩
      refine opened_of_uncounted dpdk ?_ ⟨nofun, nofun⟩ rfl rfl rfl
      rintro (hnone | ⟨halloc, hroom, -⟩)
      · exact hsome hnone
      · exact hno ⟨halloc, hroom⟩
    · rintro packet _ ⟨hyes, rfl⟩
      refine Ends.seq ((send_returns dpdk packet rfl).mono (fun _ _ h => h) ?_) ?_
      · rintro _ _ ⟨hburst, d, rfl⟩
        refine opened_of_uncounted dpdk ?_ ⟨nofun, ?_⟩ rfl rfl (SeqNumber.add_zero isn)
        · rintro (hnone | ⟨-, -, htaken⟩)
          · exact hsome hnone
          · exact htaken hburst
        · intro h hmem
          obtain rfl := List.mem_singleton.mp hmem
          nofun
      · rintro _ _ ⟨hburst, d, rfl⟩
        refine ⟨⟨nofun, ?_⟩, fun _ => ?_, fun h => absurd (Or.inr ⟨hyes.1, hyes.2, hburst⟩) h⟩
        · intro h hmem
          obtain rfl := List.mem_singleton.mp hmem
          nofun
        · rw [balanced_iff]
          change 1 + isn.value = isn.value + 0 + 1
          grind

/-- **Sender accounting**: over all runs from one call of `connect` the counters balance while the
client is connecting or connected, and the packets sent while connected are numbered without gap
from where the client became connected, exactly if the SYN goes out once the client has its first
buffer. -/
theorem accounted_iff_synGoesOut :
    ((∀ calls, (runFrom dpdk (new connection sender isn ipId) calls).Accounted) ∧
      ∀ before call rest,
        (runFrom dpdk (new connection sender isn ipId) before).state ≠ .Connected →
        (runFrom dpdk (new connection sender isn ipId) (before ++ [call])).state = .Connected →
        Numbered (runFrom dpdk (new connection sender isn ipId) (before ++ [call])).seq
          (runFrom dpdk (new connection sender isn ipId) (before ++ call :: rest)).handed) ↔
      SynGoesOut dpdk sender := by
  have hopen := connect_opened dpdk connection sender isn ipId
  constructor
  · rintro ⟨hacc, -⟩
    by_contra hout
    obtain ⟨hstate, hbal⟩ := hopen.uncounted hout
    exact hbal (hacc [] (Or.inl hstate))
  · intro hout
    exact ⟨fun calls _ => run_balanced dpdk calls (hopen.balanced hout),
      fun before call rest => run_numbered dpdk before call rest hopen.unconnected⟩

end Connect

/-- After a `connect` that throws because the SYN was not taken, the client is connecting and the
SYN is not counted. -/
theorem refused_syn_not_accounted :
    ¬ (runFrom Device.refusingDpdk (new sampleConnection {} 7 0) []).Accounted := by
  intro h
  exact absurd (h (Or.inl (by decide))) (by decide)

end Client

end WsGateway.Network.Tcp
