import WsGateway.Library.Runs
import WsGateway.Verify.Dpdk.SendQueue
import WsGateway.Verify.Tcp.Step

/-!
# The receive sequence number

After the SYN-ACK a segment should move `ack` only if it starts exactly there.
`process_packet` also uses the value `0` of `ack` as a mark for "not known yet",
and the sequence numbers of a connection pass through `0`: a client whose next
expected byte has the number `0` takes any segment. In a run that never meets
this case `ack` counts the bytes taken.
-/

namespace WsGateway.Network.Tcp

open Library

namespace Client

instance (c : Client) (p : PacketView) : Decidable (c.Old p) :=
  inferInstanceAs (Decidable (_ ∧ _))

instance (c : Client) (p : PacketView) : Decidable (c.AckOk p) :=
  inferInstanceAs (Decidable (_ ∧ _))

theorem accepts_iff (c : Client) (p : PacketView) : c.Accepts p ↔
    p.isValid = true ∧ hasFlag p.header.flags .RST = false ∧ ¬ c.Old p ∧
      (p.header.seq = c.ack ∨ c.ack = 0) ∧ c.AckOk p :=
  ⟨fun h => ⟨h.valid, h.no_rst, h.not_old, h.in_order, h.ack_ok⟩,
    fun ⟨hvalid, hrst, hold, hseq, hack⟩ => ⟨hvalid, hrst, hold, hseq, hack⟩⟩

instance (c : Client) (p : PacketView) : Decidable (c.Accepts p) :=
  decidable_of_iff' _ (accepts_iff c p)

section Run

variable (dpdk : Dpdk)

/-- The client after one call of `process_packet`, returned or thrown. -/
def receiveStep (c : Client) (p : PacketView) : Client := after (processPacket dpdk p c)

/-- The payload bytes of the segments accepted in a run. -/
def takenBytes (c : Client) : List PacketView → Nat
  | [] => 0
  | p :: ps =>
    (if c.Accepts p then p.payload.size else 0) + takenBytes (receiveStep dpdk c p) ps

/-- Only a segment that starts at `ack` moves it; any other is dropped or refused. -/
def InSequence (c : Client) (p : PacketView) : Prop :=
  ((receiveStep dpdk c p).ack ≠ c.ack → p.header.seq = c.ack) ∧
    (p.header.seq ≠ c.ack →
      processPacket dpdk p c = .ok () c ∨ threw (processPacket dpdk p c) = true)

/-- The mark lets a segment through that does not start at `ack`. -/
def Mistaken (c : Client) (p : PacketView) : Prop :=
  c.ack = 0 ∧ p.header.seq ≠ 0 ∧ c.Accepts p

instance (c : Client) (p : PacketView) : Decidable (c.Mistaken p) :=
  inferInstanceAs (Decidable (_ ∧ _))

variable {c : Client} {p : PacketView}

theorem Accepts.seq_eq (h : c.Accepts p) (hm : ¬ c.Mistaken p) : p.header.seq = c.ack := by
  rcases h.in_order with hseq | hzero
  · exact hseq
  · by_contra hne
    exact hm ⟨hzero, hzero ▸ hne, h⟩

/-- One call in a connected state: `ack` moves by the payload of an accepted segment. -/
theorem receiveStep_connected (hc : c.state = .Connected) (hm : ¬ c.Mistaken p) :
    (receiveStep dpdk c p).state = .Connected ∧ (receiveStep dpdk c p).ack =
      c.ack + UInt32.ofNat (if c.Accepts p then p.payload.size else 0) := by
  unfold receiveStep
  cases processPacket_received dpdk p c with
  | same hrej hsame => simp [hsame, hrej, hc]
  | windowed hrej hwindow => simp [hwindow, hrej, hc]
  | delivered hacc hdel =>
    have hseq := hacc.seq_eq hm
    cases hdel with
    | established scale hstate hflags hsends hseq => simp [hc] at hstate
    | took hstate hpayload hsends => simp [hsends.state_eq, hsends.ack_eq, hacc, hseq, hc]
    | nothing hsyn hdata hsame =>
      have hsize : p.payload.size = 0 := by simpa [hc] using hdata
      simp [hsame, hacc, hsize, hc]

/-- One call in a connected state obeys the sequence rule, unless the mark misleads it. -/
theorem inSequence_of_not_mistaken (hc : c.state = .Connected) (hm : ¬ c.Mistaken p) :
    InSequence dpdk c p := by
  obtain ⟨-, hack⟩ := receiveStep_connected dpdk hc hm
  refine ⟨fun hne => ?_, fun hne => ?_⟩
  · by_cases hacc : c.Accepts p
    · exact hacc.seq_eq hm
    · simp [hack, hacc] at hne
  · rcases processPacket_cases dpdk p c with ⟨hacc, -⟩ | ⟨-, hrej⟩
    · exact absurd (hacc.seq_eq hm) hne
    · generalize processPacket dpdk p c = r at hrej
      cases hrej with
      | dropped => exact Or.inl rfl
      | refused => exact Or.inr rfl
      | refusedAck => exact Or.inr rfl

/-- The SYN-ACK sets `ack` to the number after the peer's initial one. -/
theorem receiveStep_synAck (hc : c.state = .Connecting) (hacc : c.Accepts p)
    (hflags : p.header.flags = .SYN_ACK) :
    (receiveStep dpdk c p).state = .Connected ∧
      (receiveStep dpdk c p).ack = p.header.seq + (1 : UInt32) := by
  unfold receiveStep
  cases processPacket_received dpdk p c with
  | same hrej => exact absurd hacc hrej
  | windowed hrej => exact absurd hacc hrej
  | delivered _ hdel =>
    cases hdel with
    | established scale hstate hflags hsends hseq => simp [hsends.state_eq, hsends.ack_eq]
    | took hstate => simp [hc] at hstate
    | nothing hsyn => simp [hc, hflags] at hsyn

/-- Over a run `ack` moves by the bytes taken. -/
theorem run_connected (ps : List PacketView) (hc : c.state = .Connected)
    (hrun : Along (receiveStep dpdk) (fun c p => ¬ c.Mistaken p) c ps) :
    (ps.foldl (receiveStep dpdk) c).state = .Connected ∧
      (ps.foldl (receiveStep dpdk) c).ack = c.ack + UInt32.ofNat (takenBytes dpdk c ps) ∧
      Along (receiveStep dpdk) (InSequence dpdk) c ps := by
  induction ps generalizing c with
  | nil => simp [takenBytes, hc]
  | cons p ps ih =>
    obtain ⟨hm, hrest⟩ := hrun
    obtain ⟨hstate, hack⟩ := receiveStep_connected dpdk hc hm
    obtain ⟨hstate', hack', halong⟩ := ih hstate hrest
    refine ⟨hstate', ?_, inSequence_of_not_mistaken dpdk hc hm, halong⟩
    rw [List.foldl_cons, hack', hack, takenBytes, SeqNumber.add_add, UInt32.ofNat_add]

/-- **Receive sequence**: once the SYN-ACK is accepted, and as long as the mark lets no segment
through, every segment is treated in sequence and `ack` is the number after the peer's initial one
plus the payload bytes of the segments accepted, calls that throw included. -/
theorem ack_eq_taken (syn : PacketView) (ps : List PacketView) (hc : c.state = .Connecting)
    (hacc : c.Accepts syn) (hflags : syn.header.flags = .SYN_ACK)
    (hrun : Along (receiveStep dpdk) (fun c p => ¬ c.Mistaken p) (receiveStep dpdk c syn) ps) :
    Along (receiveStep dpdk) (InSequence dpdk) (receiveStep dpdk c syn) ps ∧
      (ps.foldl (receiveStep dpdk) (receiveStep dpdk c syn)).state = .Connected ∧
      (ps.foldl (receiveStep dpdk) (receiveStep dpdk c syn)).ack =
        syn.header.seq + (1 : UInt32) +
          UInt32.ofNat (takenBytes dpdk (receiveStep dpdk c syn) ps) := by
  obtain ⟨hstate, hack⟩ := receiveStep_synAck dpdk hc hacc hflags
  obtain ⟨hstate', hack', halong⟩ := run_connected dpdk ps hstate hrun
  exact ⟨halong, hstate', hack ▸ hack'⟩

end Run

/-! ### The last sequence number before zero -/

def sampleConnection : Connection :=
  ⟨⟨⟨#v[2, 0, 0, 0, 0, 1], #v[10, 0, 0, 1]⟩, ⟨#v[2, 0, 0, 0, 0, 2], #v[10, 0, 0, 2]⟩⟩, 4000, 443⟩

/-- A client with initial sequence number `7` that waits for the SYN-ACK. -/
def connecting : Client :=
  { Client.new sampleConnection {} 7 0 with
    state := .Connecting
    unacknowledgedBytes := 1 }

/-- The SYN-ACK of a peer with this initial sequence number. -/
def synAck (irs : SeqNumber) : PacketView := .received sampleConnection .SYN_ACK irs 8 []

/-- A segment of the peer. -/
def segment (seq : SeqNumber) (payload : List UInt8) : PacketView :=
  .received sampleConnection .PSH_ACK seq 8 payload

theorem ack_eq_taken_two_segments :
    ([segment 1 [65, 66], segment 3 [67]].foldl (receiveStep sampleDpdk)
      (receiveStep sampleDpdk connecting (synAck 0))).ack = 4 := by
  have hrun := ack_eq_taken sampleDpdk (synAck 0) [segment 1 [65, 66], segment 3 [67]]
    (c := connecting) rfl (by decide) (by decide) ⟨by decide, by decide, trivial⟩
  exact hrun.2.2.trans (by decide)

/-- After the initial sequence number `2 ^ 32 - 1` a segment with number `5` is taken where the
number `0` is due. -/
theorem wrapped_ack_not_inSequence :
    connecting.Accepts (synAck 0xFFFFFFFF) ∧
      (synAck 0xFFFFFFFF).header.flags = .SYN_ACK ∧
      ¬ InSequence sampleDpdk (receiveStep sampleDpdk connecting (synAck 0xFFFFFFFF))
        (segment 5 [65]) := by
  refine ⟨by decide, by decide, fun h => ?_⟩
  have h1 := h.1 (by decide)
  exact absurd h1 (by decide)

end Client

end WsGateway.Network.Tcp
