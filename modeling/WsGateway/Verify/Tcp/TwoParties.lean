import WsGateway.Library.Flows
import WsGateway.Verify.Tcp.Establish
import WsGateway.Verify.Tcp.Tracking

/-!
# Two parties and a network

The client talks to a peer that keeps to the protocol, over a network that loses, repeats and
reorders segments in both directions. Once the connection is established, each step of the client,
the peer or the network is a step of two flows, one for each direction; so neither side ever takes a
byte that the other has not sent, or takes one twice or out of order, and neither believes more to be
delivered than is.
-/

namespace WsGateway.Network.Tcp

open Library

/-! ## The parties -/

/-- The peer: the numbers of the first bytes of both directions, what its application has written,
and what it has taken. -/
structure Peer where
  sendBase : SeqNumber
  recvBase : SeqNumber
  written : List UInt8
  got : List UInt8

/-- By how much the packet starts before the next byte that the peer expects. -/
def Peer.behind (q : Peer) (v : PacketView) : Nat :=
  (q.recvBase + UInt32.ofNat q.got.length - v.header.seq).toNat

/-- The peer takes of a frame what goes beyond what it has, if that leaves no gap. -/
def Peer.take (q : Peer) (frame : ByteView) : Peer :=
  let v := PacketView.ofBytes frame
  if q.behind v ≤ v.payload.size then { q with got := q.got ++ v.payload.toList.drop (q.behind v) }
  else q

/-- The peer may send this segment: its number says where its bytes stand, and it acknowledges what
the peer has taken. -/
structure Peer.Emits (q : Peer) (p : PacketView) : Prop where
  data : ∃ i, p.header.seq = q.sendBase + UInt32.ofNat i ∧ Flow.At q.written i p.payload.toList
  ack : p.header.ack = q.recvBase + UInt32.ofNat q.got.length

/-- The client and its peer, with the bytes the client was given to send and those it took, and all
segments and frames that were ever on the network. -/
structure System where
  client : Client
  given : List UInt8
  taken : List UInt8
  peer : Peer
  segments : List PacketView
  frames : List ByteView

namespace System

/-- The user of the client sends a payload; it counts if the packet was handed over. -/
def send (dpdk : Dpdk) (s : System) (payload : List UInt8) : System :=
  let t := Client.callStep dpdk s.client (.send .PSH_ACK false payload payload.length)
  { s with
    client := t
    given := s.given ++ (t.handed.drop s.client.handed.length).flatMap fun _ => payload
    frames := s.frames ++ Client.framesSince s.client t }

/-- A segment arrives at the client. -/
def receive (dpdk : Dpdk) (s : System) (p : PacketView) : System :=
  let t := Client.receiveStep dpdk s.client p
  { s with
    client := t
    taken := s.taken ++ if s.client.Accepts p then p.payload.toList else []
    frames := s.frames ++ Client.framesSince s.client t }

/-- A step of the peer, the client or the network. Segments and frames stay on the network, so that
they may arrive late, again, or never. -/
inductive Step (dpdk : Dpdk) : System → System → Prop where
  | write (s : System) (more : List UInt8) :
      Step dpdk s { s with peer := { s.peer with written := s.peer.written ++ more } }
  | emit (s : System) (p : PacketView) (hemits : s.peer.Emits p) :
      Step dpdk s { s with segments := s.segments ++ [p] }
  | receive (s : System) (p : PacketView) (hmem : p ∈ s.segments) : Step dpdk s (s.receive dpdk p)
  | send (s : System) (payload : List UInt8) (hfits : payload.length + 40 < 2 ^ 16) :
      Step dpdk s (s.send dpdk payload)
  | take (s : System) (frame : ByteView) (hmem : frame ∈ s.frames) :
      Step dpdk s { s with peer := s.peer.take frame }

/-- Any number of steps. -/
def Steps (dpdk : Dpdk) : System → System → Prop := Relation.ReflTransGen (Step dpdk)

/-- The connection is established; nothing was sent but SYN-ACKs, which may be repeated. -/
structure Established (s : System) : Prop where
  client : Client.Tracks s.peer.sendBase s.peer.recvBase 0 0 0 s.client
  given : s.given = []
  taken : s.taken = []
  written : s.peer.written = []
  got : s.peer.got = []
  frames : s.frames = []
  segments : ∀ p ∈ s.segments, p.header.seq + (1 : UInt32) = s.peer.sendBase

/-- Less than `2 ^ 32` bytes were written in each direction, and no segment ends right before the
number zero, which the client takes for a missing one. -/
structure Within (s : System) : Prop where
  written : s.peer.written.length + 1 < 2 ^ 32
  given : s.given.length < 2 ^ 32
  ends : ∀ p ∈ s.segments, p.payload.size ≠ 0 → p.header.seq + UInt32.ofNat p.payload.size ≠ 0

section Simulation

variable {dpdk : Dpdk} {s s' : System} {f g : Flow UInt8}

@[simp] theorem send_peer (s : System) (payload : List UInt8) :
    (s.send dpdk payload).peer = s.peer := rfl

@[simp] theorem send_segments (s : System) (payload : List UInt8) :
    (s.send dpdk payload).segments = s.segments := rfl

@[simp] theorem receive_peer (s : System) (p : PacketView) :
    (s.receive dpdk p).peer = s.peer := rfl

@[simp] theorem receive_given (s : System) (p : PacketView) :
    (s.receive dpdk p).given = s.given := rfl

@[simp] theorem receive_segments (s : System) (p : PacketView) :
    (s.receive dpdk p).segments = s.segments := rfl

theorem given_prefix_send (dpdk : Dpdk) (s : System) (payload : List UInt8) :
    s.given <+: (s.send dpdk payload).given := List.prefix_append _ _

theorem Peer.take_of_le {q : Peer} {frame : ByteView} {v : PacketView} (hv : .ofBytes frame = v)
    (h : q.behind v ≤ v.payload.size) :
    q.take frame = { q with got := q.got ++ v.payload.toList.drop (q.behind v) } := by
  subst hv
  exact if_pos h

theorem Peer.take_of_gt {q : Peer} {frame : ByteView} {v : PacketView} (hv : .ofBytes frame = v)
    (h : ¬ q.behind v ≤ v.payload.size) : q.take frame = q := by
  subst hv
  exact if_neg h

theorem Peer.take_written (q : Peer) (frame : ByteView) : (q.take frame).written = q.written := by
  by_cases h : q.behind (.ofBytes frame) ≤ (PacketView.ofBytes frame).payload.size
  · rw [Peer.take_of_le rfl h]
  · rw [Peer.take_of_gt rfl h]

theorem Step.within (h : Step dpdk s s') (hs : Within s') : Within s := by
  obtain ⟨hwritten, hgiven, hends⟩ := hs
  cases h with
  | write more =>
    refine ⟨?_, hgiven, hends⟩
    rw [List.length_append] at hwritten
    omega
  | emit p => exact ⟨hwritten, hgiven, fun p hmem => hends p (List.mem_append_left _ hmem)⟩
  | receive p =>
    rw [receive_peer] at hwritten
    rw [receive_given] at hgiven
    rw [receive_segments] at hends
    exact ⟨hwritten, hgiven, hends⟩
  | send payload =>
    have hle := (given_prefix_send dpdk s payload).length_le
    rw [send_peer] at hwritten
    rw [send_segments] at hends
    exact ⟨hwritten, Nat.lt_of_le_of_lt hle hgiven, hends⟩
  | take frame => exact ⟨Peer.take_written s.peer frame ▸ hwritten, hgiven, hends⟩

/-! ## The two flows -/

/-- A segment on the network: a repeated SYN-ACK, or a piece of the flow to the client with an
acknowledgement of the other. -/
def SegmentOf (q : Peer) (f g : Flow UInt8) (p : PacketView) : Prop :=
  p.header.seq + (1 : UInt32) = q.sendBase ∨
    ∃ i a, p.header.seq = q.sendBase + UInt32.ofNat i ∧ (i, p.payload.toList) ∈ f.pieces ∧
      p.header.ack = q.recvBase + UInt32.ofNat a ∧ a ∈ g.acks

/-- A frame on the network: a piece of the flow to the peer with an acknowledgement of the other. -/
def FrameOf (q : Peer) (f g : Flow UInt8) (frame : ByteView) : Prop :=
  ∃ i k payload, Client.Carries (.ofBytes frame) (q.recvBase + UInt32.ofNat i)
      (q.sendBase + UInt32.ofNat k) payload ∧ (i, payload) ∈ g.pieces ∧ k ∈ f.acks

/-- The system as two flows, `f` to the client and `g` to the peer. -/
structure Sim (s : System) (f g : Flow UInt8) : Prop where
  client : Client.Tracks s.peer.sendBase s.peer.recvBase f.delivered.length g.written.length g.acked
    s.client
  taken : f.delivered = s.taken
  written : f.written = s.peer.written
  given : g.written = s.given
  got : g.delivered = s.peer.got
  segments : ∀ p ∈ s.segments, SegmentOf s.peer f g p
  frames : ∀ frame ∈ s.frames, FrameOf s.peer f g frame

theorem Established.sim (h : Established s) : Sim s .start .start := by
  refine ⟨h.client, h.taken.symm, h.written.symm, h.given.symm, h.got.symm, ?_, ?_⟩
  · intro p hmem
    exact Or.inl (h.segments p hmem)
  · intro frame hmem
    rw [h.frames] at hmem
    cases hmem

variable {q : Peer} {f' g' : Flow UInt8} {p : PacketView} {frame : ByteView}

theorem SegmentOf.mono (h : SegmentOf q f g p) (hf : Flow.Steps f f') (hg : Flow.Steps g g') :
    SegmentOf q f' g' p := by
  rcases h with h | ⟨i, a, hseq, hpiece, hack, ha⟩
  · exact Or.inl h
  · exact Or.inr ⟨i, a, hseq, hf.pieces_subset hpiece, hack, hg.acks_subset ha⟩

theorem FrameOf.mono (h : FrameOf q f g frame) (hf : Flow.Steps f f') (hg : Flow.Steps g g') :
    FrameOf q f' g' frame := by
  obtain ⟨i, k, payload, hcarries, hpiece, hk⟩ := h
  exact ⟨i, k, payload, hcarries, hg.pieces_subset hpiece, hf.acks_subset hk⟩

/-- The flows after a step, with what was added to the network. -/
theorem Sim.next (h : Sim s f g) (hf : Flow.Steps f f') (hg : Flow.Steps g g')
    (hsend : s'.peer.sendBase = s.peer.sendBase) (hrecv : s'.peer.recvBase = s.peer.recvBase)
    (hclient : Client.Tracks s.peer.sendBase s.peer.recvBase f'.delivered.length g'.written.length
      g'.acked s'.client)
    (htaken : f'.delivered = s'.taken) (hwritten : f'.written = s'.peer.written)
    (hgiven : g'.written = s'.given) (hgot : g'.delivered = s'.peer.got)
    (hsegments : ∀ p ∈ s'.segments, p ∈ s.segments ∨ SegmentOf s.peer f' g' p)
    (hframes : ∀ frame ∈ s'.frames, frame ∈ s.frames ∨ FrameOf s.peer f' g' frame) :
    Sim s' f' g' := by
  have hsegment : ∀ p, SegmentOf s.peer f' g' p → SegmentOf s'.peer f' g' p := by
    intro p hp
    rw [SegmentOf, hsend, hrecv]
    exact hp
  have hframe : ∀ frame, FrameOf s.peer f' g' frame → FrameOf s'.peer f' g' frame := by
    intro frame hp
    rw [FrameOf, hsend, hrecv]
    exact hp
  refine ⟨?_, htaken, hwritten, hgiven, hgot, ?_, ?_⟩
  · rw [hsend, hrecv]
    exact hclient
  · intro p hmem
    apply hsegment
    rcases hsegments p hmem with hmem | hp
    · exact (h.segments p hmem).mono hf hg
    · exact hp
  · intro frame hmem
    apply hframe
    rcases hframes frame hmem with hmem | hp
    · exact (h.frames frame hmem).mono hf hg
    · exact hp

/-- The flows that a step leads to. -/
def Simulated (s' : System) (f g : Flow UInt8) : Prop :=
  ∃ f' g', Flow.Steps f f' ∧ Flow.Steps g g' ∧ Sim s' f' g'

theorem Sim.write (h : Sim s f g) (more : List UInt8) :
    Simulated { s with peer := { s.peer with written := s.peer.written ++ more } } f g := by
  have hf : Flow.Steps f { f with written := f.written ++ more } := .single (.write f more)
  refine ⟨_, _, hf, .refl, h.next hf .refl rfl rfl h.client h.taken ?_ h.given h.got ?_ ?_⟩
  · rw [h.written]
  · exact fun p hmem => Or.inl hmem
  · exact fun frame hmem => Or.inl hmem

theorem Sim.emit (h : Sim s f g) (hemits : s.peer.Emits p) :
    Simulated { s with segments := s.segments ++ [p] } f g := by
  obtain ⟨⟨i, hseq, hat⟩, hack⟩ := hemits
  have hf : Flow.Steps f { f with pieces := f.pieces ++ [(i, p.payload.toList)] } :=
    .single (.emit f i _ (h.written ▸ hat))
  have hg : Flow.Steps g { g with acks := g.acks ++ [g.delivered.length] } :=
    .single (.acknowledge g)
  refine ⟨_, _, hf, hg, h.next hf hg rfl rfl h.client h.taken h.written h.given h.got ?_ ?_⟩
  · intro r hmem
    rcases List.mem_append.mp hmem with hmem | hmem
    · exact Or.inl hmem
    · rw [List.mem_singleton.mp hmem]
      refine Or.inr (Or.inr ⟨i, g.delivered.length, hseq, ?_, ?_, ?_⟩)
      · exact List.mem_append_right _ List.mem_cons_self
      · rw [h.got]
        exact hack
      · exact List.mem_append_right _ List.mem_cons_self
  · exact fun frame hmem => Or.inl hmem

theorem Sim.send (h : Sim s f g) {payload : List UInt8} (hfits : payload.length + 40 < 2 ^ 16) :
    Simulated (s.send dpdk payload) f g := by
  rcases h.client.send dpdk .PSH_ACK hfits with ⟨hhanded, hnone, hclient⟩ |
    ⟨hhanded, hclient, hnew⟩
  · refine ⟨f, g, .refl, .refl, h.next .refl .refl rfl rfl hclient h.taken h.written ?_ h.got ?_ ?_⟩
    · rw [System.send, hhanded, h.given]
      exact (List.append_nil _).symm
    · exact fun p hmem => Or.inl hmem
    · intro frame hmem
      rw [System.send, hnone] at hmem
      exact Or.inl ((List.append_nil s.frames) ▸ hmem)
  · have hg : Flow.Steps g { g with
        written := g.written ++ payload
        pieces := g.pieces ++ [(g.written.length, payload)] } :=
      .tail (.single (.write g payload)) (.emit _ _ _ (Flow.at_append g.written payload))
    have hf : Flow.Steps f { f with acks := f.acks ++ [f.delivered.length] } :=
      .single (.acknowledge f)
    obtain ⟨handed, hhanded⟩ := List.length_eq_one_iff.mp hhanded
    refine ⟨_, _, hf, hg, h.next hf hg rfl rfl ?_ h.taken h.written ?_ h.got ?_ ?_⟩
    · rw [List.length_append]
      exact hclient
    · rw [System.send, hhanded, h.given, List.flatMap_singleton]
    · exact fun p hmem => Or.inl hmem
    · intro frame hmem
      rcases List.mem_append.mp hmem with hmem | hmem
      · exact Or.inl hmem
      · refine Or.inr ⟨g.written.length, f.delivered.length, payload, hnew frame hmem, ?_, ?_⟩
        · exact List.mem_append_right _ List.mem_cons_self
        · exact List.mem_append_right _ List.mem_cons_self

/-- A segment that the client accepts is the piece it waits for. -/
theorem Sim.accepted (h : Sim s f g) (hf : f.Sound) (hs : Within s) (hmem : p ∈ s.segments)
    (hacc : s.client.Accepts p) :
    ∃ a, (f.delivered.length, p.payload.toList) ∈ f.pieces ∧
      p.header.ack = s.peer.recvBase + UInt32.ofNat a ∧ a ∈ g.acks := by
  have hseq : p.header.seq = s.peer.sendBase + UInt32.ofNat f.delivered.length := by
    rw [← h.client.ack]
    exact hacc.in_order.resolve_right h.client.ack_ne
  have hwritten := hs.written
  have hdelivered := hf.delivered.length_le
  rw [← h.written] at hwritten
  rcases h.segments p hmem with hsyn | ⟨i, a, hi, hpiece, hack, ha⟩
  · -- a SYN-ACK stands before every piece
    have hzero : s.peer.sendBase + UInt32.ofNat (f.delivered.length + 1) =
        s.peer.sendBase + UInt32.ofNat 0 := by
      rw [UInt32.ofNat_add, ← SeqNumber.add_add, ← hseq]
      exact hsyn.trans (SeqNumber.add_zero _).symm
    have hnum := (SeqNumber.add_ofNat_inj (by omega) (by omega)).mp hzero
    omega
  · have hle := (hf.pieces _ _ hpiece).le
    obtain rfl : i = f.delivered.length :=
      (SeqNumber.add_ofNat_inj (by omega) (by omega)).mp (hi.symm.trans hseq)
    exact ⟨a, hpiece, hack, ha⟩

theorem Sim.receive (h : Sim s f g) (hf : f.Sound) (hg : g.Sound) (hs : Within s)
    (hmem : p ∈ s.segments) : Simulated (s.receive dpdk p) f g := by
  by_cases hacc : s.client.Accepts p
  · obtain ⟨a, hpiece, hack, ha⟩ := h.accepted hf hs hmem hacc
    have hgiven := hs.given
    rw [← h.given] at hgiven
    have hbound := hg.delivered.length_le
    have hacks := hg.acks a ha
    have hacked := hg.acked
    have hlearn : g.acked ≤ a := h.client.acked_le hacc hack (by omega) hgiven
    obtain ⟨hclient, hnew⟩ := h.client.accept dpdk hacc hack (hs.ends p hmem)
    have hsize : f.delivered.length + p.payload.size =
        (f.delivered ++ p.payload.toList).length := by
      rw [List.length_append, ByteView.length_toList]
    rw [hsize] at hclient hnew
    have hf' : Flow.Steps f { f with
        delivered := f.delivered ++ p.payload.toList
        acks := f.acks ++ [(f.delivered ++ p.payload.toList).length] } :=
      .tail (.single (Flow.Step.deliver_next hpiece)) (.acknowledge _)
    have hg' : Flow.Steps g { g with
        acked := a
        pieces := g.pieces ++ [(g.written.length, [])] } :=
      .tail (.single (.learn g a ha hlearn)) (.emit _ _ _ (Flow.at_nil g.written))
    refine ⟨_, _, hf', hg', h.next hf' hg' rfl rfl hclient ?_ h.written h.given h.got ?_ ?_⟩
    · rw [System.receive, if_pos hacc, h.taken]
    · exact fun p hmem => Or.inl hmem
    · intro frame hmem
      rcases List.mem_append.mp hmem with hmem | hmem
      · exact Or.inl hmem
      · refine Or.inr ⟨g.written.length, _, [], hnew frame hmem, ?_, ?_⟩
        · exact List.mem_append_right _ List.mem_cons_self
        · exact List.mem_append_right _ List.mem_cons_self
  · obtain ⟨hclient, hnone⟩ := h.client.reject dpdk hacc
    refine ⟨f, g, .refl, .refl, h.next .refl .refl rfl rfl hclient ?_ h.written h.given h.got ?_ ?_⟩
    · rw [System.receive, if_neg hacc, h.taken]
      exact (List.append_nil _).symm
    · exact fun p hmem => Or.inl hmem
    · intro frame hmem
      rw [System.receive, hnone] at hmem
      exact Or.inl ((List.append_nil s.frames) ▸ hmem)

theorem Sim.take (h : Sim s f g) (hg : g.Sound) (hs : Within s) (hmem : frame ∈ s.frames) :
    Simulated { s with peer := s.peer.take frame } f g := by
  obtain ⟨i, k, payload, hcarries, hpiece, hk⟩ := h.frames frame hmem
  have hgiven := hs.given
  rw [← h.given] at hgiven
  have hle := (hg.pieces _ _ hpiece).le
  have hbound := hg.delivered.length_le
  have hsize : (PacketView.ofBytes frame).payload.size = payload.length := by
    rw [← hcarries.payload, ByteView.length_toList]
  have hbehind : s.peer.behind (.ofBytes frame) = (s.peer.recvBase +
      UInt32.ofNat g.delivered.length - (s.peer.recvBase + UInt32.ofNat i)).toNat := by
    rw [Peer.behind, hcarries.seq, h.got]
  by_cases htake : s.peer.behind (.ofBytes frame) ≤ (PacketView.ofBytes frame).payload.size
  · -- what is taken starts at or before the end of what the peer has
    have hstart : i ≤ g.delivered.length := by
      by_contra hlt
      rw [hsize, hbehind, SeqNumber.toNat_sub_of_lt (by omega) (by omega)] at htake
      omega
    rw [SeqNumber.toNat_sub_of_le hstart (by omega)] at hbehind
    have hg' : Flow.Steps g { g with
        delivered := g.delivered ++ payload.drop (g.delivered.length - i) } :=
      .single (.deliver g i payload hpiece hstart)
    rw [Peer.take_of_le rfl htake, hbehind, hcarries.payload]
    refine ⟨_, _, .refl, hg', h.next .refl hg' rfl rfl h.client h.taken h.written h.given ?_ ?_ ?_⟩
    · rw [h.got]
    · exact fun p hmem => Or.inl hmem
    · exact fun frame hmem => Or.inl hmem
  · rw [Peer.take_of_gt rfl htake]
    exact ⟨f, g, .refl, .refl, h⟩

/-- Every step is a step of the two flows. -/
theorem Step.simulated (hstep : Step dpdk s s') (h : Sim s f g) (hf : f.Sound) (hg : g.Sound)
    (hs : Within s) : Simulated s' f g := by
  cases hstep with
  | write more => exact h.write more
  | emit p hemits => exact h.emit hemits
  | receive p hmem => exact h.receive hf hg hs hmem
  | send payload hfits => exact h.send hfits
  | take frame hmem => exact h.take hg hs hmem

/-- **Refinement**: from an established connection on, a run of the client, its peer and the network
is a run of two flows. -/
theorem Steps.simulated (hsteps : Steps dpdk s s') (h : Established s) (hs : Within s') :
    Simulated s' .start .start := by
  induction hsteps with
  | refl => exact ⟨_, _, .refl, .refl, h.sim⟩
  | tail _ hlast ih =>
    obtain ⟨f, g, hf, hg, hsim⟩ := ih (hlast.within hs)
    obtain ⟨f', g', hf', hg', hsim'⟩ := hlast.simulated hsim (hf.sound Flow.start_sound)
      (hg.sound Flow.start_sound) (hlast.within hs)
    exact ⟨f', g', hf.trans hf', hg.trans hg', hsim'⟩

end Simulation

/-! ## From the handshake on -/

/-- Both sides right after the SYN-ACK that connects the client. -/
def opened (dpdk : Dpdk) (c : Client) (syn : PacketView) : System where
  client := Client.receiveStep dpdk c syn
  given := []
  taken := []
  peer := ⟨syn.header.seq + (1 : UInt32), c.seq + (1 : UInt32), [], []⟩
  segments := [syn]
  frames := []

/-- What each side has taken is what the other has sent so far, without loss, repetition or change of
order, and no acknowledgement is ahead of what was taken. -/
structure Agree (s : System) : Prop where
  connected : s.client.state = .Connected
  taken : s.taken <+: s.peer.written
  got : s.peer.got <+: s.given
  ack : s.client.ack = s.peer.sendBase + UInt32.ofNat s.taken.length
  acked : ∃ a ≤ s.peer.got.length, s.client.lastAckNumber = s.peer.recvBase + UInt32.ofNat a ∧
    s.client.unacknowledgedBytes.toNat = s.given.length - a
  frames : ∀ frame ∈ s.frames, ∃ k ≤ s.taken.length,
    (PacketView.ofBytes frame).header.ack = s.peer.sendBase + UInt32.ofNat k

section Handshake

variable {dpdk : Dpdk} {connection : Connection} {sender : Device} {isn : SeqNumber}
  {ipId : UInt16} {c₀ c : Client} {syn : PacketView} {s : System} {f g : Flow UInt8}

theorem opened_established (h : Client.AwaitsSynAck isn c)
    (hafter : (Client.receiveStep dpdk c syn).state = .Connected) (hack : syn.header.ack ≠ isn)
    (hne : syn.header.seq + (1 : UInt32) ≠ 0) : Established (opened dpdk c syn) := by
  rcases h.received (Client.processPacket_received dpdk syn c) with hnext |
    ⟨hconnected, hflags, hcases, hnum, hseq, hlast, hbalanced⟩
  · rw [Client.receiveStep, hnext.state] at hafter
    cases hafter
  · refine ⟨⟨hconnected, hbalanced, ?_, ?_, ?_, ?_⟩, rfl, rfl, rfl, rfl, rfl, ?_⟩
    · exact hnum.trans (SeqNumber.add_zero _).symm
    · exact fun hzero => hne (hnum.symm.trans hzero)
    · refine hseq.trans ?_
      rw [← h.seq]
      exact (SeqNumber.add_zero _).symm
    · refine (hlast.trans (hcases.resolve_left hack)).trans ?_
      rw [← h.seq]
      exact (SeqNumber.add_zero _).symm
    · intro p hmem
      rw [List.mem_singleton.mp hmem]
      rfl

theorem Sim.agree (h : Sim s f g) (hf : f.Sound) (hg : g.Sound) (hs : Within s) : Agree s := by
  have hacked := hg.acked
  have hbound := hg.delivered.length_le
  have hgiven := hs.given
  rw [← h.given] at hgiven
  refine ⟨h.client.state, ?_, ?_, ?_, ⟨g.acked, ?_, h.client.lastAck, ?_⟩, ?_⟩
  · rw [← h.taken, ← h.written]
    exact hf.delivered
  · rw [← h.got, ← h.given]
    exact hg.delivered
  · rw [← h.taken]
    exact h.client.ack
  · rw [← h.got]
    exact hacked
  · rw [← h.given]
    exact h.client.unacknowledged (by omega) hgiven
  · intro frame hmem
    obtain ⟨i, k, payload, hcarries, -, hk⟩ := h.frames frame hmem
    refine ⟨k, ?_, hcarries.ack⟩
    rw [← h.taken]
    exact hf.acks k hk

theorem Steps.reachable (hsteps : Steps dpdk (opened dpdk c syn) s) (h : Client.AwaitsSynAck isn c)
    (hafter : (Client.receiveStep dpdk c syn).state = .Connected) (hack : syn.header.ack ≠ isn)
    (hne : syn.header.seq + (1 : UInt32) ≠ 0) (hs : Within s) :
    ∃ f g, Sim s f g ∧ f.Sound ∧ g.Sound := by
  obtain ⟨f, g, hf, hg, hsim⟩ := hsteps.simulated (opened_established h hafter hack hne) hs
  exact ⟨f, g, hsim, hf.sound Flow.start_sound, hg.sound Flow.start_sound⟩

/-- **Agreement**: after `connect`, any segments that leave the client connecting and a SYN-ACK that
connects it, whatever the network loses, repeats and reorders in both directions and whatever
exceptions this leads to, what each side has taken is a beginning of what the other has sent, and no
side acknowledges or counts as acknowledged what was not taken. -/
theorem two_parties_agree (before : List PacketView)
    (hconnect : Client.connect dpdk (.new connection sender isn ipId) = .ok () c₀)
    (hbefore : (before.foldl (Client.receiveStep dpdk) c₀).state = .Connecting)
    (hafter : (Client.receiveStep dpdk (before.foldl (Client.receiveStep dpdk) c₀) syn).state =
      .Connected)
    (hack : syn.header.ack ≠ isn) (hne : syn.header.seq + (1 : UInt32) ≠ 0)
    (hsteps : Steps dpdk (opened dpdk (before.foldl (Client.receiveStep dpdk) c₀) syn) s)
    (hs : Within s) : Agree s := by
  have hawaits := Client.run_awaitsSynAck dpdk before (Client.connect_awaitsSynAck dpdk hconnect)
    hbefore
  obtain ⟨f, g, hsim, hf, hg⟩ := hsteps.reachable hawaits hafter hack hne hs
  exact hsim.agree hf hg hs

/-- The next segment, for the state that the system is in: it starts `i` bytes into what the peer
has written and acknowledges `a` bytes of the client. -/
structure Arrives (s : System) (p : PacketView) (i a : Nat) : Prop where
  valid : p.isValid = true
  no_rst : hasFlag p.header.flags .RST = false
  seq : p.header.seq = s.peer.sendBase + UInt32.ofNat i
  ack : p.header.ack = s.peer.recvBase + UInt32.ofNat a
  written : i ≤ s.peer.written.length
  got : a ≤ s.peer.got.length

/-- **What ends the run**: a segment of the peer that arrives in any reachable state makes the client
throw exactly if there is a gap before it, or it is the next one and acknowledges less than one before
it did, or it has payload to acknowledge while the window or the device has no room. -/
theorem throws_iff (before : List PacketView)
    (hconnect : Client.connect dpdk (.new connection sender isn ipId) = .ok () c₀)
    (hbefore : (before.foldl (Client.receiveStep dpdk) c₀).state = .Connecting)
    (hafter : (Client.receiveStep dpdk (before.foldl (Client.receiveStep dpdk) c₀) syn).state =
      .Connected)
    (hack : syn.header.ack ≠ isn) (hne : syn.header.seq + (1 : UInt32) ≠ 0)
    (hsteps : Steps dpdk (opened dpdk (before.foldl (Client.receiveStep dpdk) c₀) syn) s)
    (hs : Within s) (hwritten : s.peer.written.length < 2 ^ 31) (hgiven : s.given.length < 2 ^ 31) :
    ∃ acked ≤ s.peer.got.length, s.client.lastAckNumber = s.peer.recvBase + UInt32.ofNat acked ∧
      ∀ p i a, Arrives s p i a →
        (threw (Client.processPacket dpdk p s.client) = true ↔
          s.taken.length < i ∨ (i = s.taken.length ∧ (a < acked ∨ (p.payload.size ≠ 0 ∧
            ¬ (s.client.WindowCovers p ∧ Client.DeviceReady dpdk s.client.sender))))) := by
  have hawaits := Client.run_awaitsSynAck dpdk before (Client.connect_awaitsSynAck dpdk hconnect)
    hbefore
  obtain ⟨f, g, hsim, hf, hg⟩ := hsteps.reachable hawaits hafter hack hne hs
  have hclient := hsim.client
  have hacked := hg.acked
  have hdelivered := hf.delivered.length_le
  have hbound := hg.delivered.length_le
  rw [hsim.taken] at hclient hdelivered
  rw [hsim.got] at hacked hbound
  rw [hsim.written] at hdelivered
  rw [hsim.given] at hclient hbound
  refine ⟨g.acked, hacked, hclient.lastAck, fun p i a h => ?_⟩
  have hi := h.written
  have ha := h.got
  exact hclient.threw_iff dpdk h.valid h.no_rst h.seq h.ack (by omega) (by omega) (by omega) (by omega)
    (by omega)

end Handshake

/-! ## A segment and its repetition, and a gap -/

open Client (unconnected segment synAck)

/-- The peer has written two bytes. -/
def twoWritten : System :=
  let s := opened sampleDpdk (after (Client.connect sampleDpdk unconnected)) (synAck 0)
  { s with peer := { s.peer with written := s.peer.written ++ [65, 66] } }

/-- Its segment with both of them has arrived twice. -/
def twiceReceived : System :=
  (({ twoWritten with segments := twoWritten.segments ++ [segment 1 [65, 66]] } : System).receive
    sampleDpdk (segment 1 [65, 66])).receive sampleDpdk (segment 1 [65, 66])

theorem connect_unconnected : Client.connect sampleDpdk unconnected =
    .ok () (after (Client.connect sampleDpdk unconnected)) :=
  eq_ok_of_not_threw (by decide +kernel)

theorem twiceReceived_agree : twiceReceived.taken = [65, 66] ∧ Agree twiceReceived := by
  refine ⟨by decide +kernel, ?_⟩
  refine @two_parties_agree sampleDpdk _ _ _ _ _ (synAck 0) _ [] connect_unconnected ?_ ?_ ?_ ?_
    ?_ ?_
  · decide +kernel
  · decide +kernel
  · decide +kernel
  · decide +kernel
  · refine .tail (.tail (.tail (.tail .refl (.write _ [65, 66])) (.emit _ (segment 1 [65, 66]) ?_))
      (.receive _ _ ?_)) (.receive _ _ ?_)
    · exact ⟨⟨0, by decide +kernel, by decide +kernel, by decide +kernel⟩, by decide +kernel⟩
    · exact List.mem_append_right _ List.mem_cons_self
    · exact List.mem_append_right _ List.mem_cons_self
  · refine ⟨by decide +kernel, by decide +kernel, ?_⟩
    decide +kernel

theorem gap_throws :
    threw (Client.processPacket sampleDpdk (segment 2 [66]) twoWritten.client) = true := by
  obtain ⟨acked, -, -, h⟩ := @throws_iff sampleDpdk _ _ _ _ _ (synAck 0) twoWritten []
    connect_unconnected (by decide +kernel) (by decide +kernel) (by decide +kernel)
    (by decide +kernel) (.single (.write _ [65, 66]))
    ⟨by decide +kernel, by decide +kernel, by decide +kernel⟩ (by decide +kernel)
    (by decide +kernel)
  refine (h (segment 2 [66]) 1 0 ⟨?_, ?_, ?_, ?_, ?_, ?_⟩).mpr (Or.inl ?_)
  all_goals decide +kernel

end System

end WsGateway.Network.Tcp
