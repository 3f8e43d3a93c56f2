import WsGateway.Verify.Tls12.Runs

/-!
# Delivery from TCP to TLS

`tls12::Client::process_packet` pushes the payload of a segment whenever
`tcp::Client::process_packet` returns, and that call returns without a word for a
segment it drops as old. So the bytes by which the stream grows are a prefix of
what the server sent, of the length `ack` tells, exactly in the runs in which
every segment with payload continues the bytes pushed before it.
-/

namespace WsGateway.Network.Tls12

open Library

open Tcp (SeqNumber)

/-- A segment cut from the server's byte stream `D` at some offset. -/
structure Cut (D : List UInt8) (irs : SeqNumber) where
  packet : Tcp.PacketView
  offset : Nat
  seq : packet.header.seq = irs + (1 : UInt32) + UInt32.ofNat offset
  bytes : packet.payload.toList <+: D.drop offset
  valid : packet.isValid = true
  no_rst : Tcp.hasFlag packet.header.flags .RST = false

/-- A segment from the server, or a call of `receive`. -/
inductive Event (D : List UInt8) (irs : SeqNumber) where
  | segment (s : Cut D irs)
  | receive

namespace Client

section Delivery

variable {D : List UInt8} {irs : SeqNumber} (env : Env)

def callOf : Event D irs → Call
  | .segment s => .processPacket s.packet
  | .receive => .receive

/-- The client behind these calls. -/
def delivered (c : Client) (es : List (Event D irs)) : Client :=
  (es.map callOf).foldl (Call.run env) c

/-- None of these calls throws. -/
def Returns (c : Client) (es : List (Event D irs)) : Prop :=
  Along (Call.run env) (fun c call => call.threw env c = false) c (es.map callOf)

/-- The bytes by which the content of the stream has grown. -/
def grownBy (c c' : Client) : List UInt8 := c'.stream.content.drop c.stream.content.length

/-- All bytes that these calls push into the stream. -/
def pushed (c : Client) (es : List (Event D irs)) : List UInt8 :=
  (trail (Call.run env) c (es.map callOf)).flatMap fun x => grownBy x.1 (x.2.run env x.1)

/-- The bytes pushed are the prefix of the server's stream of the length that `ack` tells. -/
def InOrder (D : List UInt8) (irs : SeqNumber) (c : Client) (pushed : List UInt8) : Prop :=
  pushed <+: D ∧ pushed.length = (c.tcp.ack - (irs + (1 : UInt32))).toNat

/-- After `n` bytes the segment has no payload or continues the stream there. -/
def Continues (n : Nat) (s : Cut D irs) : Prop :=
  s.packet.payload.size = 0 ∨
    (n + s.packet.payload.size < 2 ^ 32 ∧ UInt32.ofNat s.offset = UInt32.ofNat n ∧
      s.packet.payload.toList <+: D.drop n)

/-- Every segment continues the payloads of the ones before it. -/
def InStep : Nat → List (Event D irs) → Prop
  | _, [] => True
  | n, .segment s :: es => Continues n s ∧ InStep (n + s.packet.payload.size) es
  | n, .receive :: es => InStep n es

/-- A call of `process_packet` that returns has called TCP and pushed the payload. -/
theorem processPacket_returns {p : Tcp.PacketView} {c c' : Client}
    (h : processPacket env p c = .ok () c') :
    Tcp.Client.processPacket env.dpdk p c.tcp = .ok () c'.tcp ∧
      c'.stream.content = c.stream.content ++ p.payload.toList := by
  obtain ⟨_, c₁, hcall, hrest⟩ := bind_eq_ok h
  obtain ⟨t, htcp, rfl⟩ := zoom_eq_ok hcall
  obtain ⟨_, c₂, hshift, hlast⟩ := bind_eq_ok hrest
  cases hshift
  obtain ⟨s, hpush, rfl⟩ := zoom_eq_ok hlast
  refine ⟨htcp, ?_⟩
  rcases Stream.pushBytes_cases c.stream.shift p.payload with ⟨-, herr⟩ | ⟨s', hok, hcontent, -⟩
  · rw [herr] at hpush; cases hpush
  · rw [hok] at hpush
    cases hpush
    rw [hcontent, Stream.content_shift]

/-- A call of `process_packet` on a connected TCP client that returns. -/
theorem tcp_processPacket_returns {dpdk : Dpdk} {p : Tcp.PacketView} {t t' : Tcp.Client}
    (hconn : t.state = .Connected) (h : Tcp.Client.processPacket dpdk p t = .ok () t') :
    t'.state = .Connected ∧
      ((t'.ack = t.ack ∧ (p.payload.size = 0 ∨ t.Old p)) ∨
        (t'.ack = p.header.seq + UInt32.ofNat p.payload.size ∧ p.payload.size ≠ 0 ∧
          ¬ t.Old p)) := by
  rcases Tcp.Client.processPacket_cases dpdk p t with ⟨hacc, heq⟩ | ⟨hrej, hcase⟩
  · have hdel := Tcp.Client.deliver_delivered dpdk p (t.acked p)
    rw [← heq, h] at hdel
    cases hdel with
    | established scale hstate => simp [hconn] at hstate
    | took hstate hpayload hsends =>
      exact ⟨by simpa [hconn] using hsends.state_eq, Or.inr ⟨hsends.ack_eq, hpayload, hacc.not_old⟩⟩
    | nothing hsyn hdata hsame =>
      have hsame : t' = t.acked p := hsame
      have hsize : p.payload.size = 0 := by simpa [hconn] using hdata
      exact ⟨by simpa [hsame] using hconn, Or.inl ⟨by simp [hsame], Or.inl hsize⟩⟩
  · rw [h] at hcase
    cases hcase with
    | dropped hold => exact ⟨hconn, Or.inl ⟨rfl, Or.inr hold⟩⟩

variable {c c' : Client} {before : List UInt8}

/-- `ack` counts the bytes pushed. -/
theorem inOrder_iff : InOrder D irs c before ↔ before <+: D ∧ before.length < 2 ^ 32 ∧
    c.tcp.ack = irs + (1 : UInt32) + UInt32.ofNat before.length := by
  unfold InOrder
  refine and_congr_right fun _ => ⟨fun h => ?_, fun ⟨hlt, hack⟩ => ?_⟩
  · refine ⟨h ▸ UInt32.toNat_lt _, ?_⟩
    rw [← SeqNumber.sub_eq_iff, h, UInt32.ofNat_toNat]
  · rw [SeqNumber.sub_eq_iff.mpr hack, UInt32.toNat_ofNat_of_lt' hlt]

/-- What continues a prefix is a prefix of the rest. -/
theorem prefix_append_iff {q : List UInt8} (h : before <+: D) :
    before ++ q <+: D ↔ q <+: D.drop before.length := by
  obtain ⟨rest, rfl⟩ := h
  rw [List.prefix_append_right_inj, List.drop_left]

/-- One segment in a run: the bytes stay in order exactly if the segment continues them. -/
theorem inOrder_segment {s : Cut D irs} (hconn : c.tcp.state = .Connected)
    (hc : InOrder D irs c before) (hcall : processPacket env s.packet c = .ok () c') :
    c'.tcp.state = .Connected ∧ grownBy c c' = s.packet.payload.toList ∧
      (InOrder D irs c' (before ++ s.packet.payload.toList) ↔ Continues before.length s) := by
  obtain ⟨htcp, hstream⟩ := processPacket_returns env hcall
  have hgrown : grownBy c c' = s.packet.payload.toList := by
    rw [grownBy, hstream, List.drop_left]
  obtain ⟨hconn', hack⟩ := tcp_processPacket_returns hconn htcp
  obtain ⟨hpre, hlt, hcack⟩ := inOrder_iff.mp hc
  refine ⟨hconn', hgrown, ?_⟩
  have hlen : (before ++ s.packet.payload.toList).length =
      before.length + s.packet.payload.size := by simp
  rw [inOrder_iff, hlen, UInt32.ofNat_add, ← SeqNumber.add_add, ← hcack, prefix_append_iff hpre]
  by_cases hsize : s.packet.payload.size = 0
  · have hnil : s.packet.payload.toList = [] := ByteView.toList_eq_nil hsize
    rcases hack with ⟨hsame, -⟩ | ⟨-, hne, -⟩
    · simpa [Continues, hsize, hnil, hsame] using hlt
    · exact absurd hsize hne
  · unfold Continues
    rw [or_iff_right hsize]
    rcases hack with ⟨hsame, hold⟩ | ⟨hnew, -, -⟩
    · -- An old segment leaves `ack` alone, so neither side holds.
      have hold := hold.resolve_left hsize
      constructor
      · rintro ⟨-, hlt', hmove⟩
        rw [hsame, ← SeqNumber.sub_eq_iff] at hmove
        have hzero : s.packet.payload.size % 2 ^ 32 = 0 := by
          rw [← UInt32.toNat_ofNat', ← hmove]
          exact congrArg UInt32.toNat (UInt32.sub_self c.tcp.ack.value)
        omega
      · rintro ⟨-, hoff, -⟩
        have hseq : s.packet.header.seq = c.tcp.ack := by rw [s.seq, hoff, hcack]
        have hlt := hold.1
        rw [hseq, SeqNumber.cmp_self] at hlt
        cases hlt
    · have hmove : c'.tcp.ack = c.tcp.ack + UInt32.ofNat s.packet.payload.size ↔
          UInt32.ofNat s.offset = UInt32.ofNat before.length := by
        rw [hnew, s.seq, hcack, SeqNumber.add_left_inj, SeqNumber.add_right_inj]
      rw [hmove]
      tauto

theorem inOrder_receive (hconn : c.tcp.state = .Connected) (hc : InOrder D irs c before) :
    (after (receiveOnce env c)).tcp.state = .Connected ∧
      grownBy c (after (receiveOnce env c)) = [] ∧
      InOrder D irs (after (receiveOnce env c)) before := by
  have hupdates := receiveOnce_updates env c
  refine ⟨hupdates.sends.state_eq.trans hconn, ?_, hc.1, ?_⟩
  · exact List.drop_eq_nil_of_le hupdates.suffix.length_le
  · rw [hupdates.sends.ack_eq]
    exact hc.2

@[simp] theorem delivered_nil (c : Client) :
    delivered env c ([] : List (Event D irs)) = c := rfl

@[simp] theorem pushed_nil (c : Client) : pushed env c ([] : List (Event D irs)) = [] := rfl

theorem delivered_cons (c : Client) (e : Event D irs) (es : List (Event D irs)) :
    delivered env c (e :: es) = delivered env ((callOf e).run env c) es := rfl

theorem pushed_cons (c : Client) (e : Event D irs) (es : List (Event D irs)) :
    pushed env c (e :: es) =
      grownBy c ((callOf e).run env c) ++ pushed env ((callOf e).run env c) es := rfl

/-- From a client whose bytes are in order on, they stay in order exactly if the segments continue
one another. -/
theorem inOrder_iff_inStep_from {es : List (Event D irs)} (hreturns : Returns env c es)
    (hconn : c.tcp.state = .Connected) (hc : InOrder D irs c before) :
    (∀ es₁, es₁ <+: es → InOrder D irs (delivered env c es₁) (before ++ pushed env c es₁)) ↔
      InStep before.length es := by
  induction es generalizing c before with
  | nil =>
    refine iff_of_true (fun es₁ hpre => ?_) trivial
    rw [List.prefix_nil.mp hpre]
    simpa using hc
  | cons e es ih =>
    obtain ⟨hcall, hrest⟩ := hreturns
    -- the first call, and every prefix of the rest behind it
    have hfront : (∀ es₁, es₁ <+: e :: es →
          InOrder D irs (delivered env c es₁) (before ++ pushed env c es₁)) ↔
        ∀ es₁, es₁ <+: es → InOrder D irs (delivered env ((callOf e).run env c) es₁)
          (before ++ grownBy c ((callOf e).run env c) ++
            pushed env ((callOf e).run env c) es₁) := by
      constructor
      · intro hall es₁ hpre
        have hone := hall (e :: es₁) (List.cons_prefix_cons.mpr ⟨rfl, hpre⟩)
        rwa [delivered_cons, pushed_cons, ← List.append_assoc] at hone
      · intro hall es₁ hpre
        rcases List.prefix_cons_iff.mp hpre with rfl | ⟨es₂, rfl, htail⟩
        · simpa using hc
        · rw [delivered_cons, pushed_cons, ← List.append_assoc]
          exact hall es₂ htail
    rw [hfront]
    cases e with
    | segment s =>
      have hok := eq_ok_of_not_threw hcall
      obtain ⟨hconn', hgrown, hiff⟩ := inOrder_segment env hconn hc hok
      have hlen : (before ++ s.packet.payload.toList).length =
          before.length + s.packet.payload.size := by simp
      rw [show grownBy c ((callOf (.segment s)).run env c) = s.packet.payload.toList from hgrown]
      by_cases hcont : Continues before.length s
      · have htail := ih hrest hconn' (hiff.mpr hcont)
        rw [htail, hlen]
        exact ⟨fun h => ⟨hcont, h⟩, fun h => h.2⟩
      · refine iff_of_false (fun hall => hcont (hiff.mp ?_)) fun h => hcont h.1
        have hnil := hall [] List.nil_prefix
        rwa [pushed_nil, List.append_nil] at hnil
    | receive =>
      obtain ⟨hconn', hgrown, hc'⟩ := inOrder_receive env hconn hc
      have htail := ih hrest hconn' hc'
      rw [show grownBy c ((callOf (.receive : Event D irs)).run env c) = [] from hgrown,
        List.append_nil]
      exact htail

/-- **Delivery**: take a TLS client whose TCP client has just accepted the SYN-ACK, and calls from
there on of which none throws. After every one of them the bytes pushed into the stream are the
prefix of the server's stream of the length that `ack` tells, exactly if every segment with payload
continues the payloads before it. -/
theorem inOrder_iff_inStep {t : Tcp.Client} {syn : Tcp.PacketView} (ht : t.state = .Connecting)
    (hacc : t.Accepts syn) (hflags : syn.header.flags = .SYN_ACK)
    (hc : c.tcp = t.receiveStep env.dpdk syn) (es : List (Event D syn.header.seq))
    (hreturns : Returns env c es) :
    (∀ es₁, es₁ <+: es →
      InOrder D syn.header.seq (delivered env c es₁) (pushed env c es₁)) ↔ InStep 0 es := by
  obtain ⟨hconn, hack⟩ := Tcp.Client.receiveStep_synAck env.dpdk ht hacc hflags
  rw [← hc] at hconn hack
  have hstart : InOrder D syn.header.seq c [] := by
    rw [inOrder_iff]
    exact ⟨List.nil_prefix, by decide, by rw [hack]; exact (SeqNumber.add_zero _).symm⟩
  exact inOrder_iff_inStep_from env hreturns hconn hstart

end Delivery

/-! ### A retransmission -/

/-- A TLS client whose TCP client has just accepted a SYN-ACK with the number `0`. -/
def freshClient : Client :=
  .init [] (Tcp.Client.connecting.receiveStep sampleDpdk (Tcp.Client.synAck 0))

/-- The first segment of a server that sends the bytes `65, 66`. -/
def firstByte : Cut [65, 66] (Tcp.Client.synAck 0).header.seq where
  packet := Tcp.Client.segment 1 [65]
  offset := 0
  seq := by decide
  bytes := by decide
  valid := by decide
  no_rst := by decide

/-- The segment after it. -/
def secondByte : Cut [65, 66] (Tcp.Client.synAck 0).header.seq where
  packet := Tcp.Client.segment 2 [66]
  offset := 1
  seq := by decide
  bytes := by decide
  valid := by decide
  no_rst := by decide

/-- A server that sends its bytes one by one. -/
theorem inOrder_two_segments :
    InOrder [65, 66] (Tcp.Client.synAck 0).header.seq
      (delivered sampleEnv freshClient [.segment firstByte, .segment secondByte])
      (pushed sampleEnv freshClient [.segment firstByte, .segment secondByte]) := by
  have hstate : Tcp.Client.connecting.state = .Connecting := rfl
  have hacc : Tcp.Client.connecting.Accepts (Tcp.Client.synAck 0) := by decide
  have hreturns : Returns sampleEnv freshClient [.segment firstByte, .segment secondByte] :=
    ⟨by decide, by decide, trivial⟩
  have hstep : InStep 0 [Event.segment firstByte, .segment secondByte] :=
    ⟨Or.inr (by decide), Or.inr (by decide), trivial⟩
  exact (inOrder_iff_inStep sampleEnv hstate hacc (by decide) rfl _ hreturns).mpr hstep _
    List.prefix_rfl

/-- A retransmitted first segment is pushed a second time. -/
theorem retransmission_pushed_twice :
    Returns sampleEnv freshClient [.segment firstByte, .segment firstByte] ∧
      pushed sampleEnv freshClient [.segment firstByte, .segment firstByte] = [65, 65] ∧
      ¬ InOrder [65, 66] (Tcp.Client.synAck 0).header.seq
        (delivered sampleEnv freshClient [.segment firstByte, .segment firstByte])
        (pushed sampleEnv freshClient [.segment firstByte, .segment firstByte]) := by
  have hpushed : pushed sampleEnv freshClient [.segment firstByte, .segment firstByte] =
      [65, 65] := by decide
  refine ⟨⟨by decide, by decide, trivial⟩, hpushed, fun h => ?_⟩
  rw [hpushed] at h
  exact absurd h.1 (by decide)

end Client

end WsGateway.Network.Tls12
