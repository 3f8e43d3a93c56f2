import WsGateway.Library.Batches
import WsGateway.Library.Throwing
import WsGateway.Network.Receive

/-!
# The receive queue of the device

`receive` is called in a loop and hands out one packet a call; the card is asked for the
next burst only when the last one is used up. So the calls read the bursts as
`Library.reading` does: every packet of every burst is handed out once, in order, and each
empty burst is answered once with nothing. The resizes around the burst leave no null
pointer behind, so the check in `RxPacket`'s constructor never fails.
-/

namespace WsGateway.Network.Receiver

open Library

variable {card : RxCard} {r r' : Receiver} {packets : List ByteView} {packet : ByteView}

/-- The packets that the card stores at the `k`-th burst. -/
def burst (card : RxCard) (k : Nat) : List ByteView :=
  (card.ethRxBurst k).take kReceiveBurstSize

/-- These packets of the last burst are still to be handed out. -/
structure Pending (packets : List ByteView) (r : Receiver) : Prop where
  idx : r.currentRecieveMbufIdx ≤ r.receiveMbufs.length
  rest : r.receiveMbufs.drop r.currentRecieveMbufIdx = packets.map some

theorem pending_empty : Pending [] {} := ⟨Nat.le_refl 0, rfl⟩

/-- The receiver after a burst, when `i` of its packets are handed out. -/
def polled (card : RxCard) (r : Receiver) (i : Nat) : Receiver where
  receiveMbufs := (burst card r.bursts).map some
  currentRecieveMbufIdx := i
  lastReceiveTimePoint := card.now r.bursts
  bursts := r.bursts + 1

@[simp] theorem bursts_polled (card : RxCard) (r : Receiver) (i : Nat) :
    (polled card r i).bursts = r.bursts + 1 := rfl

/-! ## One call -/

@[simp] theorem length_resize (mbufs : List (Option ByteView)) (size : Nat) :
    (resize mbufs size).length = size := by
  simp only [resize, List.length_append, List.length_take, List.length_replicate]
  omega

/-- The resize to the number of stored packets cuts off what stands behind them. -/
theorem resize_stored (packets : List ByteView) (mbufs : List (Option ByteView)) :
    resize (packets.map some ++ mbufs) packets.length = packets.map some := by
  have hlen : (packets.map some).length = packets.length := List.length_map ..
  rw [resize, List.take_left' hlen, List.length_append, hlen, Nat.sub_eq_zero_of_le (by omega),
    List.replicate_zero, List.append_nil]

theorem Pending.idx_eq (h : Pending [] r) : r.currentRecieveMbufIdx = r.receiveMbufs.length := by
  have hle := List.drop_eq_nil_iff.mp h.rest
  have hidx := h.idx
  omega

theorem Pending.idx_lt (h : Pending (packet :: packets) r) :
    r.currentRecieveMbufIdx < r.receiveMbufs.length := by
  have hlen := congrArg List.length h.rest
  simp at hlen
  omega

theorem Pending.head (h : Pending (packet :: packets) r) :
    r.receiveMbufs[r.currentRecieveMbufIdx]? = some (some packet) := by
  have hget := congrArg (fun mbufs => mbufs[0]?) h.rest
  simpa using hget

theorem Pending.tail (h : Pending (packet :: packets) r) :
    Pending packets { r with currentRecieveMbufIdx := r.currentRecieveMbufIdx + 1 } := by
  refine ⟨h.idx_lt, ?_⟩
  change r.receiveMbufs.drop (r.currentRecieveMbufIdx + 1) = packets.map some
  rw [← List.drop_drop, h.rest, List.map_cons, List.drop_succ_cons, List.drop_zero]

theorem handOut_pending (h : Pending (packet :: packets) r) :
    handOut r = .ok (some packet)
      { r with currentRecieveMbufIdx := r.currentRecieveMbufIdx + 1 } := by
  have hjoin : (r.receiveMbufs[r.currentRecieveMbufIdx]?).join = some packet := by
    rw [h.head, Option.join_some]
  rw [handOut, bind_of_ok (get_apply r), if_pos h.idx_lt, bind_of_ok (modify_apply _ r), hjoin]
  rfl

theorem handOut_empty (h : Pending [] r) : handOut r = .ok none r := by
  rw [handOut, bind_of_ok (get_apply r), if_neg (by rw [h.idx_eq]; exact Nat.lt_irrefl _)]
  rfl

theorem poll_apply (card : RxCard) (r : Receiver) : poll card r = .ok () (polled card r 0) := by
  have hstored : (card.ethRxBurst r.bursts).take (resize r.receiveMbufs kReceiveBurstSize).length =
      burst card r.bursts := by rw [length_resize, burst]
  simp only [poll, ethRxBurst, bind_apply, get_apply, modify_apply, pure_apply, hstored,
    resize_stored, polled]

theorem pending_polled (hburst : burst card r.bursts = packets) :
    Pending packets (polled card r 0) := by
  refine ⟨Nat.zero_le _, ?_⟩
  simp [polled, hburst]

/-- A packet in hand is handed out. -/
theorem receive_pending (h : Pending (packet :: packets) r) :
    receive card r = .ok (some packet)
      { r with currentRecieveMbufIdx := r.currentRecieveMbufIdx + 1 } := by
  have hne : ¬ (r.currentRecieveMbufIdx == r.receiveMbufs.length) = true := by
    simpa using Nat.ne_of_lt h.idx_lt
  rw [receive, bind_of_ok (get_apply r), if_neg hne]
  exact handOut_pending h

/-- With none in hand the card is asked for a burst. -/
theorem receive_fetch (h : Pending [] r) : receive card r = handOut (polled card r 0) := by
  rw [receive, bind_of_ok (get_apply r), if_pos (by simpa using h.idx_eq),
    bind_of_ok (poll_apply card r)]

/-- The three things a call can do. -/
theorem receive_cases (card : RxCard) (h : Pending packets r) :
    (∃ packet rest, packets = packet :: rest ∧
      receive card r = .ok (some packet)
        { r with currentRecieveMbufIdx := r.currentRecieveMbufIdx + 1 } ∧
      Pending rest { r with currentRecieveMbufIdx := r.currentRecieveMbufIdx + 1 }) ∨
    (∃ packet rest, packets = [] ∧ burst card r.bursts = packet :: rest ∧
      receive card r = .ok (some packet) (polled card r 1) ∧ Pending rest (polled card r 1)) ∨
    (packets = [] ∧ burst card r.bursts = [] ∧
      receive card r = .ok none (polled card r 0) ∧ Pending [] (polled card r 0)) := by
  cases packets with
  | cons packet rest => exact Or.inl ⟨packet, rest, rfl, receive_pending h, h.tail⟩
  | nil =>
    have hfetch : receive card r = handOut (polled card r 0) := receive_fetch h
    cases hburst : burst card r.bursts with
    | cons packet rest =>
      have hpending := pending_polled hburst
      exact Or.inr (Or.inl ⟨packet, rest, rfl, rfl, hfetch.trans (handOut_pending hpending),
        hpending.tail⟩)
    | nil =>
      have hpending := pending_polled hburst
      exact Or.inr (Or.inr ⟨rfl, rfl, hfetch.trans (handOut_empty hpending), hpending⟩)

/-! ## A run of calls -/

/-- A call, and the time read after it. -/
def receiveAt (card : RxCard) : Prog Receiver (Option ByteView × Int) := do
  let packet ← receive card
  let time ← getLastReceiveTimePoint
  return (packet, time)

/-- `n` calls, one after the other. -/
def receiveTimes (card : RxCard) : Nat → Prog Receiver (List (Option ByteView × Int))
  | 0 => return []
  | n + 1 => do
    let answer ← receiveAt card
    return answer :: (← receiveTimes card n)

/-- What the calls say about the `k`-th burst, and when it was received. -/
def stamped (card : RxCard) (k : Nat) : List (Option ByteView × Int) :=
  (told (burst card k)).map fun packet => (packet, card.now k)

theorem stamped_ne_nil (card : RxCard) (k : Nat) : stamped card k ≠ [] := by
  simp [stamped, told_ne_nil]

/-- The packets in hand as the calls will answer them. -/
def inHand (card : RxCard) (r : Receiver) (packets : List ByteView) :
    List (Option ByteView × Int) :=
  packets.map fun packet => (some packet, card.now (r.bursts - 1))

/-- What the next calls answer. -/
def upcoming (card : RxCard) (r : Receiver) (packets : List ByteView) (n : Nat) :
    List (Option ByteView × Int) :=
  reading (stamped card) (inHand card r packets) r.bursts n

/-- These packets are in hand, and the time is that of their burst. -/
structure InHand (card : RxCard) (packets : List ByteView) (r : Receiver) : Prop where
  pending : Pending packets r
  time : packets ≠ [] → r.lastReceiveTimePoint = card.now (r.bursts - 1)

theorem inHand_empty (card : RxCard) : InHand card [] {} :=
  ⟨pending_empty, fun h => absurd rfl h⟩

/-- The answers of the bursts so far: those given, and those in hand. -/
def Told (card : RxCard) (answers : List (Option ByteView × Int)) (packets : List ByteView)
    (r : Receiver) : Prop :=
  (List.range r.bursts).flatMap (stamped card) = answers ++ inHand card r packets

theorem receiveAt_of_receive {answer : Option ByteView} (hreceive : receive card r = .ok answer r')
    (htime : r'.lastReceiveTimePoint ≠ 0) :
    receiveAt card r = .ok (answer, r'.lastReceiveTimePoint) r' := by
  have hread : getLastReceiveTimePoint r' = .ok r'.lastReceiveTimePoint r' := by
    have hne : (r'.lastReceiveTimePoint != 0) = true := by simpa using htime
    rw [getLastReceiveTimePoint, bind_of_ok (get_apply r'), hne]
    rfl
  rw [receiveAt, bind_of_ok hreceive, bind_of_ok hread]
  rfl

/-- One call gives the first of the upcoming answers. -/
theorem receiveAt_step (hnow : ∀ k, card.now k ≠ 0) (h : InHand card packets r) :
    ∃ answer r' packets', receiveAt card r = .ok answer r' ∧ InHand card packets' r' ∧
      (∀ n, upcoming card r packets (n + 1) = answer :: upcoming card r' packets' n) ∧
      ∀ answers, Told card answers packets r → Told card (answers ++ [answer]) packets' r' := by
  have hne : ∀ k, stamped card k ≠ [] := stamped_ne_nil card
  rcases receive_cases card h.pending with ⟨packet, rest, rfl, hreceive, hrest⟩ |
    ⟨packet, rest, rfl, hburst, hreceive, hrest⟩ | ⟨rfl, hburst, hreceive, hrest⟩
  · have htime := h.time (List.cons_ne_nil _ _)
    refine ⟨_, _, rest, receiveAt_of_receive hreceive ?_, ⟨hrest, fun _ => htime⟩, ?_, ?_⟩
    · change r.lastReceiveTimePoint ≠ 0
      rw [htime]
      exact hnow _
    · intro n
      rw [upcoming, inHand, List.map_cons, reading_cons hne]
      exact congrArg (fun time => (some packet, time) :: upcoming card r rest n) htime.symm
    · intro answers htold
      rw [Told, inHand, List.map_cons] at htold
      rw [Told, List.append_assoc]
      simpa only [List.singleton_append, inHand, htime] using htold
  · have hstamped : stamped card r.bursts = (some packet, card.now r.bursts) ::
        rest.map fun packet => (some packet, card.now r.bursts) := by
      simp [stamped, hburst]
    refine ⟨_, _, rest, receiveAt_of_receive hreceive (hnow r.bursts), ⟨hrest, fun _ => rfl⟩, ?_, ?_⟩
    · intro n
      rw [upcoming, inHand, List.map_nil, reading_fetch hstamped]
      rfl
    · intro answers htold
      rw [Told, inHand, List.map_nil, List.append_nil] at htold
      rw [Told, polled, List.range_succ, List.flatMap_append, htold, List.flatMap_singleton,
        hstamped, List.append_assoc]
      rfl
  · have hstamped : stamped card r.bursts = [(none, card.now r.bursts)] := by
      simp [stamped, hburst]
    refine ⟨_, _, [], receiveAt_of_receive hreceive (hnow r.bursts),
      ⟨hrest, fun hempty => absurd rfl hempty⟩, ?_, ?_⟩
    · intro n
      rw [upcoming, inHand, List.map_nil, reading_fetch hstamped]
      rfl
    · intro answers htold
      rw [Told, inHand, List.map_nil, List.append_nil] at htold
      rw [Told, polled, List.range_succ, List.flatMap_append, htold, List.flatMap_singleton,
        hstamped, List.append_assoc]
      rfl

theorem receiveTimes_run (hnow : ∀ k, card.now k ≠ 0) (n : Nat) (h : InHand card packets r) :
    ∃ r' packets', receiveTimes card n r = .ok (upcoming card r packets n) r' ∧
      InHand card packets' r' ∧ ∀ answers, Told card answers packets r →
        Told card (answers ++ upcoming card r packets n) packets' r' := by
  induction n generalizing r packets with
  | zero =>
    refine ⟨r, packets, ?_, h, fun answers htold => ?_⟩
    · rw [upcoming, reading_zero]
      rfl
    · rw [upcoming, reading_zero, List.append_nil]
      exact htold
  | succ n ih =>
    obtain ⟨answer, r₁, packets₁, hcall, h₁, hupcoming, htold₁⟩ := receiveAt_step hnow h
    obtain ⟨r', packets', hrun, h', htold'⟩ := ih h₁
    refine ⟨r', packets', ?_, h', fun answers htold => ?_⟩
    · rw [receiveTimes, bind_of_ok hcall, bind_of_ok hrun, hupcoming]
      rfl
    · rw [hupcoming, List.append_cons]
      exact htold' _ (htold₁ answers htold)

/-- **Receiving**: calls from the start never throw and answer with the packets of the bursts, each
once and in order, each empty burst once with nothing, and each with the time of its burst; no burst
is asked for before the last one is used up. -/
theorem receives_bursts_in_order (card : RxCard) (hnow : ∀ k, card.now k ≠ 0) (n : Nat) :
    ∃ r' packets, receiveTimes card n {} =
        .ok (((List.range n).flatMap (stamped card)).take n) r' ∧ Pending packets r' ∧
      (List.range r'.bursts).flatMap (stamped card) =
        ((List.range n).flatMap (stamped card)).take n ++
          packets.map fun packet => (some packet, card.now (r'.bursts - 1)) := by
  obtain ⟨r', packets, hrun, hpending, htold⟩ := receiveTimes_run hnow n (inHand_empty card)
  have hupcoming : upcoming card {} [] n = ((List.range n).flatMap (stamped card)).take n := by
    rw [upcoming, reading, List.range_eq_range']
    rfl
  rw [hupcoming] at hrun htold
  exact ⟨r', packets, hrun, hpending.pending, htold [] rfl⟩

/-- A card with two packets at the first burst and none after it. -/
def twoPackets (packet : ByteView) : RxCard where
  ethRxBurst k := if k = 0 then [packet, packet] else []
  now k := 1 + k

theorem twoPackets_now (packet : ByteView) (k : Nat) : (twoPackets packet).now k ≠ 0 := by
  simp only [twoPackets]
  omega

theorem receives_two_packets :
    let packet : ByteView := ⟨fun _ => 0, 0, 60⟩
    ∃ r', receiveTimes (twoPackets packet) 4 {} =
      .ok [(some packet, 1), (some packet, 1), (none, 2), (none, 3)] r' := by
  intro packet
  obtain ⟨r', -, hrun, -⟩ := receives_bursts_in_order (twoPackets packet) (twoPackets_now packet) 4
  exact ⟨r', hrun⟩

/-! ## Clearing the queue -/

/-- The first empty burst comes after `k` others. -/
def EmptyAfter (card : RxCard) (r : Receiver) (k : Nat) : Prop :=
  burst card (r.bursts + k) = [] ∧ ∀ j, j < k → burst card (r.bursts + j) ≠ []

/-- The packets of the next `k` bursts. -/
def nextBursts (card : RxCard) (r : Receiver) (k : Nat) : List ByteView :=
  (List.range' r.bursts k).flatMap (burst card)

theorem clearLoop_succ_some {fuel counter : Nat} (h : receive card r = .ok (some packet) r') :
    clearLoop card (fuel + 1) counter r = clearLoop card fuel (counter + 1) r' := by
  rw [clearLoop, bind_of_ok h]
  rfl

theorem clearLoop_succ_none {fuel counter : Nat} (h : receive card r = .ok none r') :
    clearLoop card (fuel + 1) counter r = .ok counter r' := by
  rw [clearLoop, bind_of_ok h]
  rfl

/-- A round for every packet up to the first empty burst, and one for that burst. -/
theorem clearLoop_run {k : Nat} (fuel counter : Nat) (h : Pending packets r)
    (hempty : EmptyAfter card r k)
    (hfuel : (packets ++ nextBursts card r k).length < fuel) :
    ∃ r', clearLoop card fuel counter r =
        .ok (counter + (packets ++ nextBursts card r k).length) r' ∧
      r'.bursts = r.bursts + k + 1 ∧ Pending [] r' := by
  induction fuel generalizing r packets k counter with
  | zero => exact absurd hfuel (Nat.not_lt_zero _)
  | succ fuel ih =>
    rcases receive_cases card h with ⟨packet, rest, rfl, hreceive, hrest⟩ |
      ⟨packet, rest, rfl, hburst, hreceive, hrest⟩ | ⟨rfl, hburst, hreceive, hrest⟩
    · rw [List.cons_append, List.length_cons] at hfuel
      obtain ⟨r', hrun, hbursts, hpending⟩ :=
        ih (counter + 1) hrest hempty (Nat.lt_of_succ_lt_succ hfuel)
      refine ⟨r', ?_, hbursts, hpending⟩
      rw [clearLoop_succ_some hreceive, hrun, List.cons_append, List.length_cons,
        Nat.add_assoc, Nat.add_comm 1]
      rfl
    · cases k with
      | zero =>
        have hnil : burst card r.bursts = [] := hempty.1
        rw [hnil] at hburst
        cases hburst
      | succ k =>
        have hnext : nextBursts card r (k + 1) =
            packet :: (rest ++ nextBursts card (polled card r 1) k) := by
          rw [nextBursts, List.range'_succ, List.flatMap_cons, hburst]
          rfl
        have hempty' : EmptyAfter card (polled card r 1) k := by
          have hshift : ∀ j, (polled card r 1).bursts + j = r.bursts + (j + 1) := by
            intro j
            rw [bursts_polled]
            omega
          refine ⟨?_, fun j hj => ?_⟩
          · rw [hshift]
            exact hempty.1
          · rw [hshift]
            exact hempty.2 (j + 1) (Nat.succ_lt_succ hj)
        rw [List.nil_append, hnext, List.length_cons] at hfuel
        obtain ⟨r', hrun, hbursts, hpending⟩ :=
          ih (counter + 1) hrest hempty' (Nat.lt_of_succ_lt_succ hfuel)
        refine ⟨r', ?_, ?_, hpending⟩
        · rw [clearLoop_succ_some hreceive, hrun, List.nil_append, hnext, List.length_cons,
            Nat.add_assoc, Nat.add_comm 1]
        · rw [hbursts, bursts_polled]
          omega
    · cases k with
      | zero =>
        exact ⟨_, clearLoop_succ_none hreceive, rfl, hrest⟩
      | succ k => exact absurd hburst (hempty.2 0 (Nat.succ_pos k))

/-- While no burst is empty the loop goes on. -/
theorem clearLoop_diverges (fuel counter : Nat) (h : Pending packets r)
    (hfull : ∀ k, r.bursts ≤ k → burst card k ≠ []) :
    ∃ r', clearLoop card fuel counter r = .error .diverges r' := by
  induction fuel generalizing r packets counter with
  | zero => exact ⟨r, rfl⟩
  | succ fuel ih =>
    rcases receive_cases card h with ⟨packet, rest, rfl, hreceive, hrest⟩ |
      ⟨packet, rest, rfl, hburst, hreceive, hrest⟩ | ⟨rfl, hburst, hreceive, hrest⟩
    · rw [clearLoop_succ_some hreceive]
      exact ih (counter + 1) hrest hfull
    · rw [clearLoop_succ_some hreceive]
      exact ih (counter + 1) hrest fun k hk => hfull k (Nat.le_of_succ_le hk)
    · exact absurd hburst (hfull _ (Nat.le_refl _))

/-- If some burst is empty, one is the first. -/
theorem exists_emptyAfter {k : Nat} (hk : r.bursts ≤ k) (h : burst card k = []) :
    ∃ j, EmptyAfter card r j := by
  have hexists : ∃ j, burst card (r.bursts + j) = [] := ⟨k - r.bursts, by
    rw [Nat.add_sub_cancel' hk]
    exact h⟩
  classical
  exact ⟨Nat.find hexists, Nat.find_spec hexists, fun j hj => Nat.find_min hexists hj⟩

/-- Clearing ends with the first empty burst. -/
theorem clearReceiveQueue_run {k fuel : Nat} (h : Pending packets r) (hempty : EmptyAfter card r k)
    (hfuel : (packets ++ nextBursts card r k).length < fuel) :
    ∃ r', clearReceiveQueue card fuel r = .ok (packets ++ nextBursts card r k).length r' ∧
      r'.bursts = r.bursts + k + 1 ∧ Pending [] r' := by
  have hrun := clearLoop_run fuel 0 h hempty hfuel
  rwa [Nat.zero_add] at hrun

/-- **Clearing**: `clear_receive_queue` returns if and only if the card has a burst without packets;
it then has thrown away, and counted, what was in hand and the packets of the bursts before the
first empty one, and nothing else. -/
theorem clearReceiveQueue_returns_iff (card : RxCard) (h : Pending packets r) :
    ((∃ fuel n r', clearReceiveQueue card fuel r = .ok n r') ↔
      ∃ k, r.bursts ≤ k ∧ burst card k = []) ∧
    ∀ k, EmptyAfter card r k → ∀ fuel, (packets ++ nextBursts card r k).length < fuel →
      ∃ r', clearReceiveQueue card fuel r = .ok (packets ++ nextBursts card r k).length r' ∧
        r'.bursts = r.bursts + k + 1 ∧ Pending [] r' := by
  refine ⟨⟨?_, ?_⟩, fun k hempty fuel hfuel => clearReceiveQueue_run h hempty hfuel⟩
  · rintro ⟨fuel, n, r', hrun⟩
    by_contra hnone
    push Not at hnone
    obtain ⟨t, hdiverges⟩ := clearLoop_diverges fuel 0 h hnone
    rw [clearReceiveQueue, hdiverges] at hrun
    cases hrun
  · rintro ⟨k, hk, hburst⟩
    obtain ⟨j, hempty⟩ := exists_emptyAfter hk hburst
    obtain ⟨r', hrun, -⟩ := clearReceiveQueue_run h hempty (Nat.lt_succ_self _)
    exact ⟨_, _, r', hrun⟩

theorem clears_two_packets :
    let packet : ByteView := ⟨fun _ => 0, 0, 60⟩
    ∃ r', clearReceiveQueue (twoPackets packet) 3 {} = .ok 2 r' ∧ r'.bursts = 2 := by
  intro packet
  have hempty : EmptyAfter (twoPackets packet) {} 1 := by
    refine ⟨rfl, fun j hj => ?_⟩
    obtain rfl : j = 0 := by omega
    exact List.cons_ne_nil _ _
  obtain ⟨r', hrun, hbursts, -⟩ :=
    (clearReceiveQueue_returns_iff (twoPackets packet) pending_empty).2 1 hempty 3 (by decide)
  exact ⟨r', hrun, hbursts⟩

end WsGateway.Network.Receiver
