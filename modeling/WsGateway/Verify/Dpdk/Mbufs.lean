import WsGateway.Library.Runs
import WsGateway.Network.Mbufs
import WsGateway.Verify.Dpdk.SendQueue

/-!
# Every mbuf has one owner

An mbuf in use is in a packet, in the send queue, or received and not handed out yet, and in one
of these places only, so that it is freed or sent once; or it is lost, and will not be freed any
more. It is lost if a packet that points to it is assigned to, or if the card refuses it when it
is sent by itself. The destructor of the device also leaves the received mbufs that were not
handed out; its commented-out loop would free those that were handed out as well.
-/

namespace WsGateway.Network.Mbufs

open Library

variable {s : Mbufs}

/-! ## What the calls do -/

section Calls

variable {packet rhs : Nat} {mbuf : Mbuf} {old : Option Mbuf}

theorem getElem?_pointer (h : packet < s.packets.length) :
    s.packets[packet]? = some (s.pointer packet) := by
  rw [pointer, List.getElem?_eq_getElem h]
  rfl

theorem getElem?_of_pointer (h : s.pointer packet = some mbuf) :
    s.packets[packet]? = some (some mbuf) := Option.join_eq_some_iff.mp h

theorem destruct_apply (packet : Nat) (s : Mbufs) :
    destruct packet s = .ok ()
      { s with
        pool := s.pool.giveBackAll (s.pointer packet).toList
        packets := s.packets.eraseIdx packet } := by
  rw [destruct, bind_of_ok (get_apply s)]
  cases s.pointer packet with
  | none => rfl
  | some mbuf => rfl

theorem getSendBuffer_after (answer : Option Mbuf) (s : Mbufs) :
    after (getSendBuffer answer s) =
      { s with
        pool := s.pool.lend answer.toList
        packets := s.packets ++ answer.toList.map some } := by
  cases answer with
  | none =>
    have hpackets : s.packets ++ (none : Option Mbuf).toList.map some = s.packets :=
      List.append_nil _
    rw [hpackets]
    rfl
  | some mbuf => rfl

/-- A packet with an mbuf is empty afterwards, and the parameter is gone, whether the card takes the
mbuf or not. -/
theorem sendPacket_apply (answer : Nat) (h : s.pointer packet = some mbuf) :
    sendPacket packet answer s =
      if answer = 0 then
        .error (.runtimeError "failed to send") { s with packets := s.packets.set packet none }
      else
        .ok () { s with
          pool := s.pool.giveBack mbuf
          packets := s.packets.set packet none } := by
  have hlen : (s.packets.set packet none).length = s.packets.length := List.length_set
  have hmove : moveConstruct packet s =
      .ok () { s with packets := s.packets.set packet none ++ [some mbuf] } := by
    rw [moveConstruct, modify_apply, h]
  have hindex : (s.packets.set packet none ++ [some mbuf]).length - 1 = s.packets.length := by
    rw [List.length_append, hlen, List.length_singleton, Nat.add_sub_cancel]
  have hrelease : release s.packets.length
      { s with packets := s.packets.set packet none ++ [some mbuf] } =
      .ok (some mbuf) { s with packets := s.packets.set packet none ++ [none] } := by
    rw [release, bind_of_ok (get_apply _), bind_of_ok (modify_apply _ _), pointer]
    simp [hlen, List.set_append_right]
  have hdestruct : ∀ pool, destruct s.packets.length
      { s with pool := pool, packets := s.packets.set packet none ++ [none] } =
      .ok () { s with pool := pool, packets := s.packets.set packet none } := by
    intro pool
    rw [destruct_apply, pointer]
    simp [hlen, List.eraseIdx_append_of_length_le, Pool.giveBackAll]
  rw [sendPacket, bind_of_ok hmove, bind_of_ok (get_apply _)]
  dsimp only
  rw [hindex, bind_of_ok hrelease]
  dsimp only
  rw [ethTxBurst, bind_assoc, bind_of_ok (modify_apply _ _), pure_bind, bind_of_ok (hdestruct _)]
  cases answer with
  | zero => rfl
  | succ n =>
    have hone : min (n + 1) [mbuf].length = 1 := Nat.min_eq_right (by simp)
    rw [if_neg (Nat.succ_ne_zero n), hone]
    rfl

/-- How many mbufs of a full burst the card takes. -/
def accepted (answer : Nat) (s : Mbufs) : Nat := min answer (s.sendMbufs.length % 2 ^ 16)

theorem accepted_le (answer : Nat) (s : Mbufs) : s.accepted answer ≤ s.sendMbufs.length :=
  Nat.le_trans (Nat.min_le_right _ _) (Nat.mod_le _ _)

/-- The state after a burst. -/
def flushed (answer : Nat) (s : Mbufs) : Mbufs :=
  { s with
    pool := s.pool.giveBackAll (s.sendMbufs.take (s.accepted answer))
    sendMbufs := s.sendMbufs.drop (s.accepted answer) }

theorem flushSendQueue_apply (answer : Nat) (s : Mbufs) :
    flushSendQueue answer s = .ok () (s.flushed answer) := by
  have hle := accepted_le answer s
  have hcount : min answer (s.sendMbufs.take (s.sendMbufs.length % 2 ^ 16)).length =
      s.accepted answer := by
    rw [List.length_take, Nat.min_eq_left (Nat.mod_le _ _), accepted]
  have htake : (s.sendMbufs.take (s.sendMbufs.length % 2 ^ 16)).take (s.accepted answer) =
      s.sendMbufs.take (s.accepted answer) := by
    rw [List.take_take, Nat.min_eq_left (show s.accepted answer ≤ _ from Nat.min_le_right _ _)]
  have hrest : (if s.accepted answer < s.sendMbufs.length then
      Device.stdCopy s.sendMbufs (s.accepted answer) else s.sendMbufs).take
        (s.sendMbufs.length - s.accepted answer) = s.sendMbufs.drop (s.accepted answer) := by
    split
    · exact Device.take_stdCopy hle
    · have hall : s.accepted answer = s.sendMbufs.length := by omega
      rw [hall, Nat.sub_self, List.take_zero, List.drop_length]
  rw [flushSendQueue, bind_of_ok (get_apply s)]
  by_cases hempty : s.sendMbufs = []
  · rw [if_pos (by simp [hempty]), flushed, hempty]
    obtain ⟨pool, packets, sendMbufs, receiveMbufs, idx⟩ := s
    obtain rfl : sendMbufs = [] := hempty
    simp [Pool.giveBackAll]
  · rw [if_neg (by simp [hempty]), ethTxBurst, bind_assoc, bind_of_ok (modify_apply _ _),
      pure_bind, modify_apply, hcount, htake]
    dsimp only
    rw [hrest]
    rfl

/-- A full queue is flushed first. -/
def madeRoom (answer : Nat) (s : Mbufs) : Mbufs :=
  if s.sendMbufs.length = Device.kSendBurstSize then s.flushed answer else s

theorem enqueueForSend_after (burst : Nat) (answer : Option Mbuf) (s : Mbufs) :
    after (enqueueForSend burst answer s) =
      { s.madeRoom burst with
        pool := (s.madeRoom burst).pool.lend answer.toList
        sendMbufs := (s.madeRoom burst).sendMbufs ++ answer.toList } := by
  have hnil : ∀ queue : List Mbuf, queue ++ (none : Option Mbuf).toList = queue :=
    List.append_nil
  rw [enqueueForSend, bind_of_ok (get_apply s), madeRoom]
  by_cases hfull : s.sendMbufs.length = Device.kSendBurstSize
  · rw [if_pos (by simpa using hfull), if_pos hfull, bind_of_ok (flushSendQueue_apply burst s)]
    cases answer with
    | none =>
      rw [hnil]
      rfl
    | some mbuf => rfl
  · rw [if_neg (by simpa using hfull), if_neg hfull]
    cases answer with
    | none =>
      rw [hnil]
      rfl
    | some mbuf => rfl

/-- The mbufs that a burst stores. -/
def stored (answer : List Mbuf) : List Mbuf := answer.take Receiver.kReceiveBurstSize

/-- The state after a burst was received. -/
def polled (answer : List Mbuf) (s : Mbufs) : Mbufs :=
  { s with
    pool := s.pool.lend (stored answer)
    receiveMbufs := (stored answer).map some
    currentRecieveMbufIdx := 0 }

theorem poll_apply (answer : List Mbuf) (s : Mbufs) : poll answer s = .ok () (s.polled answer) := by
  have hlen : (s.receiveMbufs.take Receiver.kReceiveBurstSize ++ List.replicate
      (Receiver.kReceiveBurstSize - s.receiveMbufs.length) none).length =
        Receiver.kReceiveBurstSize := by
    rw [List.length_append, List.length_take, List.length_replicate]
    omega
  rw [poll, bind_of_ok (modify_apply _ _), ethRxBurst, bind_assoc, bind_of_ok (get_apply _)]
  dsimp only
  rw [hlen, bind_assoc, bind_of_ok (modify_apply _ _), pure_bind, bind_of_ok (modify_apply _ _),
    modify_apply]
  dsimp only
  rw [List.take_left' (List.length_map _)]
  rfl

/-- The state that a packet is handed out from. -/
def ready (answer : List Mbuf) (s : Mbufs) : Mbufs :=
  if s.currentRecieveMbufIdx = s.receiveMbufs.length then s.polled answer else s

/-- The state after the next packet was handed out, if there is one. -/
def handedOut (s : Mbufs) : Mbufs :=
  match s.receiveMbufs.drop s.currentRecieveMbufIdx with
  | [] => s
  | mbuf :: _ =>
    { s with
      packets := s.packets ++ mbuf.toList.map some
      currentRecieveMbufIdx := s.currentRecieveMbufIdx + 1 }

theorem handedOut_cons {rest : List (Option Mbuf)}
    (h : s.receiveMbufs.drop s.currentRecieveMbufIdx = some mbuf :: rest) :
    s.handedOut = { s with
      packets := s.packets ++ [some mbuf]
      currentRecieveMbufIdx := s.currentRecieveMbufIdx + 1 } := by
  rw [handedOut, h]
  rfl

theorem handedOut_nil (h : s.receiveMbufs.drop s.currentRecieveMbufIdx = []) :
    s.handedOut = s := by
  rw [handedOut, h]

theorem handOut_after (s : Mbufs) : after (handOut s) = s.handedOut := by
  rw [handOut, bind_of_ok (get_apply s), handedOut]
  by_cases hlt : s.currentRecieveMbufIdx < s.receiveMbufs.length
  · rw [if_pos hlt, bind_of_ok (modify_apply _ _), List.drop_eq_getElem_cons hlt,
      List.getElem?_eq_getElem hlt, Option.join_some]
    cases s.receiveMbufs[s.currentRecieveMbufIdx] with
    | none =>
      have hnil : s.packets ++ (none : Option Mbuf).toList.map some = s.packets :=
        List.append_nil _
      dsimp only
      rw [hnil]
      rfl
    | some mbuf => rfl
  · rw [if_neg hlt, List.drop_eq_nil_of_le (Nat.le_of_not_lt hlt)]
    rfl

theorem receive_after (answer : List Mbuf) (s : Mbufs) :
    after (receive answer s) = (s.ready answer).handedOut := by
  rw [receive, bind_of_ok (get_apply s), ready]
  by_cases hused : s.currentRecieveMbufIdx = s.receiveMbufs.length
  · rw [if_pos (by simpa using hused), if_pos hused, bind_of_ok (poll_apply answer s),
      handOut_after]
  · rw [if_neg (by simpa using hused), if_neg hused]
    exact handOut_after s

end Calls

/-! ## The account -/

/-- A call, with the answers of DPDK. -/
inductive Call where
  | receive (answer : List Mbuf)
  | getSendBuffer (answer : Option Mbuf)
  | moveConstruct (rhs : Nat)
  | moveAssign (packet rhs : Nat)
  | destruct (packet : Nat)
  | sendPacket (packet answer : Nat)
  | flushSendQueue (answer : Nat)
  | enqueueForSend (burst : Nat) (answer : Option Mbuf)

/-- The state after a call, whether it returns or throws. -/
def Call.run (s : Mbufs) : Call → Mbufs
  | .receive answer => after (Mbufs.receive answer s)
  | .getSendBuffer answer => after (Mbufs.getSendBuffer answer s)
  | .moveConstruct rhs => after (Mbufs.moveConstruct rhs s)
  | .moveAssign packet rhs => after (Mbufs.moveAssign packet rhs s)
  | .destruct packet => after (Mbufs.destruct packet s)
  | .sendPacket packet answer => after (Mbufs.sendPacket packet answer s)
  | .flushSendQueue answer => after (Mbufs.flushSendQueue answer s)
  | .enqueueForSend burst answer => after (Mbufs.enqueueForSend burst answer s)

/-- DPDK lends what is not in use, the packets exist, and one that is sent points to an mbuf. -/
def Call.Allowed (s : Mbufs) : Call → Prop
  | .receive answer =>
    s.currentRecieveMbufIdx = s.receiveMbufs.length → s.pool.Free (stored answer)
  | .getSendBuffer answer => s.pool.Free answer.toList
  | .moveConstruct rhs => rhs < s.packets.length
  | .moveAssign packet rhs => packet < s.packets.length ∧ rhs < s.packets.length
  | .destruct packet => packet < s.packets.length
  | .sendPacket packet _ => s.pointer packet ≠ none
  | .flushSendQueue _ => True
  | .enqueueForSend burst answer => (s.madeRoom burst).pool.Free answer.toList

/-- What nothing points to any more after a call, although it is in use. -/
def Call.losses (s : Mbufs) : Call → List Mbuf
  | .moveAssign packet _ => (s.pointer packet).toList
  | .sendPacket packet answer => if answer = 0 then (s.pointer packet).toList else []
  | _ => []

/-- The mbufs that were received and not handed out. -/
def unread (s : Mbufs) : List Mbuf := (s.receiveMbufs.drop s.currentRecieveMbufIdx).reduceOption

/-- The mbufs that will be freed or sent. -/
def owned (s : Mbufs) : List Mbuf := s.packets.reduceOption ++ (s.sendMbufs ++ s.unread)

/-- The device and its packets, and the mbufs lost so far. -/
structure Account where
  mbufs : Mbufs := {}
  lost : List Mbuf := []

def Account.step (a : Account) (call : Call) : Account where
  mbufs := call.run a.mbufs
  lost := a.lost ++ call.losses a.mbufs

/-- What is in use is owned or lost; the pointers of a burst are to different mbufs. -/
structure Balanced (s : Mbufs) (lost : List Mbuf) : Prop where
  holds : s.pool.Holds (s.owned ++ lost)
  received : ∃ burst : List Mbuf, burst.Nodup ∧ s.receiveMbufs = burst.map some
  idx : s.currentRecieveMbufIdx ≤ s.receiveMbufs.length

namespace Balanced

variable {lost : List Mbuf} {packet rhs : Nat} {mbuf : Mbuf}

theorem start : Balanced {} [] :=
  ⟨Pool.holds_empty, ⟨[], List.nodup_nil, rfl⟩, Nat.le_refl 0⟩

/-- A burst that is taken back from the queue. -/
theorem flushed (h : Balanced s lost) (answer : Nat) : Balanced (s.flushed answer) lost := by
  refine ⟨Pool.Holds.giveBackAll (h.holds.congr ?_), h.received, h.idx⟩
  refine List.perm_iff_count.mpr fun x => ?_
  have hqueue := congrArg (List.count x) (List.take_append_drop (s.accepted answer) s.sendMbufs)
  simp only [owned, unread, Mbufs.flushed, List.count_append] at hqueue ⊢
  omega

theorem madeRoom (h : Balanced s lost) (answer : Nat) : Balanced (s.madeRoom answer) lost := by
  unfold Mbufs.madeRoom
  split
  · exact h.flushed answer
  · exact h

theorem flushSendQueue (h : Balanced s lost) (answer : Nat) :
    Balanced (after (Mbufs.flushSendQueue answer s)) lost := by
  rw [flushSendQueue_apply]
  exact h.flushed answer

theorem enqueueForSend {burst : Nat} {answer : Option Mbuf} (h : Balanced s lost)
    (hfree : (s.madeRoom burst).pool.Free answer.toList) :
    Balanced (after (Mbufs.enqueueForSend burst answer s)) lost := by
  have hroom := h.madeRoom burst
  rw [enqueueForSend_after]
  refine ⟨(hroom.holds.lend hfree).congr ?_, hroom.received, hroom.idx⟩
  refine List.perm_iff_count.mpr fun x => ?_
  simp only [owned, unread, List.count_append]
  omega

theorem getSendBuffer {answer : Option Mbuf} (h : Balanced s lost)
    (hfree : s.pool.Free answer.toList) :
    Balanced (after (Mbufs.getSendBuffer answer s)) lost := by
  rw [getSendBuffer_after]
  refine ⟨(h.holds.lend hfree).congr ?_, h.received, h.idx⟩
  refine List.perm_iff_count.mpr fun x => ?_
  simp only [owned, unread, List.reduceOption_append, reduceOption_map_some, List.count_append]
  omega

/-- A used-up burst is replaced by the next one. -/
theorem polled {answer : List Mbuf} (h : Balanced s lost)
    (hused : s.currentRecieveMbufIdx = s.receiveMbufs.length)
    (hfree : s.pool.Free (stored answer)) : Balanced (s.polled answer) lost := by
  have hunread : s.unread = [] := by
    rw [unread, hused, List.drop_length]
    rfl
  refine ⟨(h.holds.lend hfree).congr ?_, ⟨stored answer, hfree.1, rfl⟩, Nat.zero_le _⟩
  refine List.perm_iff_count.mpr fun x => ?_
  simp only [owned, hunread, List.count_append, List.count_nil]
  simp only [unread, Mbufs.polled, List.drop_zero, reduceOption_map_some]
  omega

theorem ready {answer : List Mbuf} (h : Balanced s lost)
    (hfree : s.currentRecieveMbufIdx = s.receiveMbufs.length → s.pool.Free (stored answer)) :
    Balanced (s.ready answer) lost := by
  unfold Mbufs.ready
  split
  · rename_i hused
    exact h.polled hused (hfree hused)
  · exact h

/-- The next mbuf goes from the burst to a packet. -/
theorem handedOut (h : Balanced s lost) : Balanced s.handedOut lost := by
  unfold Mbufs.handedOut
  split
  · exact h
  · rename_i mbuf rest hdrop
    have hlt : s.currentRecieveMbufIdx < s.receiveMbufs.length := by
      have hlen := congrArg List.length hdrop
      rw [List.length_drop, List.length_cons] at hlen
      omega
    have hrest : s.receiveMbufs.drop (s.currentRecieveMbufIdx + 1) = rest := by
      rw [← List.drop_drop, hdrop, List.drop_one, List.tail_cons]
    refine ⟨h.holds.congr ?_, h.received, hlt⟩
    refine List.perm_iff_count.mpr fun x => ?_
    simp only [owned, unread, hdrop, hrest, reduceOption_cons, List.reduceOption_append,
      reduceOption_map_some, List.count_append]
    omega

theorem receive {answer : List Mbuf} (h : Balanced s lost)
    (hfree : s.currentRecieveMbufIdx = s.receiveMbufs.length → s.pool.Free (stored answer)) :
    Balanced (after (Mbufs.receive answer s)) lost := by
  rw [receive_after]
  exact (h.ready hfree).handedOut

theorem moveConstruct (h : Balanced s lost) (hrhs : rhs < s.packets.length) :
    Balanced (after (Mbufs.moveConstruct rhs s)) lost := by
  refine ⟨h.holds.congr ?_, h.received, h.idx⟩
  have hold : s.packets[rhs]? = some (s.pointer rhs) := getElem?_pointer hrhs
  refine List.perm_iff_count.mpr fun x => ?_
  have hset := (reduceOption_set_perm hold none).count_eq x
  simp only [Mbufs.moveConstruct, modify_apply, after_ok, owned, unread, List.reduceOption_append,
    reduceOption_cons, List.reduceOption_nil, Option.toList_none, List.count_append,
    List.count_nil] at hset ⊢
  omega

/-- What the packet pointed to is lost, also if it is assigned to itself. -/
theorem moveAssign (h : Balanced s lost) (hpacket : packet < s.packets.length)
    (hrhs : rhs < s.packets.length) :
    Balanced (after (Mbufs.moveAssign packet rhs s)) (lost ++ (s.pointer packet).toList) := by
  refine ⟨h.holds.congr ?_, h.received, h.idx⟩
  have hold : s.packets[packet]? = some (s.pointer packet) := getElem?_pointer hpacket
  have hmoved : (s.packets.set packet (s.pointer rhs))[rhs]? = some (s.pointer rhs) := by
    rw [List.getElem?_set]
    split
    · rfl
    · exact getElem?_pointer hrhs
  refine List.perm_iff_count.mpr fun x => ?_
  have hset := (reduceOption_set_perm hold (s.pointer rhs)).count_eq x
  have hnull := (reduceOption_set_perm hmoved none).count_eq x
  simp only [Mbufs.moveAssign, bind_apply, modify_apply, after_ok, owned, unread,
    Option.toList_none, List.count_append, List.count_nil] at hset hnull ⊢
  omega

theorem destruct (h : Balanced s lost) (hpacket : packet < s.packets.length) :
    Balanced (after (Mbufs.destruct packet s)) lost := by
  rw [destruct_apply, after_ok]
  refine ⟨Pool.Holds.giveBackAll (h.holds.congr ?_), h.received, h.idx⟩
  refine List.perm_iff_count.mpr fun x => ?_
  have herase := (reduceOption_eraseIdx_perm (getElem?_pointer hpacket)).count_eq x
  simp only [owned, unread, List.count_append] at herase ⊢
  omega

/-- The card takes the mbuf, or it is lost. -/
theorem sendPacket {answer : Nat} (h : Balanced s lost) (hmbuf : s.pointer packet = some mbuf) :
    Balanced (after (Mbufs.sendPacket packet answer s))
      (lost ++ if answer = 0 then [mbuf] else []) := by
  have hperm : List.Perm (mbuf :: (s.packets.set packet none).reduceOption)
      s.packets.reduceOption := reduceOption_set_perm (getElem?_of_pointer hmbuf) none
  rw [sendPacket_apply answer hmbuf]
  by_cases hrefused : answer = 0
  · rw [if_pos hrefused, if_pos hrefused]
    refine ⟨h.holds.congr ?_, h.received, h.idx⟩
    refine List.perm_iff_count.mpr fun x => ?_
    have hcount := hperm.count_eq x
    simp only [after_error, owned, unread, List.count_append, List.count_cons, List.count_nil]
      at hcount ⊢
    omega
  · rw [if_neg hrefused, if_neg hrefused]
    refine ⟨Pool.Holds.giveBack (h.holds.congr ?_), h.received, h.idx⟩
    refine List.perm_iff_count.mpr fun x => ?_
    have hcount := hperm.count_eq x
    simp only [after_ok, owned, unread, List.count_append, List.count_cons, List.count_nil]
      at hcount ⊢
    omega

/-- **One call** keeps the account, whether it returns or throws. -/
theorem step {a : Account} {call : Call} (h : Balanced a.mbufs a.lost)
    (hallowed : call.Allowed a.mbufs) : Balanced (a.step call).mbufs (a.step call).lost := by
  have hnothing : ∀ {t : Mbufs}, Balanced t a.lost → Balanced t (a.lost ++ []) := by
    intro t ht
    rwa [List.append_nil]
  cases call with
  | receive answer => exact hnothing (h.receive hallowed)
  | getSendBuffer answer => exact hnothing (h.getSendBuffer hallowed)
  | moveConstruct rhs => exact hnothing (h.moveConstruct hallowed)
  | moveAssign packet rhs => exact h.moveAssign hallowed.1 hallowed.2
  | destruct packet => exact hnothing (h.destruct hallowed)
  | sendPacket packet answer =>
    obtain ⟨mbuf, hmbuf⟩ := Option.ne_none_iff_exists'.mp hallowed
    have hlosses : (Call.sendPacket packet answer).losses a.mbufs =
        if answer = 0 then [mbuf] else [] := by
      rw [Call.losses, hmbuf]
      rfl
    rw [Account.step, hlosses]
    exact h.sendPacket hmbuf
  | flushSendQueue answer => exact hnothing (h.flushSendQueue answer)
  | enqueueForSend burst answer => exact hnothing (h.enqueueForSend hallowed)

/-- Calls from the start keep the account. -/
theorem run {calls : List Call}
    (h : Along Account.step (fun a call => call.Allowed a.mbufs) {} calls) :
    Balanced (calls.foldl Account.step {}).mbufs (calls.foldl Account.step {}).lost :=
  Along.invariant (I := fun a : Account => Balanced a.mbufs a.lost)
    (fun _ _ ha hallowed => ha.step hallowed) start h

end Balanced

/-- The calls so far were allowed. -/
def AllAllowed (calls : List Call) : Prop :=
  Along Account.step (fun a call => call.Allowed a.mbufs) {} calls

/-- The device and its packets after calls from the start. -/
def accountOf (calls : List Call) : Account := calls.foldl Account.step {}

/-- **One owner**: in every run in which DPDK lends only what is not in use, nothing is freed or
sent that is not in use, and an mbuf in use is in one packet, once in the send queue or once among
the received ones, or is one of those that an assignment to their packet or a refused burst has
lost. -/
theorem every_mbuf_has_one_owner {calls : List Call} (h : AllAllowed calls) :
    let a := accountOf calls
    a.mbufs.pool.faults = [] ∧ (a.mbufs.owned ++ a.lost).Nodup ∧
      List.Perm (a.mbufs.owned ++ a.lost) a.mbufs.pool.inUse := by
  have hbalanced := Balanced.run h
  exact ⟨hbalanced.holds.faults, hbalanced.holds.nodup, hbalanced.holds.perm⟩

/-- Two packets are received and one is handed out, a packet that is sent is refused, and the
received one is destroyed. -/
def refusedCalls : List Call :=
  [.receive [7, 8], .getSendBuffer (some 9), .sendPacket 1 0, .destruct 0]

theorem refusedCalls_allowed : AllAllowed refusedCalls := by
  refine ⟨fun _ => ⟨by decide, List.disjoint_nil_right _⟩, ⟨List.nodup_singleton 9, ?_⟩,
    Option.some_ne_none 9, Nat.zero_lt_succ 1, trivial⟩
  intro mbuf hmem hin
  obtain rfl : mbuf = 9 := List.mem_singleton.mp hmem
  revert hin
  decide

theorem refused_mbuf_lost :
    (accountOf refusedCalls).lost = [9] ∧
      List.Perm ([8] ++ [9]) (accountOf refusedCalls).mbufs.pool.inUse :=
  ⟨rfl, (every_mbuf_has_one_owner refusedCalls_allowed).2.2⟩

/-! ## The end of the device -/

theorem freeAll_apply (mbufs : List Mbuf) (s : Mbufs) :
    freeAll mbufs s = .ok () { s with pool := s.pool.giveBackAll mbufs } := by
  induction mbufs generalizing s with
  | nil => rfl
  | cons mbuf mbufs ih =>
    rw [freeAll, pktmbufFree, bind_of_ok (modify_apply _ _), ih]
    rfl

/-- The destructor frees the send queue. -/
theorem destructDevice_pool (s : Mbufs) :
    (after (destructDevice s)).pool = s.pool.giveBackAll s.sendMbufs := by
  rw [destructDevice, bind_of_ok (get_apply s), bind_of_ok (freeAll_apply _ _)]
  rfl

/-- Without packets, the received mbufs that were not handed out and the lost ones remain. -/
theorem Balanced.destructDevice {lost : List Mbuf} (h : Balanced s lost)
    (hpackets : s.packets.reduceOption = []) :
    (after (Mbufs.destructDevice s)).pool.Holds (s.unread ++ lost) := by
  rw [destructDevice_pool]
  refine Pool.Holds.giveBackAll (h.holds.congr ?_)
  rw [owned, hpackets, List.nil_append, List.append_assoc]

/-- The mbufs of the last burst that were handed out. -/
def read (s : Mbufs) : List Mbuf := (s.receiveMbufs.take s.currentRecieveMbufIdx).reduceOption

theorem read_append_unread (s : Mbufs) : s.read ++ s.unread = s.receiveMbufs.reduceOption := by
  rw [read, unread, ← List.reduceOption_append, List.take_append_drop]

/-- **The end of the device**, when the packets are gone: the destructor frees nothing wrongly, but
leaves the received mbufs that were not handed out. The loop that is commented out there would free
only what is in use if and only if all those handed out of the last burst have been lost; a loop
from `current_recieve_mbuf_idx` on always does, and leaves nothing but what was lost. -/
theorem freeing_received_mbufs {calls : List Call} (h : AllAllowed calls)
    (hpackets : (accountOf calls).mbufs.packets.reduceOption = []) :
    let a := accountOf calls
    let s := after (destructDevice a.mbufs)
    (s.pool.faults = [] ∧ List.Perm (a.mbufs.unread ++ a.lost) s.pool.inUse) ∧
      ((after (freeAll a.mbufs.receiveMbufs.reduceOption s)).pool.faults = [] ↔
        a.mbufs.read ⊆ a.lost) ∧
      (after (freeAll a.mbufs.unread s)).pool.faults = [] ∧
      List.Perm a.lost (after (freeAll a.mbufs.unread s)).pool.inUse := by
  intro a s
  have hbalanced : Balanced a.mbufs a.lost := Balanced.run h
  have hholds : s.pool.Holds (a.mbufs.unread ++ a.lost) := hbalanced.destructDevice hpackets
  have hrest := hholds.giveBackAll
  rw [freeAll_apply, freeAll_apply, after_ok, after_ok]
  refine ⟨⟨hholds.faults, hholds.perm⟩, ?_, hrest.faults, hrest.perm⟩
  obtain ⟨burst, hnodup, hreceived⟩ := hbalanced.received
  have hsplit : a.mbufs.read ++ a.mbufs.unread = burst := by
    rw [read_append_unread, hreceived, reduceOption_map_some]
  have hdisjoint := List.disjoint_of_nodup_append (hsplit ▸ hnodup)
  rw [← read_append_unread, hholds.giveBackAll_faults_iff (hsplit ▸ hnodup)]
  constructor
  · intro hsub mbuf hread
    rcases List.mem_append.mp (hsub (List.mem_append_left _ hread)) with hunread | hlost
    · exact absurd hunread (hdisjoint hread)
    · exact hlost
  · intro hsub mbuf hmem
    rcases List.mem_append.mp hmem with hread | hunread
    · exact List.mem_append_right _ (hsub hread)
    · exact List.mem_append_left _ hunread

/-! ## Runs that lose nothing -/

/-- The call throws. -/
def Call.throws (s : Mbufs) : Call → Bool
  | .receive answer => threw (Mbufs.receive answer s)
  | .getSendBuffer answer => threw (Mbufs.getSendBuffer answer s)
  | .moveConstruct rhs => threw (Mbufs.moveConstruct rhs s)
  | .moveAssign packet rhs => threw (Mbufs.moveAssign packet rhs s)
  | .destruct packet => threw (Mbufs.destruct packet s)
  | .sendPacket packet answer => threw (Mbufs.sendPacket packet answer s)
  | .flushSendQueue answer => threw (Mbufs.flushSendQueue answer s)
  | .enqueueForSend burst answer => threw (Mbufs.enqueueForSend burst answer s)

/-- An allowed call that does not throw and does not assign to a packet with an mbuf. -/
structure Call.Quiet (s : Mbufs) (call : Call) : Prop where
  allowed : call.Allowed s
  returns : call.throws s = false
  kept : ∀ packet rhs, call = .moveAssign packet rhs → s.pointer packet = none

/-- An mbuf that is lost otherwise is lost with an exception. -/
theorem Call.Quiet.losses_eq_nil {call : Call} (h : call.Quiet s) : call.losses s = [] := by
  cases call with
  | moveAssign packet rhs =>
    rw [Call.losses, h.kept packet rhs rfl]
    rfl
  | sendPacket packet answer =>
    obtain ⟨mbuf, hmbuf⟩ := Option.ne_none_iff_exists'.mp h.allowed
    have hreturns : threw (Mbufs.sendPacket packet answer s) = false := h.returns
    rw [sendPacket_apply answer hmbuf] at hreturns
    by_cases hrefused : answer = 0
    · rw [if_pos hrefused] at hreturns
      cases hreturns
    · exact if_neg hrefused
  | _ => rfl

theorem Balanced.quiet_run {calls : List Call}
    (h : Along Account.step (fun a call => call.Quiet a.mbufs) {} calls) :
    Balanced (accountOf calls).mbufs (accountOf calls).lost ∧ (accountOf calls).lost = [] := by
  refine Along.invariant (I := fun a : Account => Balanced a.mbufs a.lost ∧ a.lost = []) ?_
    ⟨Balanced.start, rfl⟩ h
  rintro a call ⟨hbalanced, hlost⟩ hquiet
  refine ⟨hbalanced.step hquiet.allowed, ?_⟩
  change a.lost ++ call.losses a.mbufs = []
  rw [hlost, hquiet.losses_eq_nil, List.append_nil]

/-- **No leak without an exception**: if no call throws and no packet that points to an mbuf is
assigned to, the packets are gone and the last burst is handed out, then DPDK has everything back
after the destructor of the device, and nothing was given back twice. -/
theorem everything_given_back {calls : List Call}
    (h : Along Account.step (fun a call => call.Quiet a.mbufs) {} calls)
    (hpackets : (accountOf calls).mbufs.packets.reduceOption = [])
    (hunread : (accountOf calls).mbufs.unread = []) :
    (after (destructDevice (accountOf calls).mbufs)).pool = {} := by
  obtain ⟨hbalanced, hlost⟩ := Balanced.quiet_run h
  have hholds := hbalanced.destructDevice hpackets
  rw [hunread, hlost] at hholds
  obtain ⟨hperm, -, hfaults⟩ := hholds
  have hinUse := hperm.nil_eq
  cases hpool : (after (destructDevice (accountOf calls).mbufs)).pool with
  | mk inUse faults =>
    rw [hpool] at hinUse hfaults
    subst hinUse hfaults
    rfl

/-- A packet is received and destroyed, another is sent, and a third is queued. -/
def quietCalls : List Call :=
  [.receive [7], .destruct 0, .getSendBuffer (some 7), .sendPacket 0 1, .enqueueForSend 0 (some 7)]

theorem quietCalls_given_back :
    (after (destructDevice (accountOf quietCalls).mbufs)).pool = {} := by
  have hfree : ∀ p : Pool Mbuf, p.inUse = [] → p.Free [7] := by
    intro p hnone
    refine ⟨List.nodup_singleton 7, ?_⟩
    rw [hnone]
    exact List.disjoint_nil_right _
  refine everything_given_back ⟨⟨fun _ => hfree _ rfl, rfl, ?_⟩, ⟨Nat.zero_lt_one, rfl, ?_⟩,
    ⟨hfree _ rfl, rfl, ?_⟩, ⟨Option.some_ne_none 7, rfl, ?_⟩, ⟨hfree _ rfl, rfl, ?_⟩, trivial⟩
    rfl rfl
  all_goals
    intro packet rhs h
    cases h

/-- Two packets are received, and one is handed out and destroyed. -/
def destroyedCalls : List Call := [.receive [7, 8], .destruct 0]

theorem destroyedCalls_allowed : AllAllowed destroyedCalls :=
  ⟨fun _ => ⟨by decide, List.disjoint_nil_right _⟩, Nat.zero_lt_one, trivial⟩

theorem loop_frees_twice :
    let s := after (destructDevice (accountOf destroyedCalls).mbufs)
    (after (freeAll [7, 8] s)).pool.faults ≠ [] ∧ (after (freeAll [8] s)).pool.faults = [] := by
  have hend := freeing_received_mbufs destroyedCalls_allowed rfl
  refine ⟨fun hnone => ?_, hend.2.2.1⟩
  have hread : (accountOf destroyedCalls).mbufs.read ⊆ [] := hend.2.1.mp hnone
  exact absurd (hread (List.mem_singleton.mpr rfl)) List.not_mem_nil

end WsGateway.Network.Mbufs
