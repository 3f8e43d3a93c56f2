import WsGateway.Verify.Dpdk.Mbufs
import WsGateway.Verify.Dpdk.Receive
import WsGateway.Verify.Dpdk.SendQueue

/-!
# What is in the mbufs

The device keeps pointers, and what they lead to can change: the card stores packets in mbufs, and
the program writes to those it has in packets and to the one it queued last. `Receiver` and
`Device` have the packets themselves where the device has the pointers. They may, because every
mbuf has one owner: no store reaches an mbuf that waits to be sent or to be handed out, except the
last of the queue through its own view.
-/

namespace WsGateway.Network.Mbufs

open Library

/-! ## Stores -/

section Store

variable {bytes : Mbuf → ByteView} {mbufs : List Mbuf} {packets : List ByteView} {mbuf : Mbuf}
  {packet : ByteView}

/-- The contents of the mbufs after the card has stored packets in some of them. -/
def store (bytes : Mbuf → ByteView) : List Mbuf → List ByteView → Mbuf → ByteView
  | [], _ => bytes
  | _ :: _, [] => bytes
  | mbuf :: mbufs, packet :: packets => Function.update (store bytes mbufs packets) mbuf packet

theorem store_of_notMem (h : mbuf ∉ mbufs) : store bytes mbufs packets mbuf = bytes mbuf := by
  induction mbufs generalizing packets with
  | nil => rfl
  | cons first mbufs ih =>
    cases packets with
    | nil => rfl
    | cons packet packets =>
      rw [store, Function.update_of_ne (List.ne_of_not_mem_cons h),
        ih (List.not_mem_of_not_mem_cons h)]

/-- The other mbufs are as they were. -/
theorem map_update_of_notMem (h : mbuf ∉ mbufs) :
    mbufs.map (Function.update bytes mbuf packet) = mbufs.map bytes := by
  refine List.map_congr_left ?_
  intro other hmem
  refine Function.update_of_ne ?_ _ _
  rintro rfl
  exact h hmem

/-- Every packet is in its mbuf. -/
theorem map_store (hnodup : mbufs.Nodup) (hlen : mbufs.length = packets.length) :
    mbufs.map (store bytes mbufs packets) = packets := by
  induction mbufs generalizing packets with
  | nil => exact (List.length_eq_zero_iff.mp hlen.symm).symm
  | cons mbuf mbufs ih =>
    obtain ⟨hnew, hrest⟩ := List.nodup_cons.mp hnodup
    cases packets with
    | nil => cases hlen
    | cons packet packets =>
      rw [store, List.map_cons, Function.update_self, map_update_of_notMem hnew,
        ih hrest (Nat.succ.inj hlen)]

end Store

/-! ## Runs with the contents -/

/-- The pointers, what they lead to, and the halves of the device with the packets in place of
the pointers. -/
structure Machine where
  account : Account := {}
  bytes : Mbuf → ByteView
  receiver : Receiver := {}
  queue : Device.Logged := {}

/-- The call is one on packets. -/
def Call.onPackets : Call → Bool
  | .getSendBuffer _ => true
  | .moveConstruct _ => true
  | .moveAssign _ _ => true
  | .destruct _ => true
  | .sendPacket _ _ => true
  | _ => false

/-- What the program does, with the mbufs that DPDK answers with. -/
inductive Act where
  | receive (mbufs : List Mbuf)
  | enqueue (call : Device.Call) (mbuf : Mbuf)
  | writeLast (packet : ByteView)
  | flushSendQueue
  | packets (call : Call)
  | write (mbuf : Mbuf) (packet : ByteView)

/-- The call for the pointers, when a packet is queued in `mbuf`. -/
def enqueueCall (dpdk : Dpdk) (d : Device) (mbuf : Mbuf) : Call :=
  .enqueueForSend (dpdk.ethTxBurst d.bursts) ((dpdk.pktmbufAlloc d.allocs).map fun _ => mbuf)

/-- A burst is stored in its mbufs when it is received, a queued packet in its own. -/
def Machine.step (card : RxCard) (dpdk : Dpdk) (m : Machine) : Act → Machine
  | .receive mbufs =>
    { m with
      account := m.account.step (.receive mbufs)
      bytes :=
        if m.account.mbufs.currentRecieveMbufIdx = m.account.mbufs.receiveMbufs.length then
          store m.bytes (stored mbufs) (Receiver.burst card m.receiver.bursts)
        else m.bytes
      receiver := after (Receiver.receive card m.receiver) }
  | .enqueue call mbuf =>
    { m with
      account := m.account.step (enqueueCall dpdk m.queue.device mbuf)
      bytes := ((dpdk.pktmbufAlloc m.queue.device.allocs).bind call.packet).elim m.bytes
        (Function.update m.bytes mbuf)
      queue := m.queue.step dpdk call }
  | .writeLast packet =>
    { m with
      bytes := m.account.mbufs.sendMbufs.getLast?.elim m.bytes fun mbuf =>
        Function.update m.bytes mbuf packet
      queue := m.queue.step dpdk (.writeLast packet) }
  | .flushSendQueue =>
    { m with
      account := m.account.step (.flushSendQueue (dpdk.ethTxBurst m.queue.device.bursts))
      queue := m.queue.step dpdk .flushSendQueue }
  | .packets call => { m with account := m.account.step call }
  | .write mbuf packet => { m with bytes := Function.update m.bytes mbuf packet }

/-- DPDK lends what is not in use, an mbuf for each packet of a burst, and the program writes to an
mbuf that it has in a packet. -/
def Act.Allowed (card : RxCard) (dpdk : Dpdk) (m : Machine) : Act → Prop
  | .receive mbufs =>
    (Call.receive mbufs).Allowed m.account.mbufs ∧
      mbufs.length = (card.ethRxBurst m.receiver.bursts).length
  | .enqueue call mbuf =>
    call.isEnqueue = true ∧ (enqueueCall dpdk m.queue.device mbuf).Allowed m.account.mbufs
  | .writeLast _ => True
  | .flushSendQueue => True
  | .packets call => call.onPackets = true ∧ call.Allowed m.account.mbufs
  | .write mbuf _ => some mbuf ∈ m.account.mbufs.packets

/-- The mbufs that wait to be sent or to be handed out. -/
def waiting (s : Mbufs) : List Mbuf := s.sendMbufs ++ s.unread

/-- The packets that are pending and those in the queue are what is in the mbufs that wait. -/
structure Shows (m : Machine) : Prop where
  balanced : Balanced m.account.mbufs m.account.lost
  pending : Receiver.Pending (m.account.mbufs.unread.map m.bytes) m.receiver
  queued : m.queue.device.sendMbufs = m.account.mbufs.sendMbufs.map m.bytes
  conserved : m.queue.Conserved

/-! ## Nobody else has a pointer -/

namespace Balanced

variable {s : Mbufs} {lost mbufs : List Mbuf} {mbuf : Mbuf}

theorem nodup_owned (h : Balanced s lost) : (s.packets.reduceOption ++ s.waiting).Nodup :=
  h.holds.nodup.of_append_left

theorem nodup_waiting (h : Balanced s lost) : s.waiting.Nodup := h.nodup_owned.of_append_right

/-- An mbuf in a packet does not wait. -/
theorem notMem_of_packet (h : Balanced s lost) (hmem : some mbuf ∈ s.packets) :
    mbuf ∉ s.waiting :=
  List.disjoint_of_nodup_append h.nodup_owned (List.reduceOption_mem_iff.mpr hmem)

/-- What DPDK lends does not wait. -/
theorem disjoint_of_free (h : Balanced s lost) (hfree : s.pool.Free mbufs) :
    List.Disjoint mbufs s.waiting := by
  intro mbuf hmem hwaiting
  refine hfree.2 hmem (h.holds.mem_iff.mpr ?_)
  exact List.mem_append_left _ (List.mem_append_right _ hwaiting)

/-- No pointer of a burst is null. -/
theorem drop_receiveMbufs (h : Balanced s lost) :
    s.receiveMbufs.drop s.currentRecieveMbufIdx = s.unread.map some := by
  obtain ⟨burst, -, hreceived⟩ := h.received
  rw [unread, hreceived, ← List.map_drop, reduceOption_map_some]

theorem used_iff (h : Balanced s lost) :
    s.currentRecieveMbufIdx = s.receiveMbufs.length ↔ s.unread = [] := by
  have hlen := congrArg List.length h.drop_receiveMbufs
  have hidx := h.idx
  rw [List.length_drop, List.length_map] at hlen
  rw [← List.length_eq_zero_iff]
  omega

end Balanced

section Same

variable {s : Mbufs} {bytes bytes' : Mbuf → ByteView}

theorem map_unread (h : ∀ mbuf ∈ s.waiting, bytes' mbuf = bytes mbuf) :
    s.unread.map bytes' = s.unread.map bytes :=
  List.map_congr_left fun mbuf hmem => h mbuf (List.mem_append_right _ hmem)

theorem map_sendMbufs (h : ∀ mbuf ∈ s.waiting, bytes' mbuf = bytes mbuf) :
    s.sendMbufs.map bytes' = s.sendMbufs.map bytes :=
  List.map_congr_left fun mbuf hmem => h mbuf (List.mem_append_left _ hmem)

end Same

/-! ## Pointers and packets -/

section Pointers

variable {s : Mbufs} {dpdk : Dpdk} {d : Device} {bytes : Mbuf → ByteView}

/-- A call on packets leaves the queue and the burst alone. -/
theorem Call.run_onPackets {call : Call} (hcall : call.onPackets = true)
    (hallowed : call.Allowed s) :
    (call.run s).sendMbufs = s.sendMbufs ∧ (call.run s).unread = s.unread := by
  cases call with
  | getSendBuffer answer =>
    rw [Call.run, getSendBuffer_after]
    exact ⟨rfl, rfl⟩
  | moveConstruct rhs => exact ⟨rfl, rfl⟩
  | moveAssign packet rhs => exact ⟨rfl, rfl⟩
  | destruct packet =>
    rw [Call.run, destruct_apply]
    exact ⟨rfl, rfl⟩
  | sendPacket packet answer =>
    obtain ⟨mbuf, hmbuf⟩ := Option.ne_none_iff_exists'.mp hallowed
    rw [Call.run, sendPacket_apply answer hmbuf]
    split
    · exact ⟨rfl, rfl⟩
    · exact ⟨rfl, rfl⟩
  | receive answer => cases hcall
  | flushSendQueue answer => cases hcall
  | enqueueForSend burst answer => cases hcall

theorem unread_madeRoom (s : Mbufs) (answer : Nat) : (s.madeRoom answer).unread = s.unread := by
  unfold Mbufs.madeRoom
  split
  · rfl
  · rfl

/-- Both queues lose the packets that the card takes. -/
theorem queued_flushed (h : d.sendMbufs = s.sendMbufs.map bytes) :
    (d.flushed dpdk).sendMbufs =
      (s.flushed (dpdk.ethTxBurst d.bursts)).sendMbufs.map bytes := by
  have haccepted : d.accepted dpdk = s.accepted (dpdk.ethTxBurst d.bursts) := by
    rw [Device.accepted, accepted, h, List.length_map]
  rw [Device.flushed, flushed, haccepted, h, List.map_drop]

theorem queued_madeRoom (h : d.sendMbufs = s.sendMbufs.map bytes) :
    (d.madeRoom dpdk).sendMbufs =
      (s.madeRoom (dpdk.ethTxBurst d.bursts)).sendMbufs.map bytes := by
  have hlen : d.sendMbufs.length = s.sendMbufs.length := by rw [h, List.length_map]
  rw [Device.madeRoom, madeRoom, hlen]
  split
  · exact queued_flushed h
  · exact h

end Pointers

/-! ## One act -/

namespace Shows

variable {card : RxCard} {dpdk : Dpdk} {m : Machine}

/-- What is in an mbuf that does not wait is not shown. -/
theorem congr {bytes : Mbuf → ByteView} (h : Shows m)
    (hsame : ∀ mbuf ∈ m.account.mbufs.waiting, bytes mbuf = m.bytes mbuf) :
    Shows { m with bytes } := by
  refine ⟨h.balanced, ?_, ?_, h.conserved⟩
  · dsimp only
    rw [map_unread hsame]
    exact h.pending
  · dsimp only
    rw [map_sendMbufs hsame]
    exact h.queued

/-- The owner of a packet writes to it. -/
theorem write {mbuf : Mbuf} (packet : ByteView) (h : Shows m)
    (hmem : some mbuf ∈ m.account.mbufs.packets) :
    Shows (m.step card dpdk (.write mbuf packet)) := by
  refine h.congr ?_
  intro other hother
  refine Function.update_of_ne ?_ _ _
  rintro rfl
  exact h.balanced.notMem_of_packet hmem hother

theorem packets {call : Call} (h : Shows m) (hcall : call.onPackets = true)
    (hallowed : call.Allowed m.account.mbufs) : Shows (m.step card dpdk (.packets call)) := by
  obtain ⟨hqueue, hunread⟩ := Call.run_onPackets hcall hallowed
  refine ⟨h.balanced.step hallowed, ?_, ?_, h.conserved⟩
  · change Receiver.Pending ((call.run m.account.mbufs).unread.map m.bytes) m.receiver
    rw [hunread]
    exact h.pending
  · change m.queue.device.sendMbufs = (call.run m.account.mbufs).sendMbufs.map m.bytes
    rw [hqueue]
    exact h.queued

/-- The packet queued last is written to through its view. -/
theorem writeLast (packet : ByteView) (h : Shows m) :
    Shows (m.step card dpdk (.writeLast packet)) := by
  have hconserved : (m.queue.step dpdk (.writeLast packet)).Conserved :=
    Device.Logged.step_conserved _ h.conserved
  have hnodup := h.balanced.nodup_waiting
  have hrun : (m.queue.step dpdk (.writeLast packet)).device =
      if m.queue.device.sendMbufs = [] then m.queue.device
      else { m.queue.device with sendMbufs := m.queue.device.sendMbufs.dropLast ++ [packet] } := rfl
  rcases List.eq_nil_or_concat' m.account.mbufs.sendMbufs with hnone | ⟨queue, mbuf, hlast⟩
  · have hempty : m.queue.device.sendMbufs = [] := by rw [h.queued, hnone, List.map_nil]
    rw [if_pos hempty] at hrun
    rw [Machine.step, hnone]
    refine ⟨h.balanced, h.pending, ?_, hconserved⟩
    rw [hrun]
    exact h.queued
  · have hqueued : m.queue.device.sendMbufs = queue.map m.bytes ++ [m.bytes mbuf] := by
      rw [h.queued, hlast, List.map_append, List.map_singleton]
    rw [waiting, hlast] at hnodup
    have hnew : mbuf ∉ queue := by
      intro hmem
      exact List.disjoint_of_nodup_append hnodup.of_append_left hmem (List.mem_singleton_self mbuf)
    have hunread : mbuf ∉ m.account.mbufs.unread :=
      List.disjoint_of_nodup_append hnodup (List.mem_append_right _ (List.mem_singleton_self mbuf))
    rw [if_neg (by simp [hqueued])] at hrun
    rw [Machine.step, hlast, List.getLast?_concat, Option.elim_some]
    refine ⟨h.balanced, ?_, ?_, hconserved⟩
    · dsimp only
      rw [map_update_of_notMem hunread]
      exact h.pending
    · dsimp only
      rw [hrun, hlast, hqueued, List.dropLast_concat, List.map_append, map_update_of_notMem hnew,
        List.map_singleton, Function.update_self]

/-- The card takes the same packets of both queues. -/
theorem flushSendQueue (h : Shows m) : Shows (m.step card dpdk .flushSendQueue) := by
  have hallowed : (Call.flushSendQueue (dpdk.ethTxBurst m.queue.device.bursts)).Allowed
      m.account.mbufs := trivial
  have hpointers : after (Mbufs.flushSendQueue (dpdk.ethTxBurst m.queue.device.bursts)
      m.account.mbufs) = m.account.mbufs.flushed (dpdk.ethTxBurst m.queue.device.bursts) := by
    rw [flushSendQueue_apply, after_ok]
  have hqueue : (after (Device.flushSendQueue dpdk m.queue.device)).sendMbufs =
      (m.queue.device.flushed dpdk).sendMbufs := by
    rw [Device.flushSendQueue_apply]
    split
    · rename_i hempty
      rw [Device.flushed, hempty, List.drop_nil, after_ok, hempty]
    · rfl
  refine ⟨h.balanced.step hallowed, ?_, ?_, Device.Logged.step_conserved _ h.conserved⟩
  · change Receiver.Pending ((after (Mbufs.flushSendQueue _ m.account.mbufs)).unread.map m.bytes) _
    rw [hpointers]
    exact h.pending
  · change (after (Device.flushSendQueue dpdk m.queue.device)).sendMbufs =
      (after (Mbufs.flushSendQueue _ m.account.mbufs)).sendMbufs.map m.bytes
    rw [hpointers, hqueue]
    exact queued_flushed h.queued

/-- A packet is queued in an mbuf that was not in use. -/
theorem enqueue_bytes {call : Device.Call} {mbuf : Mbuf} {waiting : List Mbuf}
    (hcall : call.isEnqueue = true)
    (hnew : List.Disjoint
      ((dpdk.pktmbufAlloc m.queue.device.allocs).map fun _ => mbuf).toList waiting) :
    ∀ other ∈ waiting, (m.step card dpdk (.enqueue call mbuf)).bytes other = m.bytes other := by
  intro other hother
  change ((dpdk.pktmbufAlloc m.queue.device.allocs).bind call.packet).elim m.bytes
    (Function.update m.bytes mbuf) other = m.bytes other
  cases halloc : dpdk.pktmbufAlloc m.queue.device.allocs with
  | none => rfl
  | some mem =>
    obtain ⟨packet, hpacket⟩ := Option.isSome_iff_exists.mp (Device.isSome_packet hcall mem)
    rw [halloc] at hnew
    rw [Option.bind_some, hpacket, Option.elim_some]
    refine Function.update_of_ne ?_ _ _
    rintro rfl
    exact hnew (List.mem_singleton_self other) hother

theorem enqueue_packet {call : Device.Call} (mbuf : Mbuf) (hcall : call.isEnqueue = true) :
    ((dpdk.pktmbufAlloc m.queue.device.allocs).bind call.packet).toList =
      ((dpdk.pktmbufAlloc m.queue.device.allocs).map fun _ => mbuf).toList.map
        (m.step card dpdk (.enqueue call mbuf)).bytes := by
  rw [Machine.step]
  cases dpdk.pktmbufAlloc m.queue.device.allocs with
  | none => rfl
  | some mem =>
    obtain ⟨packet, hpacket⟩ := Option.isSome_iff_exists.mp (Device.isSome_packet hcall mem)
    rw [Option.bind_some, hpacket, Option.elim_some]
    simp

/-- A packet is added to both queues, if there is an mbuf for it. -/
theorem enqueue {call : Device.Call} {mbuf : Mbuf} (h : Shows m) (hcall : call.isEnqueue = true)
    (hallowed : (enqueueCall dpdk m.queue.device mbuf).Allowed m.account.mbufs) :
    Shows (m.step card dpdk (.enqueue call mbuf)) := by
  have hroom := h.balanced.madeRoom (dpdk.ethTxBurst m.queue.device.bursts)
  have hnew := hroom.disjoint_of_free hallowed
  have hsame : ∀ mbuf' ∈ _, (m.step card dpdk (.enqueue call mbuf)).bytes mbuf' = m.bytes mbuf' :=
    enqueue_bytes hcall hnew
  have hrun : ((enqueueCall dpdk m.queue.device mbuf).run m.account.mbufs).unread =
      (m.account.mbufs.madeRoom (dpdk.ethTxBurst m.queue.device.bursts)).unread := by
    rw [enqueueCall, Call.run, enqueueForSend_after]
    rfl
  refine ⟨h.balanced.step hallowed, ?_, ?_, Device.Logged.step_conserved _ h.conserved⟩
  · change Receiver.Pending (((enqueueCall dpdk m.queue.device mbuf).run m.account.mbufs).unread.map
      (m.step card dpdk (.enqueue call mbuf)).bytes) m.receiver
    rw [hrun, map_unread hsame, unread_madeRoom]
    exact h.pending
  · change (call.run dpdk m.queue.device).sendMbufs =
      ((enqueueCall dpdk m.queue.device mbuf).run m.account.mbufs).sendMbufs.map
        (m.step card dpdk (.enqueue call mbuf)).bytes
    rw [Device.run_enqueue call hcall, enqueueCall, Call.run, enqueueForSend_after]
    dsimp only
    rw [List.map_append, map_sendMbufs hsame, enqueue_packet mbuf hcall,
      queued_madeRoom h.queued]

/-- The next mbuf that was received is handed out, with what is in it. -/
theorem handOut {s : Mbufs} {lost : List Mbuf} {bytes : Mbuf → ByteView} {r : Receiver}
    (hbalanced : Balanced s lost) (hpending : Receiver.Pending (s.unread.map bytes) r) :
    ∃ (packet : Option Mbuf) (r' : Receiver),
      Receiver.handOut r = .ok (packet.map bytes) r' ∧
      s.handedOut.packets = s.packets ++ packet.toList.map some ∧
      s.handedOut.sendMbufs = s.sendMbufs ∧
      Receiver.Pending (s.handedOut.unread.map bytes) r' := by
  have hdrop := hbalanced.drop_receiveMbufs
  cases hunread : s.unread with
  | nil =>
    rw [hunread] at hdrop hpending
    rw [handedOut_nil hdrop, hunread]
    exact ⟨none, r, Receiver.handOut_empty hpending, (List.append_nil _).symm, rfl, hpending⟩
  | cons mbuf rest =>
    rw [hunread] at hdrop hpending
    have hrest : s.handedOut.unread = rest := by
      rw [handedOut_cons hdrop, unread]
      dsimp only
      rw [← List.drop_drop, hdrop, List.map_cons, List.drop_one, List.tail_cons,
        reduceOption_map_some]
    rw [hrest, handedOut_cons hdrop]
    exact ⟨some mbuf, _, Receiver.handOut_pending hpending, rfl, rfl, hpending.tail⟩

/-- The next burst is stored in its mbufs, if the last one is used up. -/
theorem ready {mbufs : List Mbuf} (h : Shows m)
    (hallowed : (Act.receive mbufs).Allowed card dpdk m) :
    let bytes := (m.step card dpdk (.receive mbufs)).bytes
    ∃ r : Receiver, Receiver.receive card m.receiver = Receiver.handOut r ∧
      Receiver.Pending ((m.account.mbufs.ready mbufs).unread.map bytes) r ∧
      m.account.mbufs.sendMbufs.map bytes = m.account.mbufs.sendMbufs.map m.bytes := by
  obtain ⟨hfree, hlen⟩ := hallowed
  have hpending := h.pending
  rw [Machine.step, Mbufs.ready]
  dsimp only
  by_cases hused : m.account.mbufs.currentRecieveMbufIdx = m.account.mbufs.receiveMbufs.length
  · rw [if_pos hused, if_pos hused]
    have hstored : m.account.mbufs.pool.Free (stored mbufs) := hfree hused
    have hsize : (stored mbufs).length = (Receiver.burst card m.receiver.bursts).length := by
      rw [stored, Receiver.burst, List.length_take, List.length_take, hlen]
    have hunread : (m.account.mbufs.polled mbufs).unread = stored mbufs :=
      reduceOption_map_some (stored mbufs)
    rw [h.balanced.used_iff.mp hused] at hpending
    refine ⟨_, Receiver.receive_fetch hpending, ?_, ?_⟩
    · rw [hunread, map_store hstored.1 hsize]
      exact Receiver.pending_polled rfl
    · refine map_sendMbufs fun mbuf hmem => store_of_notMem fun hin => ?_
      exact h.balanced.disjoint_of_free hstored hin hmem
  · rw [if_neg hused, if_neg hused]
    refine ⟨m.receiver, ?_, hpending, rfl⟩
    cases hunread : m.account.mbufs.unread with
    | nil => exact absurd (h.balanced.used_iff.mpr hunread) hused
    | cons mbuf rest =>
      rw [hunread] at hpending
      exact (Receiver.receive_pending hpending).trans (Receiver.handOut_pending hpending).symm

/-- `receive` answers with what is in the mbuf that its packet points to. -/
theorem receive {mbufs : List Mbuf} (h : Shows m)
    (hallowed : (Act.receive mbufs).Allowed card dpdk m) :
    let m' := m.step card dpdk (.receive mbufs)
    ∃ (packet : Option Mbuf) (r : Receiver),
      Receiver.receive card m.receiver = .ok (packet.map m'.bytes) r ∧
      m'.account.mbufs.packets = m.account.mbufs.packets ++ packet.toList.map some ∧ Shows m' := by
  intro m'
  obtain ⟨r, hreceive, hpending, hqueue⟩ := h.ready hallowed
  obtain ⟨packet, r', hanswer, hpackets, hsend, hrest⟩ :=
    handOut (h.balanced.ready hallowed.1) hpending
  have hkept : (m.account.mbufs.ready mbufs).packets = m.account.mbufs.packets ∧
      (m.account.mbufs.ready mbufs).sendMbufs = m.account.mbufs.sendMbufs := by
    unfold Mbufs.ready
    split
    · exact ⟨rfl, rfl⟩
    · exact ⟨rfl, rfl⟩
  have hmbufs : m'.account.mbufs = (m.account.mbufs.ready mbufs).handedOut :=
    receive_after mbufs m.account.mbufs
  have hreceiver : m'.receiver = r' := by
    change after (Receiver.receive card m.receiver) = r'
    rw [hreceive, hanswer, after_ok]
  refine ⟨packet, r', hreceive.trans hanswer, ?_, ?_⟩
  · rw [hmbufs, hpackets, hkept.1]
  · refine ⟨h.balanced.step hallowed.1, ?_, ?_, h.conserved⟩
    · rw [hmbufs, hreceiver]
      exact hrest
    · rw [hmbufs, hsend, hkept.2, hqueue]
      exact h.queued

/-- **One act**: the packets stay what is in the mbufs. -/
theorem step {act : Act} (h : Shows m) (hallowed : act.Allowed card dpdk m) :
    Shows (m.step card dpdk act) := by
  cases act with
  | receive mbufs =>
    obtain ⟨packet, r, -, -, hshows⟩ := h.receive hallowed
    exact hshows
  | enqueue call mbuf => exact h.enqueue hallowed.1 hallowed.2
  | writeLast packet => exact h.writeLast packet
  | flushSendQueue => exact h.flushSendQueue
  | packets call => exact h.packets hallowed.1 hallowed.2
  | write mbuf packet => exact h.write packet hallowed

theorem start (bytes : Mbuf → ByteView) : Shows { bytes } :=
  ⟨Balanced.start, Receiver.pending_empty, rfl, rfl⟩

end Shows

/-- The machine after these acts, from mbufs with any contents. -/
def machineOf (card : RxCard) (dpdk : Dpdk) (bytes : Mbuf → ByteView) (acts : List Act) :
    Machine :=
  acts.foldl (Machine.step card dpdk) { bytes }

section Runs

variable {card : RxCard} {dpdk : Dpdk} {bytes : Mbuf → ByteView} {acts : List Act}

theorem Shows.run (h : Along (Machine.step card dpdk) (Act.Allowed card dpdk) { bytes } acts) :
    Shows (machineOf card dpdk bytes acts) :=
  Along.invariant (I := Shows) (fun _ _ hm hallowed => hm.step hallowed) (Shows.start bytes) h

/-- **Received packets**: in every run, the packet that `receive` hands out has the bytes that the
next packet of the receiving half has, whatever the program wrote to the mbufs of other packets. -/
theorem handed_out_as_received
    (h : Along (Machine.step card dpdk) (Act.Allowed card dpdk) { bytes } acts) {mbufs : List Mbuf}
    (hallowed : (Act.receive mbufs).Allowed card dpdk (machineOf card dpdk bytes acts)) :
    let m := machineOf card dpdk bytes acts
    let m' := m.step card dpdk (.receive mbufs)
    ∃ (packet : Option Mbuf) (r : Receiver),
      Receiver.receive card m.receiver = .ok (packet.map m'.bytes) r ∧
      m'.account.mbufs.packets = m.account.mbufs.packets ++ packet.toList.map some := by
  obtain ⟨packet, r, hanswer, hpackets, -⟩ := (Shows.run h).receive hallowed
  exact ⟨packet, r, hanswer, hpackets⟩

/-- **Queued packets**: in every run, what the card has sent of the queue, followed by what is in
the mbufs of the queue, is what was queued, in order. -/
theorem sent_as_queued
    (h : Along (Machine.step card dpdk) (Act.Allowed card dpdk) { bytes } acts) :
    let m := machineOf card dpdk bytes acts
    m.queue.device.transmitted ++ m.account.mbufs.sendMbufs.map m.bytes = m.queue.enqueued := by
  have hshows := Shows.run h
  have hconserved : _ = _ := hshows.conserved
  rw [hshows.queued] at hconserved
  exact hconserved

end Runs

end WsGateway.Network.Mbufs
