import WsGateway.Library.Runs
import WsGateway.Network.Dpdk

/-!
# The send queue of the device

Packets are queued one by one and offered to the card in bursts, of which it may
take any beginning. What the card has taken, followed by what is still queued, is
always what was queued, in order: the copy of the rest to the front of the vector
and the resize lose nothing. The queue is kept at `kSendBurstSize` packets by a test
for equality, so it grows past that number for good once a burst of a full queue is
refused.
-/

namespace WsGateway.Network.Device

open Library

/-! ## Moving the rest to the front -/

section Copy

variable {α : Type} {xs : List α} {k i : Nat}

/-- After `i` steps the first `i` places hold what was `k` places further on. -/
theorem stdCopy_steps (h : k + i ≤ xs.length) :
    (List.range i).foldl (fun ys i => (ys[k + i]?).elim ys fun y => ys.set i y) xs =
      (xs.drop k).take i ++ xs.drop i := by
  induction i with
  | zero => simp
  | succ i ih =>
    have hlt : k + i < xs.length := by omega
    have hi : ((xs.drop k).take i).length = i := by simp; omega
    have hget : ((xs.drop k).take i ++ xs.drop i)[k + i]? = some xs[k + i] := by
      rw [List.getElem?_append_right (by rw [hi]; omega), hi, Nat.add_sub_cancel,
        List.getElem?_drop, Nat.add_comm, List.getElem?_eq_getElem hlt]
    rw [List.range_succ, List.foldl_append, ih (by omega), List.foldl_cons, List.foldl_nil, hget,
      Option.elim_some, List.set_append_right i _ (by rw [hi]), hi, Nat.sub_self,
      List.drop_eq_getElem_cons (show i < xs.length by omega), List.set_cons_zero,
      List.take_succ_eq_append_getElem (by simp; omega), List.getElem_drop, List.append_assoc,
      List.singleton_append]

theorem take_stdCopy (h : k ≤ xs.length) : (stdCopy xs k).take (xs.length - k) = xs.drop k := by
  have hlen : ((xs.drop k).take (xs.length - k)).length = xs.length - k := by simp
  rw [stdCopy, stdCopy_steps (by omega), List.take_left' hlen, List.take_of_length_le (by simp)]

end Copy

/-! ## Flushing -/

/-- How many packets of a full burst the card takes. -/
def accepted (dpdk : Dpdk) (d : Device) : Nat :=
  min (dpdk.ethTxBurst d.bursts) (d.sendMbufs.length % 2 ^ 16)

/-- The device after a burst. -/
def flushed (dpdk : Dpdk) (d : Device) : Device :=
  { d with
    sendMbufs := d.sendMbufs.drop (d.accepted dpdk)
    transmitted := d.transmitted ++ d.sendMbufs.take (d.accepted dpdk)
    bursts := d.bursts + 1 }

theorem accepted_le (dpdk : Dpdk) (d : Device) : d.accepted dpdk ≤ d.sendMbufs.length :=
  Nat.le_trans (Nat.min_le_right _ _) (Nat.mod_le _ _)

theorem ethTxBurst_apply (dpdk : Dpdk) (mbufs : List ByteView) (d : Device) :
    ethTxBurst dpdk mbufs d = .ok (min (dpdk.ethTxBurst d.bursts) mbufs.length)
      { d with
        bursts := d.bursts + 1
        transmitted :=
          d.transmitted ++ mbufs.take (min (dpdk.ethTxBurst d.bursts) mbufs.length) } := rfl

/-- A flush offers the queue to the card and keeps what it leaves. -/
theorem flushSendQueue_apply (dpdk : Dpdk) (d : Device) : flushSendQueue dpdk d =
    .ok () (if d.sendMbufs = [] then d else d.flushed dpdk) := by
  have hle := accepted_le dpdk d
  have hcount : min (dpdk.ethTxBurst d.bursts)
      (d.sendMbufs.take (d.sendMbufs.length % 2 ^ 16)).length = d.accepted dpdk := by
    rw [List.length_take, Nat.min_eq_left (Nat.mod_le _ _), accepted]
  have htake : (d.sendMbufs.take (d.sendMbufs.length % 2 ^ 16)).take (d.accepted dpdk) =
      d.sendMbufs.take (d.accepted dpdk) := by
    rw [List.take_take, Nat.min_eq_left (show d.accepted dpdk ≤ _ from Nat.min_le_right _ _)]
  have hrest : (if d.accepted dpdk < d.sendMbufs.length then
      stdCopy d.sendMbufs (d.accepted dpdk) else d.sendMbufs).take
        (d.sendMbufs.length - d.accepted dpdk) = d.sendMbufs.drop (d.accepted dpdk) := by
    split
    · exact take_stdCopy hle
    · have hall : d.accepted dpdk = d.sendMbufs.length := by omega
      rw [hall, Nat.sub_self, List.take_zero, List.drop_length]
  rw [flushSendQueue, bind_of_ok (get_apply d)]
  by_cases hempty : d.sendMbufs = []
  · rw [if_pos hempty, if_pos (by simp [hempty])]
    rfl
  · rw [if_neg hempty, if_neg (by simp [hempty])]
    rw [bind_of_ok (ethTxBurst_apply _ _ _), modify_apply, hcount, htake]
    dsimp only
    rw [hrest]
    rfl

/-! ## The calls on the queue -/

/-- A call on the queue, or a store by its caller through the view of the packet queued last. -/
inductive Call where
  | enqueueForSend (size : Nat)
  | enqueueForSendWith (f : Memory → Except Error (Memory × Nat))
  | writeLast (packet : ByteView)
  | flushSendQueue

/-- The call adds a packet. -/
def Call.isEnqueue : Call → Bool
  | .enqueueForSend _ => true
  | .enqueueForSendWith _ => true
  | .writeLast _ => false
  | .flushSendQueue => false

/-- The packet that a call queues in a fresh buffer. -/
def Call.packet (mem : Memory) : Call → Option ByteView
  | .enqueueForSend size => some ⟨mem, 0, size⟩
  | .enqueueForSendWith f =>
    match f mem with
    | .error _ => some ⟨mem, 0, 0⟩
    | .ok (mem, size) => some ⟨mem, 0, size % 2 ^ 16⟩
  | .writeLast _ => none
  | .flushSendQueue => none

/-- The device after a call, whether it returns or throws. The view of a packet that is no longer
queued is not written to. -/
def Call.run (dpdk : Dpdk) (d : Device) : Call → Device
  | .enqueueForSend size => after (Device.enqueueForSend dpdk size d)
  | .enqueueForSendWith f => after (Device.enqueueForSendWith dpdk f d)
  | .writeLast packet => if d.sendMbufs = [] then d else after (Device.writeLast packet d)
  | .flushSendQueue => after (Device.flushSendQueue dpdk d)

/-- The packets queued so far, after a call. -/
def Call.record (dpdk : Dpdk) (d : Device) (enqueued : List ByteView) : Call → List ByteView
  | .writeLast packet => if d.sendMbufs = [] then enqueued else enqueued.dropLast ++ [packet]
  | .flushSendQueue => enqueued
  | call => enqueued ++ ((dpdk.pktmbufAlloc d.allocs).bind call.packet).toList

/-- A device with the packets queued so far. -/
structure Logged where
  device : Device := {}
  enqueued : List ByteView := []

def Logged.step (dpdk : Dpdk) (s : Logged) (call : Call) : Logged where
  device := call.run dpdk s.device
  enqueued := call.record dpdk s.device s.enqueued

section Calls

variable {dpdk : Dpdk} {d : Device}

/-- The device that a packet is added to: a full queue is flushed first. -/
def madeRoom (dpdk : Dpdk) (d : Device) : Device :=
  if d.sendMbufs.length = kSendBurstSize then d.flushed dpdk else d

/-- The beginning that both ways to queue a packet share. -/
theorem makeRoom_apply {α : Type} (dpdk : Dpdk) (d : Device) (k : Unit → Prog Device α) :
    (if (d.sendMbufs.length == kSendBurstSize) = true then flushSendQueue dpdk >>= k else k ()) d =
      k () (d.madeRoom dpdk) := by
  rw [madeRoom]
  by_cases hfull : d.sendMbufs.length = kSendBurstSize
  · have hne : d.sendMbufs ≠ [] := by
      intro h
      rw [h] at hfull
      cases hfull
    have hflush := flushSendQueue_apply dpdk d
    rw [if_neg hne] at hflush
    rw [if_pos (by simpa using hfull), if_pos hfull, bind_of_ok hflush]
  · rw [if_neg (by simpa using hfull), if_neg hfull]

theorem pktmbufAlloc_apply (dpdk : Dpdk) (d : Device) : pktmbufAlloc dpdk d =
    .ok (dpdk.pktmbufAlloc d.allocs) { d with allocs := d.allocs + 1 } := rfl

theorem madeRoom_allocs (dpdk : Dpdk) (d : Device) : (d.madeRoom dpdk).allocs = d.allocs := by
  unfold madeRoom
  split <;> rfl

theorem enqueueForSend_apply (dpdk : Dpdk) (size : Nat) (d : Device) :
    Device.enqueueForSend dpdk size d =
      match dpdk.pktmbufAlloc d.allocs with
      | none => .error (.runtimeError "Failed to allocate mbuf")
          { d.madeRoom dpdk with allocs := d.allocs + 1 }
      | some mem => .ok ⟨mem, 0, size⟩
          { d.madeRoom dpdk with
            allocs := d.allocs + 1
            sendMbufs := (d.madeRoom dpdk).sendMbufs ++ [⟨mem, 0, size⟩] } := by
  have hallocs := madeRoom_allocs dpdk d
  rw [Device.enqueueForSend, bind_of_ok (get_apply d)]
  dsimp only
  rw [makeRoom_apply, bind_of_ok (pktmbufAlloc_apply _ _), hallocs]
  cases dpdk.pktmbufAlloc d.allocs with
  | none => rfl
  | some mem => rfl

/-- Both ways to queue a packet make room, take a buffer and add the packet. -/
theorem run_enqueue (call : Call) (h : call.isEnqueue = true) : call.run dpdk d =
    { d.madeRoom dpdk with
      allocs := d.allocs + 1
      sendMbufs := (d.madeRoom dpdk).sendMbufs ++
        ((dpdk.pktmbufAlloc d.allocs).bind call.packet).toList } := by
  have hallocs := madeRoom_allocs dpdk d
  cases call with
  | enqueueForSend size =>
    rw [Call.run, enqueueForSend_apply]
    cases dpdk.pktmbufAlloc d.allocs with
    | none => simp
    | some mem => simp [Call.packet]
  | enqueueForSendWith f =>
    rw [Call.run, Device.enqueueForSendWith, bind_of_ok (get_apply d)]
    dsimp only
    rw [makeRoom_apply, bind_of_ok (pktmbufAlloc_apply _ _), hallocs]
    cases dpdk.pktmbufAlloc d.allocs with
    | none => simp
    | some mem =>
      dsimp only
      rw [bind_of_ok (modify_apply _ _)]
      cases hf : f mem with
      | error e => simp [Call.packet, hf]
      | ok r => simp [Call.packet, hf]
  | writeLast packet => cases h
  | flushSendQueue => cases h

/-- A flush moves packets from the queue to the card. -/
theorem flushed_packets (dpdk : Dpdk) (d : Device) :
    (d.flushed dpdk).transmitted ++ (d.flushed dpdk).sendMbufs = d.transmitted ++ d.sendMbufs := by
  rw [flushed, List.append_assoc, List.take_append_drop]

theorem madeRoom_packets (dpdk : Dpdk) (d : Device) :
    (d.madeRoom dpdk).transmitted ++ (d.madeRoom dpdk).sendMbufs =
      d.transmitted ++ d.sendMbufs := by
  unfold madeRoom
  split
  · exact flushed_packets dpdk d
  · rfl

/-- The packets the card has taken, followed by those in the queue, are those queued so far. -/
def Logged.Conserved (s : Logged) : Prop :=
  s.device.transmitted ++ s.device.sendMbufs = s.enqueued

/-- **One call** neither loses, duplicates nor reorders packets. -/
theorem Logged.step_conserved {s : Logged} (call : Call) (h : s.Conserved) :
    (s.step dpdk call).Conserved := by
  have henqueue (hcall : call.isEnqueue = true)
      (hrecord : call.record dpdk s.device s.enqueued = s.enqueued ++
        ((dpdk.pktmbufAlloc s.device.allocs).bind call.packet).toList) :
      (s.step dpdk call).Conserved := by
    rw [Conserved, step, run_enqueue call hcall, hrecord, ← List.append_assoc, madeRoom_packets,
      h.symm]
  cases call with
  | enqueueForSend size => exact henqueue rfl rfl
  | enqueueForSendWith f => exact henqueue rfl rfl
  | writeLast packet =>
    rw [Conserved, step, Call.run, Call.record]
    by_cases hempty : s.device.sendMbufs = []
    · rw [if_pos hempty, if_pos hempty]
      exact h
    · rw [if_neg hempty, if_neg hempty, ← h, List.dropLast_append_of_ne_nil hempty,
        List.append_assoc]
      rfl
  | flushSendQueue =>
    rw [Conserved, step, Call.run, flushSendQueue_apply, Call.record, after_ok]
    split
    · exact h
    · exact (flushed_packets dpdk s.device).trans h

theorem Logged.foldl_conserved {s : Logged} (calls : List Call) (h : s.Conserved) :
    (calls.foldl (Logged.step dpdk) s).Conserved := by
  induction calls generalizing s with
  | nil => exact h
  | cons call calls ih => exact ih (step_conserved call h)

end Calls

/-- **The order of the packets**: after any calls, whatever the card takes of each burst, the
packets it has taken followed by those in the queue are the packets queued, in order. -/
theorem queued_in_order (dpdk : Dpdk) (calls : List Call) :
    (calls.foldl (Logged.step dpdk) {}).device.transmitted ++
        (calls.foldl (Logged.step dpdk) {}).device.sendMbufs =
      (calls.foldl (Logged.step dpdk) {}).enqueued :=
  Logged.foldl_conserved calls rfl

/-! ## The length of the queue -/

/-- The queue stays within a burst, and a packet is added to a full one after an attempt to flush
it. -/
def Within (dpdk : Dpdk) : Device → List Call → Prop
  | d, [] => d.sendMbufs.length ≤ kSendBurstSize
  | d, call :: calls =>
    d.sendMbufs.length ≤ kSendBurstSize ∧
      (call.isEnqueue = true → kSendBurstSize ≤ d.sendMbufs.length →
        d.bursts < (call.run dpdk d).bursts) ∧
      Within dpdk (call.run dpdk d) calls

/-- If a packet is to be added to a full queue, the card takes one, or there is no buffer for it. -/
def Relieved (dpdk : Dpdk) (d : Device) (call : Call) : Prop :=
  call.isEnqueue = true → d.sendMbufs.length = kSendBurstSize →
    dpdk.ethTxBurst d.bursts ≠ 0 ∨ dpdk.pktmbufAlloc d.allocs = none

section Length

variable {dpdk : Dpdk} {d : Device}

theorem length_packet_le (call : Call) (o : Option Memory) :
    (o.bind call.packet).toList.length ≤ 1 := by
  cases o.bind call.packet <;> simp

/-- A flush of a full queue takes at least one packet, if the card takes any. -/
theorem length_madeRoom (hle : d.sendMbufs.length ≤ kSendBurstSize)
    (hburst : d.sendMbufs.length = kSendBurstSize → dpdk.ethTxBurst d.bursts ≠ 0) :
    (d.madeRoom dpdk).sendMbufs.length < kSendBurstSize := by
  unfold madeRoom
  split
  · rename_i hfull
    have hpos := hburst hfull
    have haccepted : 0 < d.accepted dpdk := by
      rw [accepted, hfull]
      unfold kSendBurstSize
      omega
    rw [flushed, List.length_drop, hfull]
    unfold kSendBurstSize
    omega
  · omega

theorem length_madeRoom_le (dpdk : Dpdk) (d : Device) :
    (d.madeRoom dpdk).sendMbufs.length ≤ d.sendMbufs.length := by
  unfold madeRoom
  split
  · rw [flushed, List.length_drop]
    exact Nat.sub_le _ _
  · exact Nat.le_refl _

theorem isSome_packet {call : Call} (h : call.isEnqueue = true) (mem : Memory) :
    (call.packet mem).isSome = true := by
  cases call with
  | enqueueForSend size => rfl
  | enqueueForSendWith f =>
    rw [Call.packet]
    cases f mem <;> rfl
  | writeLast packet => cases h
  | flushSendQueue => cases h

/-- A relieved queue stays within a burst. -/
theorem Relieved.length_run_le {call : Call} (h : Relieved dpdk d call)
    (hle : d.sendMbufs.length ≤ kSendBurstSize) :
    (call.run dpdk d).sendMbufs.length ≤ kSendBurstSize := by
  by_cases hcall : call.isEnqueue = true
  · rw [run_enqueue call hcall, List.length_append]
    have hone := length_packet_le call (dpdk.pktmbufAlloc d.allocs)
    have hroom := length_madeRoom_le dpdk d
    by_cases hnone : dpdk.pktmbufAlloc d.allocs = none
    · rw [hnone, Option.bind_none, Option.toList_none, List.length_nil]
      omega
    · have hlt := length_madeRoom hle fun hfull => (h hcall hfull).resolve_right hnone
      omega
  · cases call with
    | enqueueForSend size => exact absurd rfl hcall
    | enqueueForSendWith f => exact absurd rfl hcall
    | writeLast packet =>
      rw [Call.run]
      split
      · exact hle
      · rename_i hne
        have hpos := List.length_pos_iff.mpr hne
        change (d.sendMbufs.dropLast ++ [packet]).length ≤ kSendBurstSize
        rw [List.length_append, List.length_dropLast, List.length_singleton]
        omega
    | flushSendQueue =>
      rw [Call.run, flushSendQueue_apply, after_ok]
      split
      · exact hle
      · rw [flushed, List.length_drop]
        omega

/-- Otherwise it has one packet too many. -/
theorem length_run_of_not_relieved {call : Call} (h : ¬ Relieved dpdk d call) :
    (call.run dpdk d).sendMbufs.length = kSendBurstSize + 1 := by
  obtain ⟨hcall, hfull, hrefused⟩ : call.isEnqueue = true ∧ d.sendMbufs.length = kSendBurstSize ∧
      ¬ (dpdk.ethTxBurst d.bursts ≠ 0 ∨ dpdk.pktmbufAlloc d.allocs = none) := by
    simpa [Relieved] using h
  obtain ⟨hzero, hsome⟩ := not_or.mp hrefused
  obtain ⟨mem, hmem⟩ := Option.ne_none_iff_exists'.mp hsome
  obtain ⟨packet, hpacket⟩ := Option.isSome_iff_exists.mp (isSome_packet hcall mem)
  have haccepted : d.accepted dpdk = 0 := by
    rw [accepted, not_not.mp hzero, Nat.zero_min]
  rw [run_enqueue call hcall, madeRoom, if_pos hfull, flushed, haccepted, hmem, Option.bind_some,
    hpacket, List.drop_zero, Option.toList_some, List.length_append, hfull, List.length_singleton]

/-- A packet is added to a queue of a full burst after an attempt to flush it. -/
theorem bursts_run_of_full {call : Call} (hcall : call.isEnqueue = true)
    (hfull : d.sendMbufs.length = kSendBurstSize) : d.bursts < (call.run dpdk d).bursts := by
  rw [run_enqueue call hcall, madeRoom, if_pos hfull]
  exact Nat.lt_succ_self _

theorem Within.length_le {calls : List Call} (h : Within dpdk d calls) :
    d.sendMbufs.length ≤ kSendBurstSize := by
  cases calls with
  | nil => exact h
  | cons call calls => exact h.1

theorem Within.length_foldl_le {calls : List Call} (h : Within dpdk d calls) :
    (calls.foldl (Call.run dpdk) d).sendMbufs.length ≤ kSendBurstSize := by
  induction calls generalizing d with
  | nil => exact h
  | cons call calls ih => exact ih h.2.2

theorem within_iff_relieved (hle : d.sendMbufs.length ≤ kSendBurstSize) (calls : List Call) :
    Within dpdk d calls ↔ Along (Call.run dpdk) (Relieved dpdk) d calls := by
  induction calls generalizing d with
  | nil => exact iff_of_true hle trivial
  | cons call calls ih =>
    rw [Along.cons, Within]
    by_cases h : Relieved dpdk d call
    · rw [ih (h.length_run_le hle)]
      constructor
      · exact fun hw => ⟨h, hw.2.2⟩
      · rintro ⟨-, hrun⟩
        exact ⟨hle, fun hcall hge => bursts_run_of_full hcall (Nat.le_antisymm hle hge), hrun⟩
    · refine iff_of_false (fun hw => ?_) fun hrun => h hrun.1
      have hlen := hw.2.2.length_le
      rw [length_run_of_not_relieved h] at hlen
      exact absurd hlen (Nat.not_succ_le_self _)

end Length

/-- **The length of the queue**: it stays within a burst in exactly the runs in which, whenever a
packet is added to a full queue, the card takes one of the burst or there is no buffer. -/
theorem queue_within_iff (dpdk : Dpdk) (calls : List Call) :
    Within dpdk {} calls ↔ Along (Call.run dpdk) (Relieved dpdk) {} calls :=
  within_iff_relieved (Nat.zero_le _) calls

end WsGateway.Network.Device

namespace WsGateway.Network

/-! ### A card that takes nothing -/

/-- A card that takes everything and a pool that never runs out. -/
def sampleDpdk : Dpdk where
  pktmbufAlloc _ := some fun _ => 0
  dataRoomSize := 2176
  ethTxBurst _ := 1
  ipv4Cksum _ _ := 0
  ipv4UdptcpCksum _ _ _ := 0

namespace Device

/-- With a card that takes no packets. -/
def refusingDpdk : Dpdk := { sampleDpdk with ethTxBurst := fun _ => 0 }

/-- With such a card the queue takes a thirty-third packet, and the next one without a flush. -/
theorem queue_grows :
    ¬ Within refusingDpdk {} (List.replicate 34 (.enqueueForSend 42)) ∧
      ((List.replicate 34 (.enqueueForSend 42)).foldl (Call.run refusingDpdk) {}).bursts = 1 := by
  have hrun : ((List.replicate 34 (.enqueueForSend 42)).foldl
      (Call.run refusingDpdk) {}).sendMbufs.length = 34 ∧
      ((List.replicate 34 (.enqueueForSend 42)).foldl (Call.run refusingDpdk) {}).bursts = 1 := by
    decide +kernel
  refine ⟨fun h => ?_, hrun.2⟩
  have hlen := h.length_foldl_le
  rw [hrun.1] at hlen
  exact absurd hlen (by decide)

end Device

end WsGateway.Network
