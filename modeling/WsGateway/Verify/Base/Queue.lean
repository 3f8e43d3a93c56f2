import WsGateway.Library.Fifo
import WsGateway.Verify.Base.Search

/-!
# The stream is a bounded queue

Every call on `base::Stream` returns what the bounded queue returns for the
content `buffer[read..write)` with a gap of `read` bytes, and throws where the
queue has no room. So a whole sequence of calls, throwing ones included, answers
as the queue does, and the positions stay inside the buffer.
-/

namespace WsGateway.Stream

open Library

/-- The calls of the class, on objects of the types `ι` names. -/
inductive Op (ι : Type) where
  | push (object : List UInt8)
  | pushBytes (bytes : ByteView)
  | pushString (str : List UInt8)
  | pop (n : Nat)
  | popObject (i : ι)
  | peek (n : Nat)
  | peekObject (i : ι)
  | shift
  | search (pattern : List UInt8)

/-- What a call pushes. -/
def Op.pushed {ι : Type} : Op ι → Option (List UInt8)
  | .push object => some object
  | .pushBytes bytes => some bytes.toList
  | .pushString str => some str
  | _ => none

/-- What the calls return. -/
inductive Out {ι : Type} (obj : ι → Type) where
  | done
  | bytes (res : Option (List UInt8))
  | object (i : ι) (res : Option (obj i))
  | position (res : Option Nat)

section Calls

variable {ι : Type} (obj : ι → Type) [∀ i, Packed (obj i)]

def call : Op ι → Prog Stream (Out obj)
  | .push object => do push object; return .done
  | .pushBytes bytes => do pushBytes bytes; return .done
  | .pushString str => do pushString str; return .done
  | .pop n => do return .bytes (← pop n)
  | .popObject i => do return .object i (← popObject (obj i))
  | .peek n => do return .bytes ((← get).peek n)
  | .peekObject i => do return .object i ((← get).peekObject (obj i))
  | .shift => do modify shift; return .done
  | .search pattern => do return .position ((← get).search pattern)

/-- What a call returned; nothing if it threw. -/
def output {α : Type} : EStateM.Result Error Stream α → Option α
  | .ok a _ => some a
  | .error _ _ => none

/-- A sequence of calls; one that throws leaves the stream to the next. -/
def calls : List (Op ι) → Stream → List (Option (Out obj)) × Stream
  | [], s => ([], s)
  | op :: ops, s =>
    let r := call obj op s
    let rest := calls ops (after r)
    (output r :: rest.1, rest.2)

/-! ## The queue -/

/-- The same call on the queue; nothing is returned if there is no room. -/
def queueCall (op : Op ι) (q : Fifo UInt8) : Option (Out obj) × Fifo UInt8 :=
  match op with
  | .push bs | .pushString bs =>
    match q.push bs with
    | some q' => (some .done, q')
    | none => (none, q)
  | .pushBytes bytes =>
    match q.push bytes.toList with
    | some q' => (some .done, q')
    | none => (none, q)
  | .pop n =>
    match q.pop n with
    | some (bs, q') => (some (.bytes (some bs)), q')
    | none => (some (.bytes none), q)
  | .popObject i =>
    match q.pop (Packed.size (obj i)) with
    | some (bs, q') => (some (.object i (some (Packed.decode bs))), q')
    | none => (some (.object i none), q)
  | .peek n => (some (.bytes (q.peek n)), q)
  | .peekObject i => (some (.object i ((q.peek (Packed.size (obj i))).map Packed.decode)), q)
  | .shift => (some .done, q.shift)
  -- The first occurrence; of a pattern with a negative character there is none.
  | .search pattern =>
    (some (.position ((List.range q.content.length).find? fun i =>
      pattern.isPrefixOf (q.content.drop i) && pattern.all (· < 0x80))), q)

def queueCalls : List (Op ι) → Fifo UInt8 → List (Option (Out obj)) × Fifo UInt8
  | [], q => ([], q)
  | op :: ops, q =>
    let r := queueCall obj op q
    let rest := queueCalls ops r.2
    (r.1 :: rest.1, rest.2)

end Calls

/-- The queue a stream stands for. -/
def queue (s : Stream) : Fifo UInt8 := ⟨s.capacity, s.read, s.content⟩

section Refinement

variable (s : Stream)

@[simp] theorem queue_capacity : s.queue.capacity = s.capacity := rfl

@[simp] theorem queue_gap : s.queue.gap = s.read := rfl

@[simp] theorem queue_content : s.queue.content = s.content := rfl

theorem read_add_size : s.read + s.size = s.write := by
  have h := s.read_le_write
  unfold size
  omega

theorem queue_peek (n : Nat) : s.queue.peek n = s.peek n := by
  unfold Fifo.peek
  simp only [queue_content, length_content]
  split
  · rename_i h
    rw [s.peek_of_le h]
  · rename_i h
    rw [s.peek_of_gt (by omega)]

/-- `push_bytes` has the check of the other pushes in another form. -/
theorem pushBytes_eq_pushString {bytes : ByteView} (h : s.write + bytes.size ≤ s.capacity) :
    pushBytes bytes s = pushString bytes.toList s := by
  have hroom : s.availableSuffixBytes ≥ bytes.size := by
    unfold availableSuffixBytes
    omega
  unfold pushBytes pushString
  rw [dif_pos hroom, dif_pos (by simpa using h)]
  simp

theorem pushString_queue (str : List UInt8) :
    (∃ t, pushString str s = .ok () t ∧ s.queue.push str = some t.queue) ∨
      (pushString str s = .error (.runtimeError "Out of bounds") s ∧ s.queue.push str = none ∧
        s.capacity < s.write + str.length) := by
  have hwrite := s.read_add_size
  by_cases h : s.write + str.length ≤ s.capacity
  · refine Or.inl ⟨_, dif_pos h, ?_⟩
    unfold Fifo.push
    rw [if_pos (by simpa [hwrite] using h)]
    have hsize : s.write + str.length - s.read = s.size + str.length := by omega
    have hsame := Memory.bytes_write_same s.buffer s.write str
    have hold := Memory.bytes_write_before s.buffer str (Nat.le_of_eq hwrite)
    have hnew : (s.buffer.write s.write str).bytes s.read (s.write + str.length - s.read) =
        s.content ++ str := by
      rw [hsize, Memory.bytes_add, hwrite, hsame, hold]
      rfl
    exact congrArg (fun bs => some (⟨s.capacity, s.read, bs⟩ : Fifo UInt8)) hnew.symm
  · refine Or.inr ⟨dif_neg h, ?_, by omega⟩
    unfold Fifo.push
    rw [if_neg (by simpa [hwrite] using h)]

/-- A string that is pushed stands behind the content. -/
theorem content_pushString {s t : Stream} {str : List UInt8} (h : pushString str s = .ok () t) :
    t.content = s.content ++ str ∧ t.capacity = s.capacity := by
  rcases s.pushString_queue str with ⟨t', hok, hpush⟩ | ⟨herror, -, -⟩
  · rw [h] at hok
    cases hok
    refine ⟨?_, Fifo.capacity_of_push hpush⟩
    unfold Fifo.push at hpush
    split at hpush
    · exact (congrArg Fifo.content (Option.some.inj hpush)).symm
    · cases hpush
  · rw [h] at herror
    cases herror

theorem pushBytes_queue (bytes : ByteView) :
    (∃ t, pushBytes bytes s = .ok () t ∧ s.queue.push bytes.toList = some t.queue) ∨
      (pushBytes bytes s = .error (.runtimeError "Not enough space") s ∧
        s.queue.push bytes.toList = none ∧ s.capacity < s.write + bytes.toList.length) := by
  by_cases h : s.write + bytes.size ≤ s.capacity
  · rw [s.pushBytes_eq_pushString h]
    rcases s.pushString_queue bytes.toList with hok | ⟨-, -, hfull⟩
    · exact Or.inl hok
    · rw [ByteView.length_toList] at hfull
      omega
  · have hwrite := s.read_add_size
    have hroom : ¬ s.availableSuffixBytes ≥ bytes.size := by
      have := s.write_le_capacity
      unfold availableSuffixBytes
      omega
    refine Or.inr ⟨dif_neg hroom, ?_, by simpa using h⟩
    unfold Fifo.push
    rw [if_neg (by simpa [hwrite] using h)]

theorem queue_advance {n : Nat} (h : n ≤ s.size) :
    s.queue.pop n = some (s.content.take n, (s.advance n h).queue) := by
  have hwrite := s.read_add_size
  unfold Fifo.pop
  rw [if_pos (by simpa using h)]
  have hcontent := s.content_advance h
  simp only [queue, length_content, ← hcontent, Option.some.injEq, Prod.mk.injEq, Fifo.mk.injEq,
    capacity_advance, true_and, and_true]
  unfold advance
  by_cases hn : n = s.size
  · rw [if_pos hn, if_pos (by omega)]
  · rw [if_neg hn, if_neg (by omega)]

theorem queue_pop_none {n : Nat} (h : s.size < n) : s.queue.pop n = none := by
  unfold Fifo.pop
  rw [if_neg (by simpa using h)]

theorem queue_search (pattern : List UInt8) :
    ((List.range s.queue.content.length).find? fun i =>
      pattern.isPrefixOf (s.queue.content.drop i) && pattern.all (· < 0x80)) =
      s.search pattern := by
  refine Option.ext fun i => ?_
  rw [List.find?_range_eq_some]
  simp only [queue_content, length_content, Bool.and_eq_true, List.isPrefixOf_iff_prefix,
    List.all_eq_true, decide_eq_true_eq, List.mem_range, Bool.not_eq_true', Bool.and_eq_false_iff]
  constructor
  · rintro ⟨⟨hmatch, hascii⟩, hlt, hfirst⟩
    refine search_first hascii hlt hmatch fun j hj hstarts => ?_
    rcases hfirst j hj with hno | hno
    · exact absurd (List.isPrefixOf_iff_prefix.mpr hstarts) (by simp [hno])
    · exact absurd (List.all_eq_true.mpr fun c hc => decide_eq_true (hascii c hc)) (by simp [hno])
  · intro hfound
    obtain ⟨hascii, hmatch, hfirst⟩ := search_some hfound
    refine ⟨⟨hmatch, hascii⟩, (search_eq_some.mp hfound).2, fun j hj => Or.inl ?_⟩
    rw [← Bool.not_eq_true, List.isPrefixOf_iff_prefix]
    exact hfirst j hj

theorem queue_shift : s.shift.queue = s.queue.shift := by
  simp only [queue, Fifo.shift, content_shift]
  rfl

end Refinement

section Runs

variable {ι : Type} (obj : ι → Type) [∀ i, Packed (obj i)]

/-- **One call** answers as the queue does and leaves the queue's successor. -/
theorem call_queue (op : Op ι) (s : Stream) :
    queueCall obj op s.queue = (output (call obj op s), (after (call obj op s)).queue) := by
  cases op with
  | push object =>
    rcases s.pushString_queue object with ⟨t, hok, hq⟩ | ⟨herr, hq, -⟩
    · simp [queueCall, call, push, bind_apply, hok, hq, output]
    · simp [queueCall, call, push, bind_apply, herr, hq, output]
  | pushBytes bytes =>
    rcases s.pushBytes_queue bytes with ⟨t, hok, hq⟩ | ⟨herr, hq, -⟩
    · simp [queueCall, call, bind_apply, hok, hq, output]
    · simp [queueCall, call, bind_apply, herr, hq, output]
  | pushString str =>
    rcases s.pushString_queue str with ⟨t, hok, hq⟩ | ⟨herr, hq, -⟩
    · simp [queueCall, call, bind_apply, hok, hq, output]
    · simp [queueCall, call, bind_apply, herr, hq, output]
  | pop n =>
    by_cases h : n ≤ s.size
    · simp [queueCall, call, map_apply, s.queue_advance h, s.pop_of_le h, output]
    · have h : s.size < n := by omega
      simp [queueCall, call, map_apply, s.queue_pop_none h, s.pop_of_gt h, output]
  | popObject i =>
    by_cases h : Packed.size (obj i) ≤ s.size
    · simp [queueCall, call, map_apply, s.queue_advance h, s.popObject_of_le _ h, output]
    · have h : s.size < Packed.size (obj i) := by omega
      simp [queueCall, call, map_apply, s.queue_pop_none h, s.popObject_of_gt _ h, output]
  | peek n => simp [queueCall, call, map_apply, queue_peek, output]
  | peekObject i =>
    have hpeek : s.peekObject (obj i) = (s.peek (Packed.size (obj i))).map Packed.decode := by
      unfold peekObject peek
      split <;> rfl
    simp [queueCall, call, map_apply, queue_peek, output, hpeek]
  | shift => simp [queueCall, call, bind_apply, queue_shift, output]
  | search pattern =>
    simp only [queueCall, call, queue_search]
    rfl

theorem calls_queue (ops : List (Op ι)) (s : Stream) :
    queueCalls obj ops s.queue = ((calls obj ops s).1, (calls obj ops s).2.queue) := by
  induction ops generalizing s with
  | nil => rfl
  | cons op ops ih =>
    have hcall := call_queue obj op s
    simp only [queueCalls, calls, hcall, ih]

/-- What the operations of the queue preserve, a call does. -/
theorem queueCall_invariant {I : Fifo UInt8 → Prop}
    (hpush : ∀ q q' bs, q.push bs = some q' → I q → I q')
    (hpop : ∀ q q' n bs, q.pop n = some (bs, q') → I q → I q') (hshift : ∀ q, I q → I q.shift)
    (op : Op ι) {q : Fifo UInt8} (h : I q) : I (queueCall obj op q).2 := by
  cases op with
  | push bs | pushString bs =>
    simp only [queueCall]
    split
    · rename_i hq
      exact hpush _ _ _ hq h
    · exact h
  | pushBytes bytes =>
    simp only [queueCall]
    split
    · rename_i hq
      exact hpush _ _ _ hq h
    · exact h
  | pop n =>
    simp only [queueCall]
    split
    · rename_i hq
      exact hpop _ _ _ _ hq h
    · exact h
  | popObject i =>
    simp only [queueCall]
    split
    · rename_i hq
      exact hpop _ _ _ _ hq h
    · exact h
  | shift => exact hshift _ h
  | peek n => exact h
  | peekObject i => exact h
  | search pattern => exact h

/-- The invariants of the queue over a run. -/
theorem queueCalls_wf (ops : List (Op ι)) {q : Fifo UInt8} (h : q.Wf) :
    (queueCalls obj ops q).2.Wf ∧ (queueCalls obj ops q).2.capacity = q.capacity := by
  induction ops generalizing q with
  | nil => exact ⟨h, rfl⟩
  | cons op ops ih =>
    have hstep : (queueCall obj op q).2.Wf ∧ (queueCall obj op q).2.capacity = q.capacity := by
      refine queueCall_invariant obj (I := fun q' => q'.Wf ∧ q'.capacity = q.capacity)
        ?_ ?_ ?_ op ⟨h, rfl⟩
      · intro q₁ q₂ bs hpush hq
        exact ⟨hq.1.push hpush, (Fifo.capacity_of_push hpush).trans hq.2⟩
      · intro q₁ q₂ n bs hpop hq
        exact ⟨hq.1.pop hpop, (Fifo.capacity_of_pop hpop).trans hq.2⟩
      · intro q₁ hq
        exact ⟨hq.1.shift, hq.2⟩
    obtain ⟨hwf, hcapacity⟩ := ih hstep.1
    exact ⟨hwf, hcapacity.trans hstep.2⟩

theorem calls_wf (ops : List (Op ι)) (capacity : Nat) :
    (calls obj ops (new capacity)).2.queue.Wf ∧
      (calls obj ops (new capacity)).2.capacity = capacity := by
  have h := queueCalls_wf obj ops (Fifo.wf_new capacity)
  have hnew : (new capacity).queue = Fifo.new capacity := rfl
  rw [← hnew, calls_queue] at h
  exact h

/-- A push throws where the queue has no room, and then changes nothing. -/
theorem threw_push_iff {op : Op ι} {bs : List UInt8} (hop : op.pushed = some bs) (s : Stream) :
    (threw (call obj op s) = true ↔ s.capacity < s.write + bs.length) ∧
      (threw (call obj op s) = true → after (call obj op s) = s) := by
  have hok : ∀ {t : Stream}, s.queue.push bs = some t.queue → ¬ s.capacity < s.write + bs.length := by
    intro t hpush
    have hwrite := s.read_add_size
    unfold Fifo.push at hpush
    split at hpush
    · rename_i hroom
      simp only [queue_gap, queue_content, length_content, queue_capacity] at hroom
      omega
    · cases hpush
  cases op with
  | push object =>
    cases hop
    rcases s.pushString_queue bs with ⟨t, hcall, hpush⟩ | ⟨hcall, -, hfull⟩
    · simpa [call, push, bind_apply, hcall] using hok hpush
    · simpa [call, push, bind_apply, hcall] using hfull
  | pushBytes bytes =>
    cases hop
    rcases s.pushBytes_queue bytes with ⟨t, hcall, hpush⟩ | ⟨hcall, -, hfull⟩
    · simpa [call, bind_apply, hcall] using hok hpush
    · simpa [call, bind_apply, hcall] using hfull
  | pushString str =>
    cases hop
    rcases s.pushString_queue bs with ⟨t, hcall, hpush⟩ | ⟨hcall, -, hfull⟩
    · simpa [call, bind_apply, hcall] using hok hpush
    · simpa [call, bind_apply, hcall] using hfull
  | _ => cases hop

/-- **The stream refines the bounded queue**: every sequence of calls returns what the queue
returns and leaves its content; the positions stay inside the buffer, `read` points at a byte of it,
and a push throws, without effect, exactly when there is no room behind the content, which after
`shift` is all the room there is. -/
theorem calls_refine_fifo {capacity : Nat} (hpos : 0 < capacity) (ops : List (Op ι)) :
    let s := (calls obj ops (new capacity)).2
    queueCalls obj ops (Fifo.new capacity) = ((calls obj ops (new capacity)).1, s.queue) ∧
      s.capacity = capacity ∧ s.read ≤ s.write ∧ s.write ≤ capacity ∧
      (s.read = s.write → s.read = 0 ∧ s.write = 0) ∧ s.read < capacity ∧
      ∀ op bs, op.pushed = some bs →
        (threw (call obj op s) = true ↔ capacity < s.write + bs.length) ∧
        (threw (call obj op s) = true → after (call obj op s) = s) ∧
        (threw (call obj op s.shift) = true ↔ capacity < s.size + bs.length) := by
  obtain ⟨hwf, hcapacity⟩ := calls_wf obj ops capacity
  have hrefine := calls_queue obj ops (new capacity)
  generalize calls obj ops (new capacity) = r at *
  obtain ⟨outs, s⟩ := r
  dsimp only at *
  have hwrite := s.read_add_size
  have hreset : s.read = s.write → s.read = 0 ∧ s.write = 0 := by
    intro heq
    have hempty : s.content = [] := List.length_eq_zero_iff.mp (by rw [length_content]; omega)
    have hzero : s.read = 0 := hwf.reset hempty
    omega
  have hle := s.read_le_write
  have hcap := s.write_le_capacity
  refine ⟨hrefine, hcapacity, hle, hcapacity ▸ hcap, hreset, by omega, ?_⟩
  intro op bs hop
  obtain ⟨hiff, hsame⟩ := threw_push_iff obj hop s
  exact ⟨hcapacity ▸ hiff, hsame, hcapacity ▸ (threw_push_iff obj hop s.shift).1⟩

end Runs

instance : Packed UInt8 where
  size := 1
  decode bs := bs.getD 0 0

/-- Two bytes in, one byte out, and no room for a third before `shift`. -/
theorem calls_refine_fifo_two :
    (calls (fun _ : Unit => UInt8) [.push [1, 2], .popObject (), .push [3], .shift, .push [4]]
      (new 2)).2.content = [2, 4] := by
  have h := calls_refine_fifo (fun _ : Unit => UInt8) (Nat.zero_lt_two)
    [.push [1, 2], .popObject (), .push [3], .shift, .push [4]]
  exact (congrArg (fun r => r.2.content) h.1).symm

end WsGateway.Stream
