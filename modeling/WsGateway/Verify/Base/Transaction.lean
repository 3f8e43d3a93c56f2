import WsGateway.Verify.Base.Queue

/-!
# Read transactions

A `ReadTransaction` reads through a cursor of its own over the content at the time
it was opened; the handshake parsers read through one and commit it at the end.
Its cursor after any reads is the number of bytes that the same reads, made on the
stream, have popped there. So both return the same, and `commit` moves the stream
to where the direct reads would have moved it.
-/

namespace WsGateway.Stream

open Library

/-- The calls that both classes have, on objects of the types `ι` names. -/
inductive Read (ι : Type) where
  | pop (n : Nat)
  | popObject (i : ι)
  | peek (n : Nat)
  | peekObject (i : ι)

/-- The call as one on the stream. -/
def Read.op {ι : Type} : Read ι → Op ι
  | .pop n => .pop n
  | .popObject i => .popObject i
  | .peek n => .peek n
  | .peekObject i => .peekObject i

section Reads

variable {ι : Type} (obj : ι → Type) [∀ i, Packed (obj i)]

/-- The call on a transaction. -/
def Read.inside (r : Read ι) (t : ReadTransaction) : Out obj × ReadTransaction :=
  match r with
  | .pop n =>
    match t.pop n with
    | some (bytes, t') => (.bytes (some bytes), t')
    | none => (.bytes none, t)
  | .popObject i =>
    match t.popObject (obj i) with
    | some (object, t') => (.object i (some object), t')
    | none => (.object i none, t)
  | .peek n => (.bytes (t.peek n), t)
  | .peekObject i => (.object i (t.peekObject (obj i)), t)

def insides : List (Read ι) → ReadTransaction → List (Out obj) × ReadTransaction
  | [], t => ([], t)
  | r :: rs, t =>
    let res := r.inside obj t
    let rest := insides rs res.2
    (res.1 :: rest.1, rest.2)

/-- A parser: it opens a transaction, reads through it and, if it is content, commits. -/
def transact (reads : List (Read ι)) (commits : Bool) :
    Prog Stream (List (Out obj) × Option (List UInt8)) := do
  let s ← get
  let (outs, t) := insides obj reads s.readTransaction
  if commits then
    let bytes ← commit t
    return (outs, some bytes)
  return (outs, none)

/-- The bytes a call on the stream pops; a failed one pops nothing. -/
def Read.popped (r : Read ι) (s : Stream) : List UInt8 :=
  match r with
  | .pop n => (s.peek n).getD []
  | .popObject i => (s.peek (Packed.size (obj i))).getD []
  | .peek _ => []
  | .peekObject _ => []

/-- The bytes popped by a sequence of calls on the stream, in order. -/
def poppedBytes : List (Read ι) → Stream → List UInt8
  | [], _ => []
  | r :: rs, s => r.popped obj s ++ poppedBytes rs (after (call obj r.op s))

end Reads

/-! ## Positions -/

section Positions

variable (s : Stream)

/-- Nothing read from a stream that is at the front when it is empty leaves it as it is. -/
theorem advance_zero (hreset : s.read = s.write → s.read = 0) :
    s.advance 0 (Nat.zero_le _) = s := by
  unfold advance
  by_cases h : s.read + 0 = s.write
  · rw [if_pos h]
    have hread : s.read = 0 := hreset h
    have hwrite : s.write = 0 := h.symm.trans hread
    cases s
    cases hread
    cases hwrite
    rfl
  · rw [if_neg h]
    rfl

theorem advance_advance {m n : Nat} (hm : m ≤ s.size) (hn : n ≤ (s.advance m hm).size)
    (hmn : m + n ≤ s.size) : (s.advance m hm).advance n hn = s.advance (m + n) hmn := by
  have hsize : (s.advance m hm).size = s.size - m := s.size_advance hm
  have hle := s.read_le_write
  by_cases hall : s.read + m = s.write
  · -- the first read has emptied the stream, so the second one read nothing
    have hzero : n = 0 := by
      unfold size at hsize hmn
      omega
    subst hzero
    have hfirst : s.advance m hm = { s with
        read := 0
        write := 0
        read_le_write := Nat.le_refl 0
        write_le_capacity := Nat.zero_le _ } := if_pos hall
    have hboth : s.advance (m + 0) hmn = s.advance m hm := rfl
    rw [hboth]
    refine advance_zero _ fun _ => ?_
    rw [hfirst]
  · unfold advance
    simp only [if_neg hall, Nat.add_assoc]

end Positions

namespace ReadTransaction

variable (t : ReadTransaction)

theorem peek_eq_pop (n : Nat) : t.peek n = (t.pop n).map Prod.fst := by
  unfold peek pop
  split <;> rfl

theorem peekObject_eq_popObject (α : Type) [Packed α] :
    t.peekObject α = (t.popObject α).map Prod.fst := by
  unfold peekObject popObject pop
  split <;> rfl

end ReadTransaction

/-! ## Calls -/

section Calls

variable {ι : Type} (obj : ι → Type) [∀ i, Packed (obj i)] {s : Stream} {k : Nat}

/-- The transaction whose cursor has passed `k` bytes sees what the stream holds after them. -/
theorem rest_skip_readTransaction (hk : k ≤ s.size) :
    (s.readTransaction.skip k).rest = (s.advance k hk).content := by
  rw [ReadTransaction.rest_skip, rest_readTransaction, content_advance]

/-- **One call**: where `k` bytes were read, it returns the same on the transaction and on the
stream, and both go on to the same place. -/
theorem call_inside (r : Read ι) (hk : k ≤ s.size) : ∃ k', ∃ hk' : k' ≤ s.size, k ≤ k' ∧
    call obj r.op (s.advance k hk) =
      .ok (r.inside obj (s.readTransaction.skip k)).1 (s.advance k' hk') ∧
    (r.inside obj (s.readTransaction.skip k)).2 = s.readTransaction.skip k' ∧
    r.popped obj (s.advance k hk) = (s.content.drop k).take (k' - k) := by
  have hrest := rest_skip_readTransaction hk
  have hlength : (s.readTransaction.skip k).rest.length = (s.advance k hk).size := by
    rw [hrest, length_content]
  have hsize : (s.advance k hk).size = s.size - k := s.size_advance hk
  have hcontent : (s.advance k hk).content = s.content.drop k := s.content_advance hk
  have hskip : ∀ n, (s.readTransaction.skip k).skip n = s.readTransaction.skip (k + n) := by
    intro n
    simp [ReadTransaction.skip]
  cases r with
  | pop n =>
    by_cases hn : n ≤ (s.advance k hk).size
    · have hpop := ReadTransaction.pop_of_le (hlength.symm ▸ hn)
      refine ⟨k + n, by omega, Nat.le_add_right k n, ?_, ?_, ?_⟩
      · rw [← s.advance_advance hk hn (by omega)]
        simp [Read.op, Read.inside, call, map_apply, pop_of_le _ hn, hpop, hrest]
      · simp [Read.inside, hpop, hskip]
      · simp [Read.popped, peek_of_le _ hn, hcontent]
    · have hn : (s.advance k hk).size < n := Nat.lt_of_not_le hn
      have hpop := ReadTransaction.pop_of_gt (hlength.symm ▸ hn)
      refine ⟨k, hk, Nat.le_refl k, ?_, ?_, ?_⟩
      · simp [Read.op, Read.inside, call, map_apply, pop_of_gt _ hn, hpop]
      · simp [Read.inside, hpop]
      · simp [Read.popped, peek_of_gt _ hn]
  | popObject i =>
    by_cases hn : Packed.size (obj i) ≤ (s.advance k hk).size
    · have hpop := ReadTransaction.popObject_of_le (obj i) (hlength.symm ▸ hn)
      refine ⟨k + Packed.size (obj i), by omega, Nat.le_add_right k _, ?_, ?_, ?_⟩
      · rw [← s.advance_advance hk hn (by omega)]
        simp [Read.op, Read.inside, call, map_apply, popObject_of_le _ _ hn, hpop, hrest]
      · simp [Read.inside, hpop, hskip]
      · simp [Read.popped, peek_of_le _ hn, hcontent]
    · have hn : (s.advance k hk).size < Packed.size (obj i) := Nat.lt_of_not_le hn
      have hpop := ReadTransaction.popObject_of_gt (obj i) (hlength.symm ▸ hn)
      refine ⟨k, hk, Nat.le_refl k, ?_, ?_, ?_⟩
      · simp [Read.op, Read.inside, call, map_apply, popObject_of_gt _ _ hn, hpop]
      · simp [Read.inside, hpop]
      · simp [Read.popped, peek_of_gt _ hn]
  | peek n =>
    have hpeek : (s.readTransaction.skip k).peek n = (s.advance k hk).peek n := by
      rw [ReadTransaction.peek_eq_pop]
      by_cases hn : n ≤ (s.advance k hk).size
      · rw [ReadTransaction.pop_of_le (hlength.symm ▸ hn), peek_of_le _ hn, hrest]
        rfl
      · have hn : (s.advance k hk).size < n := Nat.lt_of_not_le hn
        rw [ReadTransaction.pop_of_gt (hlength.symm ▸ hn), peek_of_gt _ hn]
        rfl
    refine ⟨k, hk, Nat.le_refl k, ?_, rfl, by simp [Read.popped]⟩
    simp [Read.op, Read.inside, call, map_apply, hpeek]
  | peekObject i =>
    have hpeek : (s.readTransaction.skip k).peekObject (obj i) =
        (s.advance k hk).peekObject (obj i) := by
      rw [ReadTransaction.peekObject_eq_popObject]
      by_cases hn : Packed.size (obj i) ≤ (s.advance k hk).size
      · rw [ReadTransaction.popObject_of_le _ (hlength.symm ▸ hn), peekObject_of_le _ _ hn, hrest]
        rfl
      · have hn : (s.advance k hk).size < Packed.size (obj i) := Nat.lt_of_not_le hn
        rw [ReadTransaction.popObject_of_gt _ (hlength.symm ▸ hn), peekObject_of_gt _ _ hn]
        rfl
    refine ⟨k, hk, Nat.le_refl k, ?_, rfl, by simp [Read.popped]⟩
    simp [Read.op, Read.inside, call, map_apply, hpeek]

/-- The same for a sequence of calls. -/
theorem calls_insides (reads : List (Read ι)) (hk : k ≤ s.size) :
    ∃ k', ∃ hk' : k' ≤ s.size, k ≤ k' ∧
      calls obj (reads.map Read.op) (s.advance k hk) =
        ((insides obj reads (s.readTransaction.skip k)).1.map some, s.advance k' hk') ∧
      (insides obj reads (s.readTransaction.skip k)).2 = s.readTransaction.skip k' ∧
      poppedBytes obj reads (s.advance k hk) = (s.content.drop k).take (k' - k) := by
  induction reads generalizing k with
  | nil => exact ⟨k, hk, Nat.le_refl k, rfl, rfl, by simp [poppedBytes]⟩
  | cons r rs ih =>
    obtain ⟨k₁, hk₁, hle₁, hcall, hinside, hpopped⟩ := call_inside obj r hk
    obtain ⟨k₂, hk₂, hle₂, hcalls, hinsides, hpoppeds⟩ := ih hk₁
    refine ⟨k₂, hk₂, Nat.le_trans hle₁ hle₂, ?_, ?_, ?_⟩
    · simp only [List.map_cons, calls, insides, hcall, after_ok, hinside, hcalls, output]
    · simp only [insides, hinside, hinsides]
    · -- the bytes between the two places follow those before
      have hsplit : k₂ - k = (k₁ - k) + (k₂ - k₁) := by omega
      have hplace : k + (k₁ - k) = k₁ := by omega
      rw [poppedBytes, hcall, after_ok, hpopped, hpoppeds, hsplit, List.take_add, List.drop_drop,
        hplace]

/-- **Read transactions**: on every stream that calls have led to, any reads return through a
transaction what they return on the stream itself. Without `commit` the stream stays as it is;
`commit` returns the bytes popped and leaves the stream that the direct reads leave. -/
theorem transact_eq_direct (before : List (Op ι)) (capacity : Nat) (reads : List (Read ι)) :
    let s := (calls obj before (new capacity)).2
    let direct := calls obj (reads.map Read.op) s
    ∃ outs, direct.1 = outs.map some ∧ transact obj reads false s = .ok (outs, none) s ∧
      transact obj reads true s = .ok (outs, some (poppedBytes obj reads s)) direct.2 := by
  obtain ⟨hwf, -⟩ := calls_wf obj before capacity
  intro s direct
  have hreset : s.read = s.write → s.read = 0 := by
    intro heq
    refine hwf.reset (List.length_eq_zero_iff.mp ?_)
    rw [queue_content, length_content]
    exact Nat.sub_eq_zero_of_le (Nat.le_of_eq heq.symm)
  obtain ⟨k, hk, -, hcalls, hinsides, hpopped⟩ := calls_insides obj reads (Nat.zero_le s.size)
  rw [s.advance_zero hreset] at hcalls hpopped
  have hskip : s.readTransaction.skip 0 = s.readTransaction := rfl
  rw [hskip] at hcalls hinsides
  have hcommit := commit_of_le (t := s.readTransaction.skip k) (by simpa using hk)
  simp only [ReadTransaction.readIt_skip, readIt_readTransaction, Nat.zero_add] at hcommit
  refine ⟨(insides obj reads s.readTransaction).1, congrArg Prod.fst hcalls, rfl, ?_⟩
  rw [transact, bind_of_ok (get_apply s)]
  dsimp only
  rw [hinsides, if_pos rfl, bind_of_ok hcommit, pure_apply, hpopped, congrArg Prod.snd hcalls]
  rfl

end Calls

end WsGateway.Stream
