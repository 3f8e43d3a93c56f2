import Mathlib.Data.List.Basic

/-!
# A bounded queue with a gap

A first-in first-out queue over a buffer of fixed capacity whose content need not
start at the front of the buffer. Room is counted behind the content only, so
popping makes no room until the queue runs empty or `shift` closes the gap.
-/

namespace Library

universe u

structure Fifo (α : Type u) where
  capacity : Nat
  /-- The free places in front of the content. -/
  gap : Nat
  content : List α

namespace Fifo

variable {α : Type u}

def new (capacity : Nat) : Fifo α := ⟨capacity, 0, []⟩

/-- Append, or nothing if there is no room behind the content. -/
def push (xs : List α) (q : Fifo α) : Option (Fifo α) :=
  if q.gap + q.content.length + xs.length ≤ q.capacity then
    some { q with content := q.content ++ xs }
  else none

/-- The first `n` elements, or nothing if there are fewer. -/
def peek (n : Nat) (q : Fifo α) : Option (List α) :=
  if n ≤ q.content.length then some (q.content.take n) else none

/-- Take the first `n` elements; an emptied queue has no gap. -/
def pop (n : Nat) (q : Fifo α) : Option (List α × Fifo α) :=
  if n ≤ q.content.length then
    some (q.content.take n, { q with
      gap := if n = q.content.length then 0 else q.gap + n
      content := q.content.drop n })
  else none

def shift (q : Fifo α) : Fifo α := { q with gap := 0 }

/-- The content lies inside the buffer, and there is no gap in front of nothing. -/
structure Wf (q : Fifo α) : Prop where
  fits : q.gap + q.content.length ≤ q.capacity
  reset : q.content = [] → q.gap = 0

variable {q q' : Fifo α}

theorem wf_new (capacity : Nat) : (new capacity : Fifo α).Wf := ⟨Nat.zero_le _, fun _ => rfl⟩

theorem Wf.push {xs : List α} (h : q.Wf) (hpush : q.push xs = some q') : q'.Wf := by
  unfold Fifo.push at hpush
  split at hpush
  · rename_i hroom
    cases hpush
    refine ⟨by simpa [Nat.add_assoc] using hroom, ?_⟩
    intro hempty
    exact h.reset (List.append_eq_nil_iff.mp hempty).1
  · cases hpush

theorem Wf.pop {n : Nat} {xs : List α} (h : q.Wf) (hpop : q.pop n = some (xs, q')) : q'.Wf := by
  unfold Fifo.pop at hpop
  split at hpop
  · rename_i hle
    have hfits := h.fits
    cases hpop
    constructor
    · simp only [List.length_drop]
      split <;> omega
    · intro hempty
      rw [List.drop_eq_nil_iff] at hempty
      exact if_pos (Nat.le_antisymm hle hempty)
  · cases hpop

theorem Wf.shift (h : q.Wf) : q.shift.Wf := by
  refine ⟨?_, fun _ => rfl⟩
  have hfits := h.fits
  simp only [Fifo.shift]
  omega

theorem capacity_of_push {xs : List α} (h : q.push xs = some q') : q'.capacity = q.capacity := by
  unfold Fifo.push at h
  split at h
  · cases h
    rfl
  · cases h

theorem capacity_of_pop {n : Nat} {xs : List α} (h : q.pop n = some (xs, q')) :
    q'.capacity = q.capacity := by
  unfold Fifo.pop at h
  split at h
  · cases h
    rfl
  · cases h

end Fifo

end Library
