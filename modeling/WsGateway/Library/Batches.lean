import Mathlib.Data.List.ReduceOption

/-!
# Reading batches one element at a time

A source hands out batches, numbered from `0`. A reader takes one element at a time
and fetches the next batch when it has used up the last one. `reading batch pending k n`
is what it has taken after `n` steps if it holds `pending` and batch `k` comes next.
The batches have to be non-empty for the reader to get something at every step; `told`
makes them so, with an answer for an empty batch as well.
-/

namespace Library

universe u v

variable {α : Type u} {β : Type v}

/-- The first `n` elements of those held and of the batches from `k` on. -/
def reading (batch : Nat → List β) (pending : List β) (k n : Nat) : List β :=
  (pending ++ (List.range' k n).flatMap batch).take n

section Reading

variable {batch : Nat → List β}

/-- Non-empty batches have an element for every step. -/
theorem le_length_flatMap_range' (h : ∀ k, batch k ≠ []) (k n : Nat) :
    n ≤ ((List.range' k n).flatMap batch).length := by
  induction n generalizing k with
  | zero => exact Nat.zero_le _
  | succ n ih =>
    have hpos : 0 < (batch k).length := List.length_pos_of_ne_nil (h k)
    have hle := ih (k + 1)
    rw [List.range'_succ, List.flatMap_cons, List.length_append]
    omega

@[simp] theorem reading_zero (pending : List β) (k : Nat) : reading batch pending k 0 = [] := by
  simp [reading]

@[simp] theorem length_reading (h : ∀ k, batch k ≠ []) (pending : List β) (k n : Nat) :
    (reading batch pending k n).length = n := by
  have hle := le_length_flatMap_range' h k n
  rw [reading, List.length_take, List.length_append]
  omega

/-- One more batch than needed makes no difference. -/
theorem reading_eq_of_le (h : ∀ k, batch k ≠ []) (pending : List β) (k : Nat) {n m : Nat}
    (hnm : n ≤ m) : (pending ++ (List.range' k m).flatMap batch).take n = reading batch pending k n := by
  have hsplit : List.range' k m = List.range' k n ++ List.range' (k + n) (m - n) := by
    rw [List.range'_append_1, Nat.add_sub_cancel' hnm]
  have hle := le_length_flatMap_range' h k n
  rw [reading, hsplit, List.flatMap_append, ← List.append_assoc, List.take_append_of_le_length]
  rw [List.length_append]
  omega

/-- As many steps as the next `m` batches have elements read these batches. -/
theorem reading_whole (h : ∀ k, batch k ≠ []) (k m : Nat) {n : Nat}
    (hn : ((List.range' k m).flatMap batch).length = n) :
    reading batch [] k n = (List.range' k m).flatMap batch := by
  have hm : m ≤ n := hn ▸ le_length_flatMap_range' h k m
  have hsplit : List.range' k n = List.range' k m ++ List.range' (k + m) (n - m) := by
    rw [List.range'_append_1, Nat.add_sub_cancel' hm]
  rw [reading, List.nil_append, hsplit, List.flatMap_append, ← hn, List.take_left]

/-- A step that takes an element in hand. -/
theorem reading_cons (h : ∀ k, batch k ≠ []) (b : β) (pending : List β) (k n : Nat) :
    reading batch (b :: pending) k (n + 1) = b :: reading batch pending k n := by
  rw [← reading_eq_of_le h pending k (Nat.le_succ n), reading, List.cons_append, List.take_succ_cons]

/-- A step that has to fetch a batch. -/
theorem reading_fetch {b : β} {rest : List β} {k : Nat} (hb : batch k = b :: rest) (n : Nat) :
    reading batch [] k (n + 1) = b :: reading batch rest (k + 1) n := by
  rw [reading, List.nil_append, List.range'_succ, List.flatMap_cons, hb, List.cons_append,
    List.take_succ_cons, reading]

end Reading

/-! ## Empty batches -/

/-- What a reader is told about a batch: its elements, or once that there is none. -/
def told (batch : List α) : List (Option α) :=
  if batch.isEmpty then [none] else batch.map some

@[simp] theorem told_nil : told ([] : List α) = [none] := rfl

@[simp] theorem told_cons (a : α) (batch : List α) : told (a :: batch) = some a :: batch.map some :=
  rfl

theorem told_ne_nil (batch : List α) : told batch ≠ [] := by
  cases batch <;> simp

/-- Nothing is added and nothing is left out. -/
@[simp] theorem reduceOption_told (batch : List α) : (told batch).reduceOption = batch := by
  cases batch with
  | nil => rfl
  | cons a batch => simp [List.reduceOption, List.filterMap_map]

@[simp] theorem reduceOption_flatMap_told (batches : List (List α)) :
    (batches.flatMap told).reduceOption = batches.flatten := by
  induction batches with
  | nil => rfl
  | cons batch batches ih =>
    rw [List.flatMap_cons, List.reduceOption_append, reduceOption_told, ih, List.flatten_cons]

end Library
