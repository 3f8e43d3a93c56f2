import WsGateway.Library.Throwing

/-!
# Loops over tables

A loop that counts a 16-bit index up to a bound, with the induction rule for its
invariants, and a table whose subscript does not look at the bounds. The table
keeps the subscripts it was used with, so that `InBounds` can say afterwards that
all of them named an element.
-/

namespace Library

universe u

variable {ε σ : Type u}

/-! ## Counting -/

theorem toNat_succ_of_lt {i last : UInt16} (h : i < last) : (i + 1).toNat = i.toNat + 1 := by
  have hlt := UInt16.lt_iff_toNat_lt.mp h
  have hlast := last.toNat_lt
  rw [UInt16.toNat_add, UInt16.toNat_one]
  omega

/-- `for (; i < last; i++) body(i);` -/
def countTo (last : UInt16) (body : UInt16 → EStateM ε σ PUnit) (i : UInt16) :
    EStateM ε σ PUnit :=
  if i < last then body i >>= fun _ => countTo last body (i + 1) else pure ⟨⟩
termination_by last.toNat - i.toNat
decreasing_by
  rename_i h
  have hlt := UInt16.lt_iff_toNat_lt.mp h
  rw [toNat_succ_of_lt h]
  omega

/-- What holds at the start, and passes from each index to the next, holds at the end. -/
theorem Ends.countTo {last : UInt16} {body : UInt16 → EStateM ε σ PUnit} {I : Nat → σ → Prop}
    {E : ε → σ → Prop}
    (hbody : ∀ i s, i < last → I i.toNat s → Ends (body i) s (fun _ t => I (i.toNat + 1) t) E)
    {i : UInt16} {s : σ} (hi : i ≤ last) (hs : I i.toNat s) :
    Ends (countTo last body i) s (fun _ t => I last.toNat t) E := by
  -- by induction on the number of rounds that are left
  obtain ⟨n, hn⟩ : ∃ n, n = last.toNat - i.toNat := ⟨_, rfl⟩
  have hle := UInt16.le_iff_toNat_le.mp hi
  induction n generalizing i s with
  | zero =>
    have heq : i.toNat = last.toNat := by omega
    rw [Library.countTo, if_neg (by rw [UInt16.lt_iff_toNat_lt]; omega)]
    exact Ends.ret (heq ▸ hs)
  | succ n ih =>
    have hlt : i < last := by rw [UInt16.lt_iff_toNat_lt]; omega
    have hsucc := toNat_succ_of_lt hlt
    rw [Library.countTo, if_pos hlt]
    refine Ends.seq (hbody i s hlt hs) fun _ t ht => ?_
    rw [← hsucc] at ht
    have hle' : (i + 1).toNat ≤ last.toNat := by omega
    exact ih (UInt16.le_iff_toNat_le.mpr hle') ht (by omega) hle'

/-! ## Subscripts -/

/-- A table with the subscripts it was used with. -/
structure Table (α : Type u) where
  elems : List α
  subscripts : List Nat

namespace Table

variable {α : Type u} {table : Table α}

def empty : Table α := ⟨[], []⟩

def ofSize (n : Nat) (a : α) : Table α := ⟨List.replicate n a, []⟩

/-- Every subscript named an element. -/
def InBounds (table : Table α) : Prop := ∀ i ∈ table.subscripts, i < table.elems.length

/-- The element at `i`, if there is one. -/
def read (i : Nat) : EStateM ε (Table α) (Option α) := do
  let table ← get
  modify fun table => { table with subscripts := table.subscripts ++ [i] }
  return table.elems[i]?

/-- Change the element at `i`, if there is one. -/
def update (i : Nat) (f : α → α) : EStateM ε (Table α) PUnit :=
  modify fun table => ⟨table.elems.modify i f, table.subscripts ++ [i]⟩

theorem inBounds_ofSize (n : Nat) (a : α) : (ofSize n a).InBounds := nofun

theorem inBounds_concat {elems : List α} {subscripts : List Nat} {i : Nat} :
    InBounds ⟨elems, subscripts ++ [i]⟩ ↔ InBounds ⟨elems, subscripts⟩ ∧ i < elems.length := by
  simp [InBounds, or_imp, forall_and]

theorem InBounds.update {i : Nat} (h : table.InBounds) (hi : i < table.elems.length)
    (f : α → α) : InBounds ⟨table.elems.modify i f, table.subscripts ++ [i]⟩ := by
  refine inBounds_concat.mpr ⟨fun j hj => ?_, by rwa [List.length_modify]⟩
  rw [List.length_modify]
  exact h j hj

end Table

end Library
