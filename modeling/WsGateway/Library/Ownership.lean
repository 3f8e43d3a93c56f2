import Mathlib.Data.List.Nodup
import Mathlib.Data.List.ReduceOption

/-!
# Things lent and given back

A pool lends things, and they are given back one at a time. To give back a thing that is not in
use is a fault. `Pool.Holds held` is the account beside the pool: the things in use are those
held, each held once, and there was no fault. An account may be kept in places that are empty or
hold one thing; the last section is about such places.
-/

namespace Library

universe u

variable {α : Type u}

/-- The things in use, and those given back without being in use. -/
structure Pool (α : Type u) where
  inUse : List α := []
  faults : List α := []

namespace Pool

variable {p : Pool α} {a : α} {as held held' : List α}

def lend (p : Pool α) (as : List α) : Pool α := { p with inUse := as ++ p.inUse }

/-- Different things that are not in use. -/
def Free (p : Pool α) (as : List α) : Prop := as.Nodup ∧ as.Disjoint p.inUse

/-- The things in use are those held, each once, and none was given back wrongly. -/
structure Holds (p : Pool α) (held : List α) : Prop where
  perm : List.Perm held p.inUse
  nodup : held.Nodup
  faults : p.faults = []

theorem holds_empty : Holds ({} : Pool α) [] := ⟨List.Perm.refl _, List.nodup_nil, rfl⟩

theorem Holds.congr (h : p.Holds held) (hperm : List.Perm held' held) : p.Holds held' :=
  ⟨hperm.trans h.perm, hperm.nodup_iff.mpr h.nodup, h.faults⟩

theorem Holds.mem_iff (h : p.Holds held) : a ∈ p.inUse ↔ a ∈ held := h.perm.mem_iff.symm

theorem Holds.lend (h : p.Holds held) (has : p.Free as) : (p.lend as).Holds (as ++ held) := by
  refine ⟨h.perm.append_left as, ?_, h.faults⟩
  refine List.Nodup.append has.1 h.nodup ?_
  intro a ha hheld
  exact has.2 ha (h.mem_iff.mpr hheld)

/-! ## Giving back -/

section GiveBack

variable [DecidableEq α]

def giveBack (p : Pool α) (a : α) : Pool α :=
  if a ∈ p.inUse then { p with inUse := p.inUse.erase a } else { p with faults := a :: p.faults }

def giveBackAll (p : Pool α) (as : List α) : Pool α := as.foldl giveBack p

theorem giveBack_of_mem (h : a ∈ p.inUse) :
    p.giveBack a = { p with inUse := p.inUse.erase a } := if_pos h

theorem giveBack_of_notMem (h : a ∉ p.inUse) :
    p.giveBack a = { p with faults := a :: p.faults } := if_neg h

theorem Holds.giveBack (h : p.Holds (a :: held)) : (p.giveBack a).Holds held := by
  have hmem : a ∈ p.inUse := h.mem_iff.mpr List.mem_cons_self
  rw [giveBack_of_mem hmem]
  have herase := h.perm.erase a
  rw [List.erase_cons_head] at herase
  exact ⟨herase, (List.nodup_cons.mp h.nodup).2, h.faults⟩

theorem Holds.giveBackAll (h : p.Holds (as ++ held)) : (p.giveBackAll as).Holds held := by
  induction as generalizing p with
  | nil => exact h
  | cons a as ih => exact ih h.giveBack

theorem giveBack_faults_ne_nil (h : p.faults ≠ []) (a : α) : (p.giveBack a).faults ≠ [] := by
  unfold Pool.giveBack
  split
  · exact h
  · exact List.cons_ne_nil _ _

/-- A fault stays on record. -/
theorem giveBackAll_faults_ne_nil (h : p.faults ≠ []) (as : List α) :
    (p.giveBackAll as).faults ≠ [] := by
  induction as generalizing p with
  | nil => exact h
  | cons a as ih => exact ih (giveBack_faults_ne_nil h a)

/-- Different things are given back without a fault if and only if all of them are held. -/
theorem Holds.giveBackAll_faults_iff (h : p.Holds held) (has : as.Nodup) :
    (p.giveBackAll as).faults = [] ↔ as ⊆ held := by
  induction as generalizing p held with
  | nil => exact iff_of_true h.faults (List.nil_subset _)
  | cons a as ih =>
    obtain ⟨hnotMem, hnodup⟩ := List.nodup_cons.mp has
    by_cases hmem : a ∈ held
    · have hsplit : List.Perm (a :: held.erase a) held := (List.perm_cons_erase hmem).symm
      refine (ih (h.congr hsplit).giveBack hnodup).trans ?_
      constructor
      · intro hsub
        exact List.cons_subset.mpr ⟨hmem, fun b hb => List.mem_of_mem_erase (hsub hb)⟩
      · intro hsub b hb
        have hne : b ≠ a := fun heq => hnotMem (heq ▸ hb)
        exact (List.mem_erase_of_ne hne).mpr (hsub (List.mem_cons_of_mem a hb))
    · refine iff_of_false ?_ fun hsub => hmem (hsub List.mem_cons_self)
      refine giveBackAll_faults_ne_nil ?_ as
      rw [giveBack_of_notMem fun hin => hmem (h.mem_iff.mp hin)]
      exact List.cons_ne_nil _ _

end GiveBack

end Pool

/-! ## Places -/

section Places

variable {places : List (Option α)} {i : Nat} {old : Option α}

theorem reduceOption_cons (o : Option α) (places : List (Option α)) :
    (o :: places).reduceOption = o.toList ++ places.reduceOption := by
  cases o with
  | none => exact List.reduceOption_cons_of_none _
  | some a => exact List.reduceOption_cons_of_some _ _

theorem reduceOption_map_some (as : List α) : (as.map some).reduceOption = as := by
  induction as with
  | nil => rfl
  | cons a as ih =>
    rw [List.map_cons, reduceOption_cons, ih]
    rfl

/-- What is put in a place takes the part of what was there. -/
theorem reduceOption_set_perm (h : places[i]? = some old) (new : Option α) :
    List.Perm (old.toList ++ (places.set i new).reduceOption)
      (new.toList ++ places.reduceOption) := by
  induction places generalizing i with
  | nil => cases h
  | cons o places ih =>
    cases i with
    | zero =>
      obtain rfl : o = old := Option.some.inj h
      rw [List.set_cons_zero, reduceOption_cons, reduceOption_cons]
      exact List.perm_append_comm_assoc _ _ _
    | succ i =>
      rw [List.set_cons_succ, reduceOption_cons, reduceOption_cons]
      calc List.Perm (old.toList ++ (o.toList ++ (places.set i new).reduceOption))
            (o.toList ++ (old.toList ++ (places.set i new).reduceOption)) :=
          List.perm_append_comm_assoc _ _ _
        List.Perm _ (o.toList ++ (new.toList ++ places.reduceOption)) :=
          (ih h).append_left _
        List.Perm _ (new.toList ++ (o.toList ++ places.reduceOption)) :=
          List.perm_append_comm_assoc _ _ _

/-- A place that goes away takes with it what was there. -/
theorem reduceOption_eraseIdx_perm (h : places[i]? = some old) :
    List.Perm (old.toList ++ (places.eraseIdx i).reduceOption) places.reduceOption := by
  induction places generalizing i with
  | nil => cases h
  | cons o places ih =>
    cases i with
    | zero =>
      obtain rfl : o = old := Option.some.inj h
      rw [List.eraseIdx_cons_zero, reduceOption_cons]
    | succ i =>
      rw [List.eraseIdx_cons_succ, reduceOption_cons, reduceOption_cons]
      exact (List.perm_append_comm_assoc _ _ _).trans ((ih h).append_left _)

end Places

end Library
