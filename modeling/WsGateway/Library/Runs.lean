import Mathlib.Data.List.Basic

/-!
# Runs of a step function

A run folds a step function over a list of inputs. `Along` says that a
condition on the state before a step and on the step's input holds at every
step of a run, and `Along.invariant` is the induction rule: what every such
step preserves holds at the end of the run. Every prefix of a run is a run, so
a statement about the last state of all runs is one about all states reached.
The `trail` of a run has every input together with the state it was given in;
`IsRun` is a run that has come to a state with such a past, and
`IsRun.invariant` the induction rule for what holds of a state and its past.
`Throughout` is the same for a history that a run has recorded.
-/

namespace Library

universe u v

variable {σ : Type u} {ι : Type v} {step : σ → ι → σ}

/-- `P` holds of the state and the input at every step of the run from `s`. -/
def Along (step : σ → ι → σ) (P : σ → ι → Prop) : σ → List ι → Prop
  | _, [] => True
  | s, i :: is => P s i ∧ Along step P (step s i) is

namespace Along

variable {P Q : σ → ι → Prop} {s : σ}

@[simp] theorem nil : Along step P s [] := trivial

theorem cons {i : ι} {is : List ι} :
    Along step P s (i :: is) ↔ P s i ∧ Along step P (step s i) is := Iff.rfl

/-- What every step of the run preserves holds at its end. -/
theorem invariant {I : σ → Prop} (hstep : ∀ s i, I s → P s i → I (step s i)) {is : List ι} :
    I s → Along step P s is → I (is.foldl step s) := by
  induction is generalizing s with
  | nil => intro hs _; exact hs
  | cons i is ih => intro hs h; exact ih (hstep s i hs h.1) h.2

theorem append {is js : List ι} :
    Along step P s (is ++ js) ↔ Along step P s is ∧ Along step P (is.foldl step s) js := by
  induction is generalizing s with
  | nil => simp [Along]
  | cons i is ih => simp [Along, ih, and_assoc]

end Along

/-! ## The past of a state -/

/-- The inputs of a run, each with the state that it was given in. -/
def trail (step : σ → ι → σ) : σ → List ι → List (σ × ι)
  | _, [] => []
  | s, i :: is => (s, i) :: trail step (step s i) is

section Trail

variable {s : σ} {i : ι} {is js : List ι}

@[simp] theorem trail_nil : trail step s [] = [] := rfl

theorem trail_cons : trail step s (i :: is) = (s, i) :: trail step (step s i) is := rfl

theorem trail_append :
    trail step s (is ++ js) = trail step s is ++ trail step (is.foldl step s) js := by
  induction is generalizing s with
  | nil => rfl
  | cons i is ih => rw [List.cons_append, trail_cons, ih, trail_cons, List.foldl_cons,
      List.cons_append]

theorem trail_concat : trail step s (is ++ [i]) = trail step s is ++ [(is.foldl step s, i)] :=
  trail_append

/-- What a state and its past keep at every step holds of the last state and the whole trail. -/
theorem trail_invariant {I : List (σ × ι) → σ → Prop}
    (hstep : ∀ past s i, I past s → I (past ++ [(s, i)]) (step s i)) {past : List (σ × ι)}
    (hs : I past s) : I (past ++ trail step s is) (is.foldl step s) := by
  induction is generalizing s past with
  | nil => rwa [trail_nil, List.append_nil]
  | cons i is ih =>
    have hrest := ih (hstep past s i hs)
    rwa [List.append_assoc] at hrest

end Trail

/-- A run from one of the `start` states has come to `s`, with this past. -/
def IsRun (step : σ → ι → σ) (start : σ → Prop) (past : List (σ × ι)) (s : σ) : Prop :=
  ∃ s₀ is, start s₀ ∧ past = trail step s₀ is ∧ s = is.foldl step s₀

namespace IsRun

variable {start : σ → Prop} {past : List (σ × ι)} {s s' : σ} {i : ι}

theorem of_start (hs : start s) : IsRun step start [] s := ⟨s, [], hs, rfl, rfl⟩

theorem concat (h : IsRun step start past s) (i : ι) :
    IsRun step start (past ++ [(s, i)]) (step s i) := by
  obtain ⟨s₀, is, hs₀, rfl, rfl⟩ := h
  refine ⟨s₀, is ++ [i], hs₀, trail_concat.symm, ?_⟩
  rw [List.foldl_concat]

/-- The last step of a run, and the run before it. -/
theorem of_concat (h : IsRun step start (past ++ [(s, i)]) s') :
    IsRun step start past s ∧ s' = step s i := by
  obtain ⟨s₀, is, hs₀, hpast, rfl⟩ := h
  rcases List.eq_nil_or_concat' is with rfl | ⟨is, last, rfl⟩
  · simp at hpast
  · rw [trail_concat] at hpast
    obtain ⟨rfl, hlast⟩ := List.append_inj' hpast rfl
    obtain ⟨rfl, rfl⟩ : s = _ ∧ i = last := by simpa using hlast
    exact ⟨⟨s₀, is, hs₀, rfl, rfl⟩, by rw [List.foldl_concat]⟩

/-- What every step keeps, of the state and its past, holds in every run. -/
theorem invariant {I : List (σ × ι) → σ → Prop} (hstart : ∀ s, start s → I [] s)
    (hstep : ∀ past s i, I past s → I (past ++ [(s, i)]) (step s i))
    (h : IsRun step start past s) : I past s := by
  obtain ⟨s₀, is, hs₀, rfl, rfl⟩ := h
  have hrun : I ([] ++ trail step s₀ is) (is.foldl step s₀) :=
    trail_invariant hstep (hstart s₀ hs₀)
  exact hrun

end IsRun

/-! ## Histories -/

/-- `P` holds of every entry of a history and the entries before it. -/
def Throughout {α : Type u} (P : List α → α → Prop) (history : List α) : Prop :=
  ∀ before a rest, history = before ++ a :: rest → P before a

namespace Throughout

variable {α : Type u} {P : List α → α → Prop} {history : List α}

/-- An entry is added at the end. -/
theorem concat {a : α} (h : Throughout P history) (ha : P history a) :
    Throughout P (history ++ [a]) := by
  intro before x rest heq
  rcases List.eq_nil_or_concat rest with rfl | ⟨rest', y, rfl⟩
  · obtain ⟨rfl, hxa⟩ := List.append_inj' heq rfl
    obtain rfl : a = x := by simpa using hxa
    exact ha
  · have heq' : history ++ [a] = (before ++ x :: rest') ++ [y] := by simpa using heq
    exact h before x rest' (List.append_inj' heq' rfl).1

theorem of_forall_mem (h : ∀ a ∈ history, ∀ before, P before a) : Throughout P history :=
  fun before a _ heq => h a (heq ▸ List.mem_append_right _ List.mem_cons_self) before

/-- An entry, with the entries before it. -/
theorem exists_of_mem (h : Throughout P history) {a : α} (ha : a ∈ history) :
    ∃ before, P before a := by
  obtain ⟨before, rest, heq⟩ := List.append_of_mem ha
  exact ⟨before, h before a rest heq⟩

end Throughout

end Library
