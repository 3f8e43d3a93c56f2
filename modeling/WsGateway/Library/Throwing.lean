import Mathlib.Logic.Relation

/-!
# Programs with state and exceptions

`EStateM ε σ` keeps the state a program had reached when it threw, as a method
of a class does when an exception leaves it. This file gives the rules used to
reason about such programs: how a `bind` runs, `zoom` for a method called on a
member of a larger object, and `Moves R`, which says that a program, whether it
returns or throws, relates the state before it to the state after it by `R`.
-/

namespace Library

universe u

variable {ε σ τ α β : Type u}

/-- The state a run leaves behind, returned or thrown. -/
def after : EStateM.Result ε σ α → σ
  | .ok _ s => s
  | .error _ s => s

@[simp] theorem after_ok (a : α) (s : σ) : after (.ok a s : EStateM.Result ε σ α) = s := rfl

@[simp] theorem after_error (e : ε) (s : σ) : after (.error e s : EStateM.Result ε σ α) = s := rfl

/-- Whether a run ended in an exception. -/
def threw : EStateM.Result ε σ α → Bool
  | .ok _ _ => false
  | .error _ _ => true

@[simp] theorem threw_ok (a : α) (s : σ) : threw (.ok a s : EStateM.Result ε σ α) = false := rfl

@[simp] theorem threw_error (e : ε) (s : σ) :
    threw (.error e s : EStateM.Result ε σ α) = true := rfl

/-- A run without result that did not throw has returned. -/
theorem eq_ok_of_not_threw {r : EStateM.Result ε σ PUnit} (h : threw r = false) :
    r = .ok ⟨⟩ (after r) := by
  cases r with
  | ok a s => rfl
  | error e s => cases h

/-! ## Running -/

section Running

variable {x : EStateM ε σ α} {f : α → EStateM ε σ β} {s : σ}

@[simp] theorem pure_apply (a : α) (s : σ) : (pure a : EStateM ε σ α) s = .ok a s := rfl

@[simp] theorem throw_apply (e : ε) (s : σ) : (throw e : EStateM ε σ α) s = .error e s := rfl

@[simp] theorem get_apply (s : σ) : (get : EStateM ε σ σ) s = .ok s s := rfl

@[simp] theorem modify_apply (g : σ → σ) (s : σ) :
    (modify g : EStateM ε σ PUnit) s = .ok ⟨⟩ (g s) := rfl

theorem bind_apply (x : EStateM ε σ α) (f : α → EStateM ε σ β) (s : σ) :
    (x >>= f) s = match x s with
      | .ok a t => f a t
      | .error e t => .error e t := rfl

theorem map_apply (g : α → β) (x : EStateM ε σ α) (s : σ) :
    (g <$> x) s = match x s with
      | .ok a t => .ok (g a) t
      | .error e t => .error e t := rfl

theorem bind_of_ok {a : α} {t : σ} (h : x s = .ok a t) : (x >>= f) s = f a t := by
  rw [bind_apply, h]

theorem bind_of_error {e : ε} {t : σ} (h : x s = .error e t) : (x >>= f) s = .error e t := by
  rw [bind_apply, h]

/-- A sequence that returns has returned from its first part. -/
theorem bind_eq_ok {b : β} {t : σ} (h : (x >>= f) s = .ok b t) :
    ∃ a r, x s = .ok a r ∧ f a r = .ok b t := by
  rw [bind_apply] at h
  cases hx : x s with
  | ok a r => rw [hx] at h; exact ⟨a, r, rfl, h⟩
  | error e r => rw [hx] at h; cases h

end Running

/-! ## Calls on a part of the state -/

/-- Run `x` on the part of the state that `get` reads and `set` puts back. -/
def zoom (get : σ → τ) (set : σ → τ → σ) (x : EStateM ε τ α) : EStateM ε σ α := fun s =>
  match x (get s) with
  | .ok a t => .ok a (set s t)
  | .error e t => .error e (set s t)

section Zoom

variable {get : σ → τ} {set : σ → τ → σ} {x : EStateM ε τ α} {s : σ} {t : τ}

theorem zoom_of_ok {a : α} (h : x (get s) = .ok a t) : zoom get set x s = .ok a (set s t) := by
  simp only [zoom, h]

theorem zoom_of_error {e : ε} (h : x (get s) = .error e t) :
    zoom get set x s = .error e (set s t) := by
  simp only [zoom, h]

theorem after_zoom (get : σ → τ) (set : σ → τ → σ) (x : EStateM ε τ α) (s : σ) :
    after (zoom get set x s) = set s (after (x (get s))) := by
  unfold zoom
  cases x (get s) <;> rfl

theorem threw_zoom (get : σ → τ) (set : σ → τ → σ) (x : EStateM ε τ α) (s : σ) :
    threw (zoom get set x s) = threw (x (get s)) := by
  unfold zoom
  cases x (get s) <;> rfl

/-- A part of a part is a part. -/
theorem zoom_zoom {υ : Type u} (get : σ → τ) (set : σ → τ → σ) (get' : τ → υ) (set' : τ → υ → τ)
    (x : EStateM ε υ α) : zoom get set (zoom get' set' x) =
      zoom (fun s => get' (get s)) (fun s u => set s (set' (get s) u)) x := by
  funext s
  simp only [zoom]
  cases x (get' (get s)) <;> rfl

/-- The rest of the state makes no difference if the call overwrites it. -/
theorem zoom_congr {s' : σ} (h : x (get s) = x (get s')) (hset : ∀ t, set s t = set s' t) :
    zoom get set x s = zoom get set x s' := by
  unfold zoom
  rw [h]
  cases x (get s') with
  | ok a t => exact congrArg (EStateM.Result.ok a) (hset t)
  | error e t => exact congrArg (EStateM.Result.error e) (hset t)

/-- A call on a part returns exactly when the part's program returns. -/
theorem zoom_eq_ok {a : α} {s' : σ} (h : zoom get set x s = .ok a s') :
    ∃ t, x (get s) = .ok a t ∧ s' = set s t := by
  unfold zoom at h
  cases hx : x (get s) with
  | ok b t => rw [hx] at h; cases h; exact ⟨t, rfl, rfl⟩
  | error e t => rw [hx] at h; cases h

/-- And it throws what the part's program throws. -/
theorem zoom_eq_error {e : ε} {s' : σ} (h : zoom get set x s = .error e s') :
    ∃ t, x (get s) = .error e t ∧ s' = set s t := by
  unfold zoom at h
  cases hx : x (get s) with
  | ok a t => rw [hx] at h; cases h
  | error e' t => rw [hx] at h; cases h; exact ⟨t, rfl, rfl⟩

end Zoom

/-! ## Results up to a view of the state -/

/-- The result with a view of its state in place of the state. -/
def viewed (view : σ → τ) : EStateM.Result ε σ α → EStateM.Result ε τ α
  | .ok a s => .ok a (view s)
  | .error e s => .error e (view s)

theorem after_viewed (view : σ → τ) (r : EStateM.Result ε σ α) :
    after (viewed view r) = view (after r) := by
  cases r <;> rfl

/-- A call on a part that is the same agrees up to a view in which the rest is the same. -/
theorem viewed_zoom {υ : Type u} {view : σ → υ} {get : σ → τ} {set : σ → τ → σ} {s s' : σ}
    (x : EStateM ε τ α) (h : get s = get s') (hset : ∀ t, view (set s t) = view (set s' t)) :
    viewed view (zoom get set x s) = viewed view (zoom get set x s') := by
  unfold zoom
  rw [h]
  cases x (get s') with
  | ok a t => exact congrArg (EStateM.Result.ok a) (hset t)
  | error e t => exact congrArg (EStateM.Result.error e) (hset t)

/-- Programs that agree up to a view are run one after the other. -/
theorem viewed_bind {view : σ → τ} {x y : EStateM ε σ α} {f g : α → EStateM ε σ β} {s t : σ}
    (h : viewed view (x s) = viewed view (y t))
    (hf : ∀ a s' t', x s = .ok a s' → view s' = view t' →
      viewed view (f a s') = viewed view (g a t')) :
    viewed view ((x >>= f) s) = viewed view ((y >>= g) t) := by
  rw [bind_apply, bind_apply]
  cases hx : x s with
  | ok a s' =>
    cases hy : y t with
    | ok b t' =>
      rw [hx, hy, viewed, viewed] at h
      obtain ⟨rfl, hview⟩ := EStateM.Result.ok.inj h
      exact hf a s' t' hx hview
    | error e t' => rw [hx, hy] at h; cases h
  | error e s' =>
    cases hy : y t with
    | ok b t' => rw [hx, hy] at h; cases h
    | error e' t' =>
      rw [hx, hy, viewed, viewed] at h
      obtain ⟨rfl, hview⟩ := EStateM.Result.error.inj h
      exact congrArg (EStateM.Result.error e) hview

/-! ## Pre- and postconditions -/

/-- Run from `s`, the program returns in `Q` or throws in `E`. -/
def Ends (x : EStateM ε σ α) (s : σ) (Q : α → σ → Prop) (E : ε → σ → Prop) : Prop :=
  match x s with
  | .ok a t => Q a t
  | .error e t => E e t

namespace Ends

variable {x : EStateM ε σ α} {f : α → EStateM ε σ β} {s : σ} {Q : α → σ → Prop}
  {E : ε → σ → Prop}

theorem ret {a : α} (h : Q a s) : Ends (pure a) s Q E := h

theorem raise {e : ε} (h : E e s) : Ends (throw e) s Q E := h

theorem of_ok {a : α} {t : σ} (hx : x s = .ok a t) (h : Q a t) : Ends x s Q E := by
  simpa only [Ends, hx] using h

theorem ok {a : α} {t : σ} (h : Ends x s Q E) (hx : x s = .ok a t) : Q a t := by
  simpa only [Ends, hx] using h

theorem error {e : ε} {t : σ} (h : Ends x s Q E) (hx : x s = .error e t) : E e t := by
  simpa only [Ends, hx] using h

/-- A program that cannot throw returns. -/
theorem returns (h : Ends x s Q (fun _ _ => False)) : ∃ a t, x s = .ok a t ∧ Q a t := by
  unfold Ends at h
  cases hx : x s with
  | ok a t => rw [hx] at h; exact ⟨a, t, rfl, h⟩
  | error e t => rw [hx] at h; exact h.elim

theorem mono {Q' : α → σ → Prop} {E' : ε → σ → Prop} (h : Ends x s Q E)
    (hQ : ∀ a t, Q a t → Q' a t) (hE : ∀ e t, E e t → E' e t) : Ends x s Q' E' := by
  unfold Ends at *
  cases hx : x s with
  | ok a t => rw [hx] at h; exact hQ a t h
  | error e t => rw [hx] at h; exact hE e t h

/-- What holds however the run ends holds of the state it leaves. -/
theorem after {P : σ → Prop} (h : Ends x s (fun _ t => P t) (fun _ t => P t)) :
    P (Library.after (x s)) := by
  unfold Ends at h
  cases hx : x s <;> rw [hx] at h <;> exact h

theorem of_after {P : σ → Prop} (h : P (Library.after (x s))) :
    Ends x s (fun _ t => P t) (fun _ t => P t) := by
  unfold Ends
  cases hx : x s <;> rw [hx] at h <;> exact h

/-- The rule for sequences: the second part runs from where the first returns. -/
theorem seq {Q' : β → σ → Prop} (hx : Ends x s Q E) (hf : ∀ a t, Q a t → Ends (f a) t Q' E) :
    Ends (x >>= f) s Q' E := by
  unfold Ends at *
  rw [bind_apply]
  cases hr : x s with
  | ok a t => rw [hr] at hx; exact hf a t hx
  | error e t => rw [hr] at hx; exact hx

theorem read {f : σ → EStateM ε σ β} {Q' : β → σ → Prop} (h : Ends (f s) s Q' E) :
    Ends (get >>= f) s Q' E := h

theorem update {g : σ → σ} {f : PUnit → EStateM ε σ β} {Q' : β → σ → Prop}
    (h : Ends (f ⟨⟩) (g s) Q' E) : Ends (modify g >>= f) s Q' E := h

/-- A call on a part of the state. -/
theorem member {get : σ → τ} {set : σ → τ → σ} {x : EStateM ε τ α}
    (h : Ends x (get s) (fun a t => Q a (set s t)) (fun e t => E e (set s t))) :
    Ends (zoom get set x) s Q E := by
  unfold Ends zoom at *
  cases hx : x (get s) with
  | ok a t => rw [hx] at h; exact h
  | error e t => rw [hx] at h; exact h

end Ends

/-! ## What a program does to the state -/

/-- However `x` ends, it takes the state along `R`. -/
def Moves (R : σ → σ → Prop) (x : EStateM ε σ α) : Prop := ∀ s, R s (after (x s))

namespace Moves

variable {R : σ → σ → Prop} {x : EStateM ε σ α} {f : α → EStateM ε σ β}

theorem ends (h : Moves R x) (s : σ) : Ends x s (fun _ t => R s t) (fun _ t => R s t) :=
  Ends.of_after (P := R s) (h s)

theorem mono {S : σ → σ → Prop} (h : Moves R x) (hRS : ∀ s t, R s t → S s t) : Moves S x :=
  fun s => hRS _ _ (h s)

/-- The first part of a sequence, after moves from `s₀` to `s`. -/
theorem ends_seq [IsTrans σ R] {s₀ s : σ} {Q : β → σ → Prop} (hx : Moves R x) (hs : R s₀ s)
    (hf : ∀ a t, R s₀ t → Ends (f a) t Q (fun _ t => R s₀ t)) :
    Ends (x >>= f) s Q (fun _ t => R s₀ t) := by
  refine Ends.seq ((hx.ends s).mono (fun _ _ h => h) ?_) ?_
  · exact fun _ t h => IsTrans.trans _ _ _ hs h
  · exact fun a t h => hf a t (IsTrans.trans _ _ _ hs h)

theorem of_ends (h : ∀ s, Ends x s (fun _ t => R s t) (fun _ t => R s t)) : Moves R x :=
  fun s => (h s).after

theorem of_unchanged [Std.Refl R] (h : ∀ s, after (x s) = s) : Moves R x :=
  fun s => (h s).symm ▸ Std.Refl.refl s

theorem ret [Std.Refl R] (a : α) : Moves R (pure a : EStateM ε σ α) :=
  of_unchanged fun _ => rfl

theorem raise [Std.Refl R] (e : ε) : Moves R (throw e : EStateM ε σ α) :=
  of_unchanged fun _ => rfl

theorem read [Std.Refl R] : Moves R (get : EStateM ε σ σ) :=
  of_unchanged fun _ => rfl

theorem update {g : σ → σ} (h : ∀ s, R s (g s)) : Moves R (modify g : EStateM ε σ PUnit) := h

/-- A sequence moves along a transitive relation if its parts do. -/
theorem seq [IsTrans σ R] (hx : Moves R x) (hf : ∀ a, Moves R (f a)) : Moves R (x >>= f) := by
  intro s
  have h := hx s
  rw [bind_apply]
  cases hr : x s with
  | ok a t => rw [hr] at h; exact IsTrans.trans _ _ _ h (hf a t)
  | error e t => rw [hr] at h; exact h

theorem member {S : τ → τ → Prop} {get : σ → τ} {set : σ → τ → σ} {x : EStateM ε τ α}
    (hx : Moves S x) (h : ∀ s t, S (get s) t → R s (set s t)) : Moves R (zoom get set x) := by
  intro s
  rw [after_zoom]
  exact h s _ (hx (get s))

end Moves

end Library
