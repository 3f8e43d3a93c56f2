import Mathlib.Logic.Relation
import Mathlib.Data.List.Basic

/-!
# One direction of a connection

A writer numbers the elements it writes and sends pieces of them over a network that may lose,
repeat and reorder them; a reader takes a piece if it starts at or before the place it has come to,
and acknowledges how far it has come. Nothing is ever taken off the network, so that a piece or an
acknowledgement may arrive at any time, any number of times, or never.

Whatever the network does, the reader has a beginning of what was written, and the writer never
believes more to be delivered than is.
-/

namespace Library

variable {α : Type}

/-- What was written, the pieces of it on the network with the places they start at, what was
delivered, the acknowledgements on the network, and how far the writer knows of it. -/
structure Flow (α : Type) where
  written : List α
  pieces : List (Nat × List α)
  delivered : List α
  acks : List Nat
  acked : Nat

namespace Flow

/-- The piece stands at place `i`. -/
def At (xs : List α) (i : Nat) (piece : List α) : Prop := i ≤ xs.length ∧ piece <+: xs.drop i

section At

variable {xs piece : List α} {i : Nat}

theorem At.le (h : At xs i piece) : i + piece.length ≤ xs.length := by
  have hle := h.1
  have hlen := h.2.length_le
  rw [List.length_drop] at hlen
  omega

theorem At.append (h : At xs i piece) (more : List α) : At (xs ++ more) i piece := by
  refine ⟨Nat.le_trans h.1 (by simp), ?_⟩
  rw [List.drop_append_of_le_length h.1]
  exact h.2.trans (List.prefix_append _ _)

theorem at_nil (xs : List α) : At xs xs.length [] := ⟨Nat.le_refl _, List.nil_prefix⟩

theorem at_append (xs more : List α) : At (xs ++ more) xs.length more := by
  have hdrop : (xs ++ more).drop xs.length = more := List.drop_left
  exact ⟨by simp, hdrop.symm ▸ List.prefix_rfl⟩

/-- A piece that starts within a beginning makes it longer, if it goes beyond its end. -/
theorem At.extend {ys : List α} (h : At xs i piece) (hys : ys <+: xs) (hle : i ≤ ys.length) :
    ys ++ piece.drop (ys.length - i) <+: xs := by
  obtain ⟨rest, rfl⟩ := hys
  obtain ⟨-, behind, hpiece⟩ := h
  rw [List.drop_append_of_le_length hle] at hpiece
  rw [List.prefix_append_right_inj]
  have hdrop := congrArg (List.drop (ys.length - i)) hpiece
  have hlen : (ys.drop i).length = ys.length - i := List.length_drop
  rw [← hlen, List.drop_left, hlen] at hdrop
  rw [← hdrop, List.drop_append]
  exact List.prefix_append _ _

end At

/-- A step of the writer, the reader or the network. -/
inductive Step : Flow α → Flow α → Prop where
  | write (f : Flow α) (more : List α) : Step f { f with written := f.written ++ more }
  | emit (f : Flow α) (i : Nat) (piece : List α) (hat : At f.written i piece) :
      Step f { f with pieces := f.pieces ++ [(i, piece)] }
  | deliver (f : Flow α) (i : Nat) (piece : List α) (hmem : (i, piece) ∈ f.pieces)
      (hle : i ≤ f.delivered.length) :
      Step f { f with delivered := f.delivered ++ piece.drop (f.delivered.length - i) }
  | acknowledge (f : Flow α) : Step f { f with acks := f.acks ++ [f.delivered.length] }
  | learn (f : Flow α) (a : Nat) (hmem : a ∈ f.acks) (hle : f.acked ≤ a) :
      Step f { f with acked := a }

/-- Any number of steps. -/
def Steps : Flow α → Flow α → Prop := Relation.ReflTransGen Step

/-- Nothing is delivered that was not written, and nothing known as delivered that was not. -/
structure Sound (f : Flow α) : Prop where
  delivered : f.delivered <+: f.written
  pieces : ∀ i piece, (i, piece) ∈ f.pieces → At f.written i piece
  acks : ∀ a ∈ f.acks, a ≤ f.delivered.length
  acked : f.acked ≤ f.delivered.length

variable {f f' : Flow α}

theorem Step.sound (h : Step f f') (hf : Sound f) : Sound f' := by
  cases h with
  | write more =>
    refine ⟨hf.delivered.trans (List.prefix_append _ _), ?_, hf.acks, hf.acked⟩
    intro i piece hmem
    exact (hf.pieces i piece hmem).append more
  | emit i piece hat =>
    refine ⟨hf.delivered, ?_, hf.acks, hf.acked⟩
    intro j other hmem
    rcases List.mem_append.mp hmem with hmem | hmem
    · exact hf.pieces j other hmem
    · rw [List.mem_singleton] at hmem
      cases hmem
      exact hat
  | deliver i piece hmem hle =>
    have hle' : ∀ n, n ≤ f.delivered.length →
        n ≤ (f.delivered ++ piece.drop (f.delivered.length - i)).length := by
      intro n hn
      rw [List.length_append]
      omega
    exact ⟨(hf.pieces i piece hmem).extend hf.delivered hle, hf.pieces,
      fun a ha => hle' a (hf.acks a ha), hle' _ hf.acked⟩
  | acknowledge =>
    refine ⟨hf.delivered, hf.pieces, ?_, hf.acked⟩
    intro a hmem
    rcases List.mem_append.mp hmem with hmem | hmem
    · exact hf.acks a hmem
    · rw [List.mem_singleton] at hmem
      exact Nat.le_of_eq hmem
  | learn a hmem hle => exact ⟨hf.delivered, hf.pieces, hf.acks, hf.acks a hmem⟩

theorem Steps.sound (h : Steps f f') (hf : Sound f) : Sound f' := by
  induction h with
  | refl => exact hf
  | tail _ hlast ih => exact hlast.sound ih

/-- The piece that the reader waits for is delivered whole. -/
theorem Step.deliver_next {piece : List α} (hmem : (f.delivered.length, piece) ∈ f.pieces) :
    Step f { f with delivered := f.delivered ++ piece } := by
  have hstep := Step.deliver f f.delivered.length piece hmem (Nat.le_refl _)
  rwa [Nat.sub_self, List.drop_zero] at hstep

/-- Nothing is taken off the network. -/
theorem Step.pieces_subset (h : Step f f') : f.pieces ⊆ f'.pieces := by
  cases h with
  | emit i piece => exact List.subset_append_left _ _
  | _ => exact List.Subset.refl _

theorem Step.acks_subset (h : Step f f') : f.acks ⊆ f'.acks := by
  cases h with
  | acknowledge => exact List.subset_append_left _ _
  | _ => exact List.Subset.refl _

theorem Steps.pieces_subset (h : Steps f f') : f.pieces ⊆ f'.pieces := by
  induction h with
  | refl => exact List.Subset.refl _
  | tail _ hlast ih => exact List.Subset.trans ih hlast.pieces_subset

theorem Steps.acks_subset (h : Steps f f') : f.acks ⊆ f'.acks := by
  induction h with
  | refl => exact List.Subset.refl _
  | tail _ hlast ih => exact List.Subset.trans ih hlast.acks_subset

/-- Nothing written yet. -/
def start : Flow α := ⟨[], [], [], [], 0⟩

theorem start_sound : Sound (start : Flow α) := by
  refine ⟨List.nil_prefix, ?_, ?_, Nat.le_refl 0⟩
  · intro i piece hmem
    cases hmem
  · intro a hmem
    cases hmem

end Flow

end Library
