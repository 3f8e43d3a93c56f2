import WsGateway.Library.Memory

/-!
# Reading length-prefixed vectors

Readers for the presentation language of binary protocols: fields of a fixed
size, vectors behind their length, and sequences that fill a vector. `Reads r a x`
says that `r` takes exactly the bytes `a` off any input and gives `x`; it is the
form in which readers are composed. `exists_cut` says where a beginning of a
sequence of such pieces ends.
-/

namespace Library

/-- A reader takes bytes off the front and returns the rest with its value. -/
abbrev Reader (α : Type) := List UInt8 → Option (α × List UInt8)

namespace Reader

def fixed (n : Nat) : Reader (List UInt8) := fun bs =>
  if n ≤ bs.length then some (bs.take n, bs.drop n) else none

/-- A vector behind its length, which has `w` bytes. -/
def vector (w : Nat) : Reader (List UInt8) := fun bs => do
  let (size, rest) ← fixed w bs
  fixed (beNat size) rest

/-- The value of a reader that leaves nothing. -/
def whole {α : Type} (r : Reader α) (bs : List UInt8) : Option α :=
  match r bs with
  | some (a, []) => some a
  | _ => none

/-- Read until nothing is left, at most so many times. -/
def many {α : Type} (r : Reader α) : Nat → List UInt8 → Option (List α)
  | _, [] => some []
  | 0, _ :: _ => none
  | n + 1, b :: bs => do
    let (a, rest) ← r (b :: bs)
    let as ← many r n rest
    return a :: as

/-- The elements that fill `bs`. -/
def elements {α : Type} (r : Reader α) (bs : List UInt8) : Option (List α) := many r bs.length bs

/-- The reader takes exactly `bs` off any input and gives `a`. -/
def Reads {α : Type} (r : Reader α) (bs : List UInt8) (a : α) : Prop :=
  ∀ t, r (bs ++ t) = some (a, t)

variable {α : Type} {r : Reader α}

theorem reads_fixed (bs : List UInt8) : Reads (fixed bs.length) bs bs := by
  intro t
  simp [fixed]

theorem reads_vector (w : Nat) (bs : List UInt8) (h : bs.length < 256 ^ w) :
    Reads (vector w) (beBytes w bs.length ++ bs) bs := by
  intro t
  have hsize := reads_fixed (beBytes w bs.length) (bs ++ t)
  rw [length_beBytes] at hsize
  have hbs := reads_fixed bs t
  simp only [vector, List.append_assoc, hsize, Option.bind_eq_bind, Option.bind_some,
    beNat_beBytes_of_lt h, hbs]

theorem Reads.whole {bs : List UInt8} {a : α} (h : Reads r bs a) : whole r bs = some a := by
  have ht := h []
  rw [List.append_nil] at ht
  simp [Reader.whole, ht]

theorem whole_vector (w : Nat) (bs : List UInt8) (h : bs.length < 256 ^ w) :
    Reader.whole (vector w) (beBytes w bs.length ++ bs) = some bs :=
  (reads_vector w bs h).whole

/-- A sequence of elements is read back, element by element. -/
theorem many_of_reads {encode : α → List UInt8} {xs : List α}
    (h : ∀ x ∈ xs, Reads r (encode x) x ∧ encode x ≠ []) {n : Nat}
    (hn : (xs.flatMap encode).length ≤ n) : many r n (xs.flatMap encode) = some xs := by
  induction xs generalizing n with
  | nil => cases n <;> rfl
  | cons x xs ih =>
    obtain ⟨hx, hne⟩ := h x (List.mem_cons_self ..)
    have hpos : 0 < (encode x).length := List.length_pos_iff.mpr hne
    rw [List.flatMap_cons, List.length_append] at hn
    cases n with
    | zero => omega
    | succ n =>
      have hrest := ih (fun y hy => h y (List.mem_cons_of_mem _ hy)) (n := n) (by omega)
      have hread := hx (xs.flatMap encode)
      rw [List.flatMap_cons]
      cases hcons : encode x ++ xs.flatMap encode with
      | nil => simp [hne] at hcons
      | cons b bs =>
        rw [hcons] at hread
        simp [many, hread, hrest]

theorem elements_of_reads (encode : α → List UInt8) (xs : List α)
    (h : ∀ x ∈ xs, Reads r (encode x) x ∧ encode x ≠ []) :
    elements r (xs.flatMap encode) = some xs :=
  many_of_reads h (Nat.le_refl _)

end Reader

/-! ## Beginnings of a sequence of pieces -/

/-- Any beginning of a sequence of pieces is some whole pieces and less than the next one. -/
theorem exists_cut {α : Type} {pieces : List (List α)} {y future : List α}
    (h : y ++ future = pieces.flatten) :
    ∃ done left x, pieces = done ++ left ∧ y = done.flatten ++ x ∧ x ++ future = left.flatten ∧
      ∀ p rest, left = p :: rest → x.length < p.length := by
  induction pieces generalizing y with
  | nil =>
    obtain ⟨rfl, rfl⟩ := List.append_eq_nil_iff.mp h
    exact ⟨[], [], [], rfl, rfl, rfl, fun _ _ hnil => by cases hnil⟩
  | cons p pieces ih =>
    rw [List.flatten_cons] at h
    by_cases hlen : y.length < p.length
    · refine ⟨[], p :: pieces, y, rfl, rfl, by rw [h, List.flatten_cons], ?_⟩
      intro p' rest heq
      cases heq
      exact hlen
    · obtain ⟨z, rfl, hrest⟩ : ∃ z, y = p ++ z ∧ z ++ future = pieces.flatten := by
        obtain ⟨z, hz, hfuture⟩ | ⟨z, hz, hrest⟩ := List.append_eq_append_iff.mp h
        · have hzlen := congrArg List.length hz
          rw [List.length_append] at hzlen
          have hnil : z = [] := List.length_eq_zero_iff.mp (by omega)
          subst hnil
          exact ⟨[], by simpa using hz.symm, by simpa using hfuture⟩
        · exact ⟨z, hz, hrest.symm⟩
      obtain ⟨done, left, x, hsplit, hz, hx, hpart⟩ := ih hrest
      exact ⟨p :: done, left, x, by rw [hsplit, List.cons_append],
        by rw [hz, List.flatten_cons, List.append_assoc], hx, hpart⟩

/-- The pieces of a sequence that its first `n` elements complete. -/
def completed {α : Type} (size : α → Nat) : List α → Nat → List α
  | [], _ => []
  | a :: as, n => if size a ≤ n then a :: completed size as (n - size a) else []

section Completed

variable {α : Type} {size : α → Nat} {done left : List α} {n : Nat}

/-- The completed pieces are those before the one that the elements do not reach the end of. -/
theorem completed_append (hle : (done.map size).sum ≤ n)
    (hlt : ∀ a rest, left = a :: rest → n < (done.map size).sum + size a) :
    completed size (done ++ left) n = done := by
  induction done generalizing n with
  | nil =>
    cases left with
    | nil => rfl
    | cons a rest =>
      have hshort := hlt a rest rfl
      rw [List.map_nil, List.sum_nil, Nat.zero_add] at hshort
      rw [List.nil_append, completed, if_neg (Nat.not_le.mpr hshort)]
  | cons a done ih =>
    rw [List.map_cons, List.sum_cons] at hle hlt
    have hrest : completed size (done ++ left) (n - size a) = done := by
      refine ih (by omega) fun b rest hleft => ?_
      have hshort := hlt b rest hleft
      omega
    rw [List.cons_append, completed, if_pos (by omega), hrest]

/-- All pieces, if no element is missing. -/
theorem completed_all (as : List α) : completed size as (as.map size).sum = as := by
  have h : completed size (as ++ []) (as.map size).sum = as :=
    completed_append (Nat.le_refl _) fun _ _ hnil => by cases hnil
  rwa [List.append_nil] at h

end Completed

end Library
