import Mathlib.Data.Set.Basic
import WsGateway.Network.Tcp.PacketView

/-!
# Sequence numbers and stream offsets

A sequence number stands for the offset of a byte in a stream, reduced modulo
`2 ^ 32` and counted from an initial number. Two offsets less than `2 ^ 31` apart
are compared and subtracted through their numbers as if they were offsets, on
whichever side of the wrap-around they are.
-/

namespace WsGateway.Network.Tcp.SeqNumber

/-- The number after some steps of `operator+=`. -/
def advance (s : SeqNumber) (steps : List Nat) : SeqNumber :=
  steps.foldl (fun n offset => n + UInt32.ofNat offset) s

/-- The number of one offset is not after that of the other. -/
def Precedes (s : SeqNumber) (x y : Nat) : Prop :=
  (s + UInt32.ofNat x).cmp (s + UInt32.ofNat y) ≠ .gt

variable {s : SeqNumber} {x y z : Nat}

/-- The steps add up. -/
theorem advance_eq (s : SeqNumber) (steps : List Nat) :
    s.advance steps = s + UInt32.ofNat steps.sum := by
  induction steps generalizing s with
  | nil => exact (add_zero s).symm
  | cons offset steps ih =>
    change (s + UInt32.ofNat offset).advance steps = _
    rw [ih, add_add, List.sum_cons, UInt32.ofNat_add]

/-- The initial number cancels. -/
theorem sub_offsets (s : SeqNumber) (x y : Nat) :
    (s + UInt32.ofNat x) - (s + UInt32.ofNat y) = UInt32.ofNat x - UInt32.ofNat y := by
  rw [sub_eq_iff, add_add, add_right_inj, UInt32.add_comm, UInt32.sub_add_cancel]

/-- The sign of a distance is its highest bit. -/
theorem toInt32_neg_iff (d : UInt32) : d.toInt32 < 0 ↔ 2 ^ 31 ≤ d.toNat := by
  have hlt := d.toNat_lt
  rw [Int32.lt_iff_toInt_lt, ← Int32.toInt_toBitVec, UInt32.toBitVec_toInt32,
    BitVec.toInt_eq_toNat_cond, Int32.toInt_zero, UInt32.toNat_toBitVec]
  split <;> omega

theorem toNat_sub_offsets (h : y ≤ x) (hlt : x < y + 2 ^ 31) :
    (UInt32.ofNat x - UInt32.ofNat y).toNat = x - y := by
  rw [← UInt32.ofNat_sub h, UInt32.toNat_ofNat']
  exact Nat.mod_eq_of_lt (by omega)

/-- Backwards the distance wraps. -/
theorem toNat_sub_offsets_wrap (h : x < y) (hlt : y < x + 2 ^ 31) :
    (UInt32.ofNat x - UInt32.ofNat y).toNat = 2 ^ 32 - (y - x) := by
  have hneg : UInt32.ofNat x - UInt32.ofNat y = -(UInt32.ofNat y - UInt32.ofNat x) :=
    UInt32.neg_sub.symm
  rw [hneg, UInt32.toNat_neg, toNat_sub_offsets h.le hlt]
  exact Nat.mod_eq_of_lt (Nat.sub_lt (by decide) (Nat.sub_pos_of_lt h))

/-- Numbers of near offsets are equal for equal offsets only. -/
theorem offsets_inj (h : x < y + 2 ^ 31) (h' : y < x + 2 ^ 31) :
    s + UInt32.ofNat x = s + UInt32.ofNat y ↔ x = y := by
  refine ⟨fun heq => ?_, fun heq => by rw [heq]⟩
  have hzero : (UInt32.ofNat x - UInt32.ofNat y).toNat = 0 := by
    rw [add_right_inj.mp heq, UInt32.sub_self]
    rfl
  rcases Nat.lt_or_ge x y with hlt | hge
  · rw [toNat_sub_offsets_wrap hlt h'] at hzero
    omega
  · rw [toNat_sub_offsets hge h] at hzero
    omega

/-- The comparison of two numbers is that of the offsets. -/
theorem cmp_offsets (s : SeqNumber) (h : x < y + 2 ^ 31) (h' : y < x + 2 ^ 31) :
    (s + UInt32.ofNat x).cmp (s + UInt32.ofNat y) = compare x y := by
  by_cases heq : x = y
  · rw [heq, cmp_self, Nat.compare_eq_eq.mpr rfl]
  · have hne : (s + UInt32.ofNat x).value ≠ (s + UInt32.ofNat y).value := fun hval =>
      heq ((offsets_inj h h').mp (SeqNumber.ext hval))
    have hsub : (s + UInt32.ofNat x).value - (s + UInt32.ofNat y).value =
        UInt32.ofNat x - UInt32.ofNat y := sub_offsets s x y
    rw [cmp, if_neg (by simpa using hne), hsub]
    rcases Nat.lt_or_ge x y with hlt | hge
    · rw [if_pos ((toInt32_neg_iff _).mpr (by rw [toNat_sub_offsets_wrap hlt h']; omega)),
        Nat.compare_eq_lt.mpr hlt]
    · have hgt : y < x := Nat.lt_of_le_of_ne hge (Ne.symm heq)
      rw [if_neg (fun hneg => ?_), Nat.compare_eq_gt.mpr hgt]
      have hle := (toInt32_neg_iff _).mp hneg
      rw [toNat_sub_offsets hge h] at hle
      omega

theorem precedes_iff (h : x < y + 2 ^ 31) (h' : y < x + 2 ^ 31) : s.Precedes x y ↔ x ≤ y := by
  rw [Precedes, cmp_offsets s h h', ne_eq, Nat.compare_eq_gt, not_lt]

/-- **Sequence numbers represent offsets**: the numbers of two offsets less than `2 ^ 31` apart,
however they were reached, are ordered as the offsets, are equal only for equal offsets and have
their distance. So they order every set of offsets within such a window linearly. -/
theorem represents_offsets (s : SeqNumber) :
    (∀ xs ys : List Nat, xs.sum < ys.sum + 2 ^ 31 → ys.sum < xs.sum + 2 ^ 31 →
      (s.advance xs).cmp (s.advance ys) = compare xs.sum ys.sum ∧
        (s.advance xs = s.advance ys ↔ xs.sum = ys.sum) ∧
        (ys.sum ≤ xs.sum → (s.advance xs - s.advance ys).toNat = xs.sum - ys.sum)) ∧
      ∀ window : Set Nat, (∀ x ∈ window, ∀ y ∈ window, x < y + 2 ^ 31) →
        (∀ x ∈ window, ∀ y ∈ window, s.Precedes x y ∨ s.Precedes y x) ∧
        (∀ x ∈ window, ∀ y ∈ window, s.Precedes x y → s.Precedes y x → x = y) ∧
        ∀ x ∈ window, ∀ y ∈ window, ∀ z ∈ window,
          s.Precedes x y → s.Precedes y z → s.Precedes x z := by
  refine ⟨fun xs ys h h' => ?_, fun window hwindow => ⟨?_, ?_, ?_⟩⟩
  · rw [advance_eq, advance_eq, sub_offsets]
    exact ⟨cmp_offsets s h h', offsets_inj h h', fun hle => toNat_sub_offsets hle h⟩
  · intro x hx y hy
    rw [precedes_iff (hwindow x hx y hy) (hwindow y hy x hx),
      precedes_iff (hwindow y hy x hx) (hwindow x hx y hy)]
    exact Nat.le_total x y
  · intro x hx y hy hxy hyx
    rw [precedes_iff (hwindow x hx y hy) (hwindow y hy x hx)] at hxy
    rw [precedes_iff (hwindow y hy x hx) (hwindow x hx y hy)] at hyx
    exact Nat.le_antisymm hxy hyx
  · intro x hx y hy z hz hxy hyz
    rw [precedes_iff (hwindow x hx y hy) (hwindow y hy x hx)] at hxy
    rw [precedes_iff (hwindow y hy z hz) (hwindow z hz y hy)] at hyz
    rw [precedes_iff (hwindow x hx z hz) (hwindow z hz x hx)]
    exact Nat.le_trans hxy hyz

/-- Two bytes on both sides of the wrap-around. -/
theorem represents_offsets_wrap :
    ((0xFFFFFFFF : SeqNumber).advance [3, 2]).cmp ((0xFFFFFFFF : SeqNumber).advance []) = .gt ∧
      ((0xFFFFFFFF : SeqNumber).advance [3, 2] - (0xFFFFFFFF : SeqNumber).advance []).toNat = 5 := by
  obtain ⟨hcmp, -, hsub⟩ := (represents_offsets 0xFFFFFFFF).1 [3, 2] [] (by decide) (by decide)
  exact ⟨hcmp.trans (by decide), hsub (by decide)⟩

end WsGateway.Network.Tcp.SeqNumber
