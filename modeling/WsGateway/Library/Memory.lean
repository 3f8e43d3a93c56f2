import Mathlib.Data.List.Basic
import Mathlib.Data.List.GetD
import Mathlib.Tactic.Ring

/-!
# Byte memory and big-endian numbers

Memory is a total function from addresses to bytes, so that a program which
reads past an object reads some byte and not an error value. `Memory.bytes`
reads a range and `Memory.write` overwrites one; the lemmas say how ranges
split, and that a write is seen exactly in the range it covers.
-/

namespace Library

/-- Memory seen from a base address on. -/
abbrev Memory := Nat → UInt8

namespace Memory

/-- The `n` bytes from `pos` on. -/
def bytes (m : Memory) (pos n : Nat) : List UInt8 := (List.range n).map fun i => m (pos + i)

/-- Store `bs` from `pos` on. -/
def write (m : Memory) (pos : Nat) (bs : List UInt8) : Memory :=
  fun i => if pos ≤ i then (bs[i - pos]?).getD (m i) else m i

/-- The memory that holds `bs` from address `0` on and zeros after it. -/
def ofList (bs : List UInt8) : Memory := fun i => bs.getD i 0

variable (m : Memory)

@[simp] theorem length_bytes (pos n : Nat) : (m.bytes pos n).length = n := by
  simp [bytes]

@[simp] theorem bytes_zero (pos : Nat) : m.bytes pos 0 = [] := rfl

theorem getElem?_bytes {pos n i : Nat} (h : i < n) :
    (m.bytes pos n)[i]? = some (m (pos + i)) := by
  simp [bytes, h]

theorem bytes_add (pos k n : Nat) :
    m.bytes pos (k + n) = m.bytes pos k ++ m.bytes (pos + k) n := by
  simp [bytes, List.range_add, List.map_map, Function.comp_def, Nat.add_assoc]

theorem bytes_succ (pos n : Nat) : m.bytes pos (n + 1) = m pos :: m.bytes (pos + 1) n := by
  rw [Nat.add_comm n 1, bytes_add]
  rfl

theorem take_bytes {pos n k : Nat} (h : k ≤ n) : (m.bytes pos n).take k = m.bytes pos k := by
  obtain ⟨d, rfl⟩ := Nat.exists_eq_add_of_le h
  rw [bytes_add, List.take_left' (by simp)]

theorem drop_bytes {pos n k : Nat} (h : k ≤ n) :
    (m.bytes pos n).drop k = m.bytes (pos + k) (n - k) := by
  obtain ⟨d, rfl⟩ := Nat.exists_eq_add_of_le h
  rw [bytes_add, List.drop_left' (by simp), Nat.add_sub_cancel_left]

/-- Two memories that agree on a range give the same bytes there. -/
theorem bytes_congr {m m' : Memory} {pos n : Nat} (h : ∀ i < n, m (pos + i) = m' (pos + i)) :
    m.bytes pos n = m'.bytes pos n := by
  unfold bytes
  exact List.map_congr_left fun i hi => h i (List.mem_range.mp hi)

theorem write_apply_of_lt {pos i : Nat} (bs : List UInt8) (h : i < pos) :
    m.write pos bs i = m i := by
  simp [write, Nat.not_le.mpr h]

theorem write_apply_of_ge {pos i : Nat} {bs : List UInt8} (h : pos + bs.length ≤ i) :
    m.write pos bs i = m i := by
  have hn : bs[i - pos]? = none := List.getElem?_eq_none (by omega)
  simp [write, hn]

theorem write_apply_in {pos i : Nat} {bs : List UInt8} (h : i < bs.length) :
    m.write pos bs (pos + i) = bs[i] := by
  simp [write, h]

@[simp] theorem write_nil (pos : Nat) : m.write pos [] = m := by
  funext i
  simp [write]

/-- Writing twice to one range keeps the second write. -/
theorem write_write (pos : Nat) {bs bs' : List UInt8} (h : bs.length = bs'.length) :
    (m.write pos bs).write pos bs' = m.write pos bs' := by
  funext i
  unfold write
  by_cases hp : pos ≤ i
  · simp only [hp, ↓reduceIte]
    by_cases hi : i - pos < bs'.length
    · simp [hi]
    · rw [List.getElem?_eq_none (by omega), List.getElem?_eq_none (by omega)]
      rfl
  · simp [hp]

/-- A write of two pieces is two writes. -/
theorem write_append (pos : Nat) (bs bs' : List UInt8) :
    m.write pos (bs ++ bs') = (m.write pos bs).write (pos + bs.length) bs' := by
  funext i
  unfold write
  by_cases h1 : i < pos
  · simp [Nat.not_le.mpr h1, show ¬ pos + bs.length ≤ i by omega]
  · have hle : pos ≤ i := by omega
    by_cases h2 : i - pos < bs.length
    · simp [hle, show ¬ pos + bs.length ≤ i by omega, List.getElem?_append_left h2]
    · have hsub : i - pos - bs.length = i - (pos + bs.length) := by omega
      have hnone : bs[i - pos]? = none := List.getElem?_eq_none (by omega)
      rw [List.getElem?_append_right (by omega), hsub]
      simp [hle, hnone, show pos + bs.length ≤ i by omega]

/-- A range that a write covers reads back as written. -/
@[simp] theorem bytes_write_same (pos : Nat) (bs : List UInt8) :
    (m.write pos bs).bytes pos bs.length = bs := by
  refine List.ext_getElem (by simp) fun i hi _ => ?_
  have hb : i < bs.length := by simpa using hi
  simp [bytes, write_apply_in m hb]

/-- A range before the written one is unchanged. -/
theorem bytes_write_before {pos at' n : Nat} (bs : List UInt8) (h : at' + n ≤ pos) :
    (m.write pos bs).bytes at' n = m.bytes at' n :=
  bytes_congr fun i hi => write_apply_of_lt m bs (by omega)

/-- A range after the written one is unchanged. -/
theorem bytes_write_after {pos at' n : Nat} {bs : List UInt8} (h : pos + bs.length ≤ at') :
    (m.write pos bs).bytes at' n = m.bytes at' n :=
  bytes_congr fun i _ => write_apply_of_ge m (by omega)

/-- A middle piece of a write reads back. -/
theorem bytes_write_mid (pos : Nat) (a b c : List UInt8) :
    (m.write pos (a ++ b ++ c)).bytes (pos + a.length) b.length = b := by
  rw [write_append, write_append, bytes_write_before _ _ (by simp [Nat.add_assoc]),
    bytes_write_same]

@[simp] theorem bytes_ofList (bs : List UInt8) : (ofList bs).bytes 0 bs.length = bs := by
  refine List.ext_getElem (by simp) fun i hi _ => ?_
  have hb : i < bs.length := by simpa using hi
  simp [bytes, ofList, hb]

end Memory

/-! ## Big-endian numbers -/

/-- The number a byte string spells, most significant byte first. -/
def beNat : List UInt8 → Nat
  | [] => 0
  | b :: bs => b.toNat * 256 ^ bs.length + beNat bs

/-- The low `w` bytes of a number, most significant byte first. -/
def beBytes : Nat → Nat → List UInt8
  | 0, _ => []
  | w + 1, v => UInt8.ofNat (v / 256 ^ w) :: beBytes w v

@[simp] theorem length_beBytes (w v : Nat) : (beBytes w v).length = w := by
  induction w with
  | zero => rfl
  | succ w ih => rw [beBytes, List.length_cons, ih]

theorem beNat_lt (bs : List UInt8) : beNat bs < 256 ^ bs.length := by
  induction bs with
  | nil => exact Nat.one_pos
  | cons b bs ih =>
    have hb : b.toNat + 1 ≤ 256 := b.toNat_lt
    calc beNat (b :: bs) < b.toNat * 256 ^ bs.length + 256 ^ bs.length := by
          rw [beNat]; omega
      _ = (b.toNat + 1) * 256 ^ bs.length := by ring
      _ ≤ 256 * 256 ^ bs.length := Nat.mul_le_mul_right _ hb
      _ = 256 ^ (b :: bs).length := by rw [List.length_cons]; ring

/-- Decoding what was encoded gives the number back, reduced to the width. -/
theorem beNat_beBytes (w v : Nat) : beNat (beBytes w v) = v % 256 ^ w := by
  induction w with
  | zero => rw [beBytes, beNat, pow_zero, Nat.mod_one]
  | succ w ih =>
    have hb : (UInt8.ofNat (v / 256 ^ w)).toNat = v / 256 ^ w % 256 := UInt8.toNat_ofNat'
    rw [beBytes, beNat, length_beBytes, ih, hb, Nat.mod_pow_succ]
    ring

/-- Only the low bytes are encoded. -/
theorem beBytes_mod {w u : Nat} (h : w ≤ u) (v : Nat) : beBytes w (v % 256 ^ u) = beBytes w v := by
  induction w with
  | zero => rfl
  | succ w ih =>
    have hpow : 256 ^ u = 256 ^ w * 256 ^ (u - w) := by
      rw [← Nat.pow_add, Nat.add_sub_cancel' (by omega)]
    have hdvd : 256 ∣ 256 ^ (u - w) := dvd_pow_self 256 (by omega)
    have hbyte : v % 256 ^ u / 256 ^ w % 256 = v / 256 ^ w % 256 := by
      rw [hpow, Nat.mod_mul_right_div_self, Nat.mod_mod_of_dvd _ hdvd]
    have hofNat : UInt8.ofNat (v % 256 ^ u / 256 ^ w) = UInt8.ofNat (v / 256 ^ w) := by
      apply UInt8.toNat_inj.mp
      rw [UInt8.toNat_ofNat', UInt8.toNat_ofNat']
      exact hbyte
    rw [beBytes, beBytes, ih (by omega), hofNat]

namespace Memory

/-- The big-endian number of `w` bytes at `pos`. -/
def be (m : Memory) (pos w : Nat) : Nat := beNat (m.bytes pos w)

theorem be_lt (m : Memory) (pos w : Nat) : m.be pos w < 256 ^ w := by
  have h := beNat_lt (m.bytes pos w)
  rwa [length_bytes] at h

end Memory

theorem beNat_beBytes_of_lt {w v : Nat} (h : v < 256 ^ w) : beNat (beBytes w v) = v := by
  rw [beNat_beBytes, Nat.mod_eq_of_lt h]

/-! ## What memory holds -/

namespace Memory

/-- The memory holds `bs` from `pos` on. -/
def Holds (m : Memory) (pos : Nat) (bs : List UInt8) : Prop := m.bytes pos bs.length = bs

variable {m : Memory} {pos : Nat} {a b : List UInt8}

theorem holds_append : m.Holds pos (a ++ b) ↔ m.Holds pos a ∧ m.Holds (pos + a.length) b := by
  unfold Holds
  rw [List.length_append, bytes_add]
  constructor
  · intro h
    exact List.append_inj h (by simp)
  · rintro ⟨ha, hb⟩
    rw [ha, hb]

theorem holds_cons {x : UInt8} : m.Holds pos (x :: b) ↔ m pos = x ∧ m.Holds (pos + 1) b := by
  unfold Holds
  rw [List.length_cons, bytes_succ, List.cons.injEq]

@[simp] theorem holds_nil : m.Holds pos [] := rfl

theorem holds_write (m : Memory) (pos : Nat) (bs : List UInt8) : (m.write pos bs).Holds pos bs :=
  m.bytes_write_same pos bs

/-- Bytes written right behind what memory holds. -/
theorem Holds.write_end (h : m.Holds pos a) (b : List UInt8) :
    (m.write (pos + a.length) b).Holds pos (a ++ b) := by
  rw [holds_append]
  refine ⟨?_, holds_write _ _ _⟩
  unfold Holds
  rw [bytes_write_before _ _ (Nat.le_refl _)]
  exact h

/-- Overwriting a piece of what memory holds. -/
theorem Holds.patch {old : List UInt8} (h : m.Holds pos (a ++ old ++ b)) (new : List UInt8)
    (hlen : new.length = old.length) : (m.write (pos + a.length) new).Holds pos (a ++ new ++ b) := by
  rw [holds_append, holds_append] at h ⊢
  obtain ⟨⟨ha, -⟩, hb⟩ := h
  refine ⟨⟨?_, holds_write _ _ _⟩, ?_⟩
  · unfold Holds
    rw [bytes_write_before _ _ (Nat.le_refl _)]
    exact ha
  · rw [List.length_append] at hb ⊢
    rw [hlen]
    unfold Holds
    rw [bytes_write_after _ (by omega)]
    exact hb

theorem Holds.be {w n : Nat} (h : m.Holds pos (beBytes w n)) (hn : n < 256 ^ w) :
    m.be pos w = n := by
  unfold Holds at h
  rw [length_beBytes] at h
  rw [Memory.be, h, beNat_beBytes_of_lt hn]

theorem Holds.vector {n : Nat} {v : Vector UInt8 n} (h : m.Holds pos v.toList) :
    Vector.ofFn (fun i : Fin n => m (pos + i)) = v := by
  refine Vector.ext fun i hi => ?_
  have hget := congrArg (fun l => l[i]?) h
  rw [getElem?_bytes m (by simpa using hi)] at hget
  simpa [hi] using hget

theorem holds_ofList (bs : List UInt8) : (ofList bs).Holds 0 bs := bytes_ofList bs

end Memory

end Library
