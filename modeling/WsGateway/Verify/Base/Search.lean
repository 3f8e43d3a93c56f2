import Mathlib.Order.Bounds.Basic
import WsGateway.Base.Stream

/-!
# Searching the stream

`Stream::search` runs `std::search` on the buffer from the read to the write position
and subtracts the read position from the iterator that comes back. The bytes around
that range are stale: the comparison stops at the end of the range, so the result is
the first match inside the content. The buffer holds `uint8_t` and the pattern `char`:
a byte from 0x80 on never compares equal with the character it was written as.
-/

namespace WsGateway.Stream

open Library

/-! ## The search on the buffer -/

/-- How the comparison of a pattern with the bytes from an iterator on ends. -/
inductive Comparison where
  | equal
  /-- The range ends before the pattern. -/
  | cut
  | different
  deriving DecidableEq, Repr

/-- The inner loop of `std::search`, with `left` bytes up to the end of the range. -/
def compareAt (buffer : Memory) : List UInt8 → Nat → Nat → Comparison
  | [], _, _ => .equal
  | _ :: _, _, 0 => .cut
  | c :: pattern, it, left + 1 =>
    if equalsChar (buffer it) c then compareAt buffer pattern (it + 1) left else .different

/-- `std::search` on the `left` bytes from `it` on: where the first match starts, or the end of the
range. A pattern that is cut off at one place is cut off at every later one. -/
def searchRange (buffer : Memory) (pattern : List UInt8) : Nat → Nat → Nat
  | it, 0 => it
  | it, left + 1 =>
    match compareAt buffer pattern it (left + 1) with
    | .equal => it
    | .cut => it + (left + 1)
    | .different => searchRange buffer pattern (it + 1) left

/-- `Stream::search` with the iterators of the source, counted from `buffer.begin()`. -/
def searchIterators (s : Stream) (pattern : List UInt8) : Option Nat :=
  let res := searchRange s.buffer pattern s.read s.size
  if res == s.write then none else some (res - s.read)

/-! ## What matches -/

/-- The characters that compare equal with a byte. -/
def IsAscii (pattern : List UInt8) : Prop := ∀ c ∈ pattern, c < 0x80

instance (pattern : List UInt8) : Decidable (IsAscii pattern) :=
  List.decidableBAll (· < 0x80) pattern

section StdSearch

variable {pattern text : List UInt8}

/-- A negative character is no byte. -/
theorem equalsChar_iff {b c : UInt8} : equalsChar b c = true ↔ b = c ∧ c < 0x80 := by
  have hb := b.toNat_lt
  have hc := c.toNat_lt
  have hchar : c.toInt8.toInt = if 2 * c.toNat < 2 ^ 8 then (c.toNat : Int) else c.toNat - 2 ^ 8 :=
    BitVec.toInt_eq_toNat_cond c.toBitVec
  rw [equalsChar, beq_iff_eq, hchar, ← UInt8.toNat_inj, UInt8.lt_iff_toNat_lt]
  simp only [UInt8.reduceToNat]
  split <;> omega

theorem isAscii_cons {c : UInt8} : IsAscii (c :: pattern) ↔ c < 0x80 ∧ IsAscii pattern :=
  List.forall_mem_cons

theorem startsWith_iff : startsWith pattern text = true ↔ pattern <+: text ∧ IsAscii pattern := by
  induction pattern generalizing text with
  | nil => simp [startsWith, IsAscii]
  | cons c pattern ih =>
    cases text with
    | nil => simp [startsWith]
    | cons b text =>
      rw [startsWith, Bool.and_eq_true, equalsChar_iff, ih, List.cons_prefix_cons, isAscii_cons]
      constructor
      · rintro ⟨⟨rfl, hc⟩, hfront, hascii⟩
        exact ⟨⟨rfl, hfront⟩, hc, hascii⟩
      · rintro ⟨⟨rfl, hfront⟩, hc, hascii⟩
        exact ⟨⟨rfl, hc⟩, hfront, hascii⟩

theorem stdSearch_le (pattern text : List UInt8) : stdSearch pattern text ≤ text.length := by
  induction text with
  | nil => exact Nat.le_refl 0
  | cons b text ih =>
    rw [stdSearch, List.length_cons]
    split <;> omega

/-- `std::search` finds a match. -/
theorem stdSearch_match (h : stdSearch pattern text < text.length) :
    pattern <+: text.drop (stdSearch pattern text) ∧ IsAscii pattern := by
  induction text with
  | nil => exact absurd h (Nat.lt_irrefl 0)
  | cons b text ih =>
    by_cases hmatch : startsWith pattern (b :: text) = true
    · rw [stdSearch, if_pos hmatch]
      exact startsWith_iff.mp hmatch
    · rw [stdSearch, if_neg hmatch] at h ⊢
      exact ih (by simpa using h)

/-- Nothing matches in front of what it finds. -/
theorem stdSearch_before (hascii : IsAscii pattern) {j : Nat} (h : j < stdSearch pattern text) :
    ¬ pattern <+: text.drop j := by
  induction text generalizing j with
  | nil => exact absurd h (Nat.not_lt_zero j)
  | cons b text ih =>
    by_cases hmatch : startsWith pattern (b :: text) = true
    · rw [stdSearch, if_pos hmatch] at h
      exact absurd h (Nat.not_lt_zero j)
    · rw [stdSearch, if_neg hmatch] at h
      cases j with
      | zero => exact fun hstarts => hmatch (startsWith_iff.mpr ⟨hstarts, hascii⟩)
      | succ j => exact ih (by omega)

/-- A match that is found lies in front of the end, as the pattern is not empty. -/
theorem stdSearch_lt (hascii : IsAscii pattern) {i : Nat} (hne : pattern ≠ [])
    (h : pattern <+: text.drop i) : stdSearch pattern text < text.length := by
  have hpos := List.length_pos_iff.mpr hne
  have hlen := h.length_le
  rw [List.length_drop] at hlen
  by_contra hno
  exact stdSearch_before hascii (by omega) h

/-- A pattern longer than the text. -/
theorem stdSearch_of_short (h : text.length < pattern.length) :
    stdSearch pattern text = text.length := by
  refine Nat.le_antisymm (stdSearch_le pattern text) (Nat.le_of_not_lt fun hlt => ?_)
  have hlen := (stdSearch_match hlt).1.length_le
  rw [List.length_drop] at hlen
  omega

end StdSearch

section Range

variable {buffer : Memory} {pattern : List UInt8}

theorem compareAt_equal {it left : Nat} :
    compareAt buffer pattern it left = .equal ↔
      startsWith pattern (buffer.bytes it left) = true := by
  induction pattern generalizing it left with
  | nil => simp [compareAt, startsWith]
  | cons c pattern ih =>
    cases left with
    | zero => simp [compareAt, startsWith]
    | succ left =>
      rw [compareAt, Memory.bytes_succ, startsWith, Bool.and_eq_true]
      by_cases hc : equalsChar (buffer it) c = true
      · rw [if_pos hc, ih]
        simp [hc]
      · rw [if_neg hc]
        simp [hc]

theorem compareAt_cut {it left : Nat} (h : compareAt buffer pattern it left = .cut) :
    left < pattern.length := by
  induction pattern generalizing it left with
  | nil => cases h
  | cons b pattern ih =>
    cases left with
    | zero => exact Nat.succ_pos _
    | succ left =>
      rw [compareAt] at h
      split at h
      · exact Nat.succ_lt_succ (ih h)
      · cases h

/-- The search on the buffer is the search in the bytes of the range. -/
theorem searchRange_eq (it left : Nat) :
    searchRange buffer pattern it left = it + stdSearch pattern (buffer.bytes it left) := by
  induction left generalizing it with
  | zero => rfl
  | succ left ih =>
    rw [searchRange]
    cases hcompare : compareAt buffer pattern it (left + 1) with
    | equal =>
      have hstarts := compareAt_equal.mp hcompare
      rw [Memory.bytes_succ] at hstarts ⊢
      rw [stdSearch, if_pos hstarts]
      rfl
    | cut =>
      rw [stdSearch_of_short (by simpa using compareAt_cut hcompare), Memory.length_bytes]
    | different =>
      have hno : ¬ startsWith pattern (buffer.bytes it (left + 1)) = true := by
        intro hstarts
        rw [← compareAt_equal, hcompare] at hstarts
        cases hstarts
      rw [Memory.bytes_succ] at hno ⊢
      rw [stdSearch, if_neg hno]
      dsimp only
      rw [ih]
      omega

end Range

/-- The iterators come to the position in the content, wherever the content lies in the buffer. -/
theorem searchIterators_eq (s : Stream) (pattern : List UInt8) :
    s.searchIterators pattern = s.search pattern := by
  have hread := s.read_le_write
  have hsize : s.read + s.size = s.write := by unfold size; omega
  have hres := @searchRange_eq s.buffer pattern s.read s.size
  rw [searchIterators, hres, search, content]
  by_cases hend : stdSearch pattern (s.buffer.bytes s.read s.size) = s.size
  · rw [if_pos (by simpa [hend] using hsize), if_pos (by simp [hend])]
  · rw [if_neg (by simp; omega), if_neg (by simp [hend]), Nat.add_sub_cancel_left]

/-! ## The first occurrence -/

/-- The pattern stands `i` bytes behind the read position, all of it in front of the write
position. -/
def StandsAt (s : Stream) (pattern : List UInt8) (i : Nat) : Prop :=
  i + pattern.length ≤ s.size ∧ s.buffer.bytes (s.read + i) pattern.length = pattern

/-- `search` finds the first place in the content at which the pattern stands, and a `pop` to the
end of the match ends in the pattern. -/
structure FindsFirst (s : Stream) (pattern : List UInt8) : Prop where
  iterators : s.searchIterators pattern = s.search pattern
  hit : ∀ i, s.search pattern = some i ↔ IsLeast {i | s.StandsAt pattern i} i
  miss : s.search pattern = none ↔ ∀ i, ¬ s.StandsAt pattern i
  pops : ∀ i, s.search pattern = some i → ∃ before s', before.length = i ∧
    pop (i + pattern.length) s = .ok (some (before ++ pattern)) s' ∧
      s.content = before ++ pattern ++ s'.content

section First

variable {s : Stream} {pattern : List UInt8}

theorem standsAt_iff (hne : pattern ≠ []) {i : Nat} :
    s.StandsAt pattern i ↔ pattern <+: s.content.drop i := by
  have hpos := List.length_pos_iff.mpr hne
  have hslice : ∀ h : i + pattern.length ≤ s.size,
      (s.content.drop i).take pattern.length = s.buffer.bytes (s.read + i) pattern.length := by
    intro h
    rw [content, Memory.drop_bytes _ (by omega), Memory.take_bytes _ (by omega)]
  constructor
  · rintro ⟨hle, hbytes⟩
    rw [List.prefix_iff_eq_take, hslice hle, hbytes]
  · intro hstarts
    have hlen := hstarts.length_le
    rw [List.length_drop, length_content] at hlen
    have hle : i + pattern.length ≤ s.size := by omega
    refine ⟨hle, ?_⟩
    rw [← hslice hle, ← List.prefix_iff_eq_take.mp hstarts]

theorem search_eq_some {i : Nat} :
    s.search pattern = some i ↔ stdSearch pattern s.content = i ∧ i < s.size := by
  have hle := stdSearch_le pattern s.content
  rw [length_content] at hle
  rw [search]
  by_cases hend : stdSearch pattern s.content = s.size
  · simp [hend]
    omega
  · simp [hend]
    omega

theorem search_eq_none : s.search pattern = none ↔ stdSearch pattern s.content = s.size := by
  simp [search]

/-- What is found is the first match. -/
theorem search_some {i : Nat} (h : s.search pattern = some i) :
    IsAscii pattern ∧ pattern <+: s.content.drop i ∧ ∀ j < i, ¬ pattern <+: s.content.drop j := by
  obtain ⟨rfl, hlt⟩ := search_eq_some.mp h
  obtain ⟨hmatch, hascii⟩ := @stdSearch_match pattern s.content (by simpa using hlt)
  exact ⟨hascii, hmatch, fun j hj => stdSearch_before hascii hj⟩

/-- A character from 0x80 on is never found. -/
theorem search_of_not_ascii (h : ¬ IsAscii pattern) : s.search pattern = none :=
  Option.eq_none_iff_forall_ne_some.mpr fun _ hi => h (search_some hi).1

/-- The first match of a pattern in ASCII is found. -/
theorem search_first (hascii : IsAscii pattern) {i : Nat} (hlt : i < s.size)
    (hmatch : pattern <+: s.content.drop i) (hfirst : ∀ j < i, ¬ pattern <+: s.content.drop j) :
    s.search pattern = some i := by
  have hle : stdSearch pattern s.content ≤ i := by
    by_contra hno
    exact stdSearch_before hascii (by omega) hmatch
  have hfound := (@stdSearch_match pattern s.content (by rw [length_content]; omega)).1
  have heq : stdSearch pattern s.content = i := by
    by_contra hne
    exact hfirst _ (by omega) hfound
  exact search_eq_some.mpr ⟨heq, hlt⟩

theorem search_isLeast (hascii : IsAscii pattern) (hne : pattern ≠ []) {i : Nat} :
    s.search pattern = some i ↔ IsLeast {i | s.StandsAt pattern i} i := by
  have hpos := List.length_pos_iff.mpr hne
  constructor
  · intro h
    obtain ⟨-, hmatch, hbefore⟩ := search_some h
    refine ⟨(standsAt_iff hne).mpr hmatch, fun j hj => ?_⟩
    by_contra hlt
    exact hbefore j (by omega) ((standsAt_iff hne).mp hj)
  · rintro ⟨hstands, hleast⟩
    have hlt : i < s.size := by
      have hle := hstands.1
      omega
    refine search_first hascii hlt ((standsAt_iff hne).mp hstands) fun j hj hmatch => ?_
    have hle := hleast ((standsAt_iff hne).mpr hmatch)
    omega

theorem search_eq_none_iff (hascii : IsAscii pattern) (hne : pattern ≠ []) :
    s.search pattern = none ↔ ∀ i, ¬ s.StandsAt pattern i := by
  constructor
  · intro h i hstands
    have hlt := stdSearch_lt hascii hne ((standsAt_iff hne).mp hstands)
    rw [length_content, search_eq_none.mp h] at hlt
    exact Nat.lt_irrefl _ hlt
  · intro h
    refine Option.eq_none_iff_forall_ne_some.mpr fun i hi => h i ?_
    exact ((search_isLeast hascii hne).mp hi).1

/-- What a hit pops ends in the pattern. -/
theorem pop_of_standsAt {i : Nat} (h : s.StandsAt pattern i) :
    ∃ before s', before.length = i ∧
      pop (i + pattern.length) s = .ok (some (before ++ pattern)) s' ∧
        s.content = before ++ pattern ++ s'.content := by
  obtain ⟨hle, hbytes⟩ := h
  have htake : s.content.take (i + pattern.length) = s.content.take i ++ pattern := by
    have hbefore : s.content.take i = s.buffer.bytes s.read i := s.buffer.take_bytes (by omega)
    have hall : s.content.take (i + pattern.length) =
        s.buffer.bytes s.read (i + pattern.length) := s.buffer.take_bytes hle
    rw [hall, Memory.bytes_add, hbytes, hbefore]
  refine ⟨s.content.take i, s.advance _ hle, by simp; omega, ?_, ?_⟩
  · rw [s.pop_of_le hle, htake]
  · rw [s.content_advance hle, ← htake, List.take_append_drop]

theorem findsFirst_of_ascii (hascii : IsAscii pattern) (hne : pattern ≠ []) :
    s.FindsFirst pattern where
  iterators := s.searchIterators_eq pattern
  hit _ := search_isLeast hascii hne
  miss := search_eq_none_iff hascii hne
  pops _ h := pop_of_standsAt ((search_isLeast hascii hne).mp h).1

/-- Where the pattern does not stand, nothing is found, whatever its characters are. -/
theorem findsFirst_of_absent (hne : pattern ≠ []) (habsent : ∀ i, ¬ s.StandsAt pattern i) :
    s.FindsFirst pattern := by
  by_cases hascii : IsAscii pattern
  · exact findsFirst_of_ascii hascii hne
  · have hnone : s.search pattern = none := search_of_not_ascii hascii
    constructor
    · exact s.searchIterators_eq pattern
    · intro i
      rw [hnone]
      exact iff_of_false (by simp) fun h => habsent i h.1
    · exact iff_of_true hnone habsent
    · intro i hi
      rw [hnone] at hi
      cases hi

end First

/-- **Searching**: on every stream, wherever its content lies in the buffer and whatever lies around
it, `search` finds the first occurrence of a pattern that is not empty exactly if the pattern has no
byte from 0x80 on or does not occur. -/
theorem findsFirst_iff (s : Stream) (pattern : List UInt8) (hne : pattern ≠ []) :
    s.FindsFirst pattern ↔ IsAscii pattern ∨ ∀ i, ¬ s.StandsAt pattern i := by
  constructor
  · intro h
    by_cases hascii : IsAscii pattern
    · exact Or.inl hascii
    · exact Or.inr (h.miss.mp (search_of_not_ascii hascii))
  · rintro (hascii | habsent)
    · exact findsFirst_of_ascii hascii hne
    · exact findsFirst_of_absent hne habsent

/-- Two line ends of which one has been popped: the second is found, without the stale first. -/
theorem second_line_found : FindsFirst
    (after (pop 2 (after (pushString [13, 10, 13, 10] (new 8))))) [13, 10] :=
  (findsFirst_iff _ [13, 10] (by decide)).mpr (Or.inl (by decide))

/-- The byte 0x80 stands at the front of the stream and is not found. -/
theorem high_byte_not_found :
    search (after (pushString [0x80] (new 8))) [0x80] = none ∧
      StandsAt (after (pushString [0x80] (new 8))) [0x80] 0 ∧
      ¬ FindsFirst (after (pushString [0x80] (new 8))) [0x80] := by
  have hnone : search (after (pushString [0x80] (new 8))) [0x80] = none :=
    search_of_not_ascii (by decide)
  have hstands : StandsAt (after (pushString [0x80] (new 8))) [0x80] 0 := by
    constructor <;> decide
  exact ⟨hnone, hstands, fun h => h.miss.mp hnone 0 hstands⟩

end WsGateway.Stream
