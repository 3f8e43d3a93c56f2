import WsGateway.Library.Memory
import WsGateway.Library.Throwing

/-!
# Byte views and the byte stream

`base/type/span.h`, `base/macros/require.h` and `base/stream`. A `Stream` is a
vector with a read and a write position; its invariant is part of the type.
`Stream.content`, the bytes between the two positions, is what the callers rely
on, and every operation below has a lemma that says what it does to it.
-/

namespace WsGateway

open Library

/-! ## Exceptions -/

/-- How a call can fail to return. -/
inductive Error where
  /-- `REQUIRE` and its relatives: a `std::runtime_error` with this message. -/
  | runtimeError (message : String)
  /-- `std::optional::value` on an empty optional. -/
  | badOptionalAccess
  /-- `*` or `->` on an empty optional, which is undefined. -/
  | emptyOptional
  /-- The call recurses without end. -/
  | diverges
  deriving DecidableEq, Repr

/-- A method of a class with members `σ`: the members keep what was assigned before a throw. -/
abbrev Prog (σ α : Type) := EStateM Error σ α

/-- `REQUIRE(statement, message)`. -/
def require {σ : Type} (statement : Bool) (message : String) : Prog σ Unit :=
  if statement then pure () else throw (.runtimeError message)

@[simp] theorem require_true {σ : Type} (message : String) (s : σ) :
    require true message s = .ok () s := rfl

@[simp] theorem require_false {σ : Type} (message : String) (s : σ) :
    require false message s = .error (.runtimeError message) s := rfl

theorem require_unchanged {σ : Type} (statement : Bool) (message : String) (s : σ) :
    after (require statement message s) = s := by
  cases statement <;> rfl

/-- A `REQUIRE` followed by the rest of a method, as one case distinction. -/
theorem require_bind {σ α : Type} (statement : Bool) (message : String) (f : Unit → Prog σ α)
    (s : σ) : (require statement message >>= f) s =
      if statement then f () s else .error (.runtimeError message) s := by
  cases statement <;> rfl

/-- Subtraction of two `size_t` values, which wraps below zero. -/
def sizeSub (a b : Nat) : Nat := (a + 2 ^ 64 - b) % 2 ^ 64

theorem sizeSub_of_le {a b : Nat} (h : b ≤ a) (ha : a < 2 ^ 64) : sizeSub a b = a - b := by
  unfold sizeSub
  omega

theorem sizeSub_of_lt {a b : Nat} (h : a < b) (hb : b < 2 ^ 64) :
    sizeSub a b = a + 2 ^ 64 - b := by
  unfold sizeSub
  omega

/-! ## Views -/

/-- `std::span` over bytes: a pointer into memory and a size nobody checks against it. -/
structure ByteView where
  mem : Memory
  data : Nat
  size : Nat

namespace ByteView

/-- The bytes a copy of the view reads. -/
def toList (v : ByteView) : List UInt8 := v.mem.bytes v.data v.size

/-- `span::operator[]`, which does not look at the size. -/
def get (v : ByteView) (i : Nat) : UInt8 := v.mem (v.data + i)

def empty (v : ByteView) : Bool := v.size == 0

def ofList (bs : List UInt8) : ByteView := ⟨.ofList bs, 0, bs.length⟩

@[simp] theorem length_toList (v : ByteView) : v.toList.length = v.size := by
  simp [toList]

@[simp] theorem toList_ofList (bs : List UInt8) : (ofList bs).toList = bs := by
  simp [toList, ofList]

@[simp] theorem size_ofList (bs : List UInt8) : (ofList bs).size = bs.length := rfl

theorem toList_eq_nil {v : ByteView} (h : v.size = 0) : v.toList = [] := by
  simp [toList, h]

end ByteView

/-- An object with a fixed packed layout, as `start_lifetime_as` reads it. -/
class Packed (α : Type) where
  size : Nat
  decode : List UInt8 → α

/-! ## The stream -/

/-- `base::Stream`. The vector has `capacity` bytes; `buffer` also answers for the memory around
it. -/
structure Stream where
  buffer : Memory
  capacity : Nat
  read : Nat
  write : Nat
  read_le_write : read ≤ write
  write_le_capacity : write ≤ capacity

namespace Stream

/-- `Stream::Stream`: `capacity` zero bytes, nothing written. -/
def new (capacity : Nat) : Stream where
  buffer := fun _ => 0
  capacity := capacity
  read := 0
  write := 0
  read_le_write := Nat.le_refl 0
  write_le_capacity := Nat.zero_le capacity

def size (s : Stream) : Nat := s.write - s.read

def empty (s : Stream) : Bool := s.size == 0

/-- The bytes written and not yet read. -/
def content (s : Stream) : List UInt8 := s.buffer.bytes s.read s.size

def availableSuffixBytes (s : Stream) : Nat := s.capacity - s.write

/-- `Stream::peek(n)`. -/
def peek (s : Stream) (n : Nat) : Option (List UInt8) :=
  if n > s.size then none else some (s.buffer.bytes s.read n)

/-- `Stream::peek<Object>()`. -/
def peekObject (α : Type) [Packed α] (s : Stream) : Option α :=
  if Packed.size α > s.size then none
  else some (Packed.decode (s.buffer.bytes s.read (Packed.size α)))

/-- The positions after `n` bytes were read: an emptied stream starts again at the front. -/
def advance (s : Stream) (n : Nat) (h : n ≤ s.size) : Stream :=
  if s.read + n = s.write then
    { s with
      read := 0
      write := 0
      read_le_write := Nat.le_refl 0
      write_le_capacity := Nat.zero_le _ }
  else
    { s with
      read := s.read + n
      read_le_write := by have := s.read_le_write; unfold size at h; omega }

/-- `Stream::shift_read`. -/
def shiftRead (n : Nat) : Prog Stream Unit := fun s =>
  if h : n ≤ s.size then .ok () (s.advance n h)
  else .error (.runtimeError "Not enough bytes") s

/-- `Stream::pop(n)`. -/
def pop (n : Nat) : Prog Stream (Option (List UInt8)) := do
  let s ← get
  if n > s.size then return none
  let res := s.peek n
  shiftRead n
  return res

/-- `Stream::pop<Object>()`. -/
def popObject (α : Type) [Packed α] : Prog Stream (Option α) := do
  let s ← get
  if Packed.size α > s.size then return none
  let ret := Packed.decode (s.buffer.bytes s.read (Packed.size α))
  let _ ← pop (Packed.size α)
  return some ret

/-- `Stream::push_bytes(ByteView)`. -/
def pushBytes (bytes : ByteView) : Prog Stream Unit := fun s =>
  if h : s.availableSuffixBytes ≥ bytes.size then
    .ok () { s with
      buffer := s.buffer.write s.write bytes.toList
      write := s.write + bytes.size
      read_le_write := Nat.le_trans s.read_le_write (Nat.le_add_right _ _)
      write_le_capacity := by
        have := s.write_le_capacity
        unfold availableSuffixBytes at h
        omega }
  else .error (.runtimeError "Not enough space") s

/-- `Stream::push_bytes(const std::string&)`, which has a message of its own. -/
def pushString (str : List UInt8) : Prog Stream Unit := fun s =>
  if h : s.write + str.length ≤ s.capacity then
    .ok () { s with
      buffer := s.buffer.write s.write str
      write := s.write + str.length
      read_le_write := Nat.le_trans s.read_le_write (Nat.le_add_right _ _)
      write_le_capacity := h }
  else .error (.runtimeError "Out of bounds") s

/-- `Stream::push`: an object is stored as its bytes, with the check of the string version. -/
def push (object : List UInt8) : Prog Stream Unit := pushString object

/-- `Stream::shift`: move the content to the front of the vector. -/
def shift (s : Stream) : Stream where
  buffer := s.buffer.write 0 s.content
  capacity := s.capacity
  read := 0
  write := s.size
  read_le_write := Nat.zero_le _
  write_le_capacity := Nat.le_trans (Nat.sub_le _ _) s.write_le_capacity

/-- How `std::search` compares a byte of the buffer with a character of the pattern: both become
`int`, and `char` is signed on the target. -/
def equalsChar (b c : UInt8) : Bool := (b.toNat : Int) == c.toInt8.toInt

/-- Every character of `pattern` compares equal with the byte at its place. -/
def startsWith : (pattern bytes : List UInt8) → Bool
  | [], _ => true
  | _ :: _, [] => false
  | c :: pattern, b :: bytes => equalsChar b c && startsWith pattern bytes

/-- `std::search`: the first position at which `pattern` matches, else the length of the text. -/
def stdSearch (pattern : List UInt8) : List UInt8 → Nat
  | [] => 0
  | b :: bs => if startsWith pattern (b :: bs) then 0 else stdSearch pattern bs + 1

/-- `Stream::search`. -/
def search (s : Stream) (pattern : List UInt8) : Option Nat :=
  let res := stdSearch pattern s.content
  if res == s.size then none else some res

/-! ### Content lemmas -/

section Content

variable (s : Stream)

@[simp] theorem length_content : s.content.length = s.size := by
  simp [content]

@[simp] theorem content_new (capacity : Nat) : (new capacity).content = [] := rfl

@[simp] theorem size_new (capacity : Nat) : (new capacity).size = 0 := rfl

theorem size_le_capacity : s.size ≤ s.capacity :=
  Nat.le_trans (Nat.sub_le _ _) s.write_le_capacity

theorem peek_of_le {n : Nat} (h : n ≤ s.size) : s.peek n = some (s.content.take n) := by
  rw [peek, if_neg (by omega), content, s.buffer.take_bytes h]

theorem peek_of_gt {n : Nat} (h : s.size < n) : s.peek n = none := by
  rw [peek, if_pos h]

theorem peekObject_of_le (α : Type) [Packed α] (h : Packed.size α ≤ s.size) :
    s.peekObject α = some (Packed.decode (s.content.take (Packed.size α))) := by
  rw [peekObject, if_neg (by omega), content, s.buffer.take_bytes h]

theorem peekObject_of_gt (α : Type) [Packed α] (h : s.size < Packed.size α) :
    s.peekObject α = none := by
  rw [peekObject, if_pos h]

theorem content_advance {n : Nat} (h : n ≤ s.size) :
    (s.advance n h).content = s.content.drop n := by
  have hr := s.read_le_write
  unfold advance
  split
  · have hn : n = s.size := by unfold size; omega
    have hd : s.content.drop n = [] := List.drop_eq_nil_of_le (by simp [hn])
    rw [hd]
    rfl
  · rw [content, content, s.buffer.drop_bytes h]
    congr 1
    simp only [size]
    omega

@[simp] theorem size_advance {n : Nat} (h : n ≤ s.size) :
    (s.advance n h).size = s.size - n := by
  rw [← length_content, content_advance, List.length_drop, length_content]

@[simp] theorem capacity_advance {n : Nat} (h : n ≤ s.size) :
    (s.advance n h).capacity = s.capacity := by
  unfold advance
  split <;> rfl

theorem pop_of_le {n : Nat} (h : n ≤ s.size) :
    pop n s = .ok (some (s.content.take n)) (s.advance n h) := by
  have hs : shiftRead n s = .ok () (s.advance n h) := dif_pos h
  rw [pop, bind_of_ok (get_apply s), if_neg (by omega), bind_of_ok hs, pure_apply, peek_of_le s h]

theorem pop_of_gt {n : Nat} (h : s.size < n) : pop n s = .ok none s := by
  rw [pop, bind_of_ok (get_apply s), if_pos h, pure_apply]

theorem popObject_of_le (α : Type) [Packed α] (h : Packed.size α ≤ s.size) :
    popObject α s =
      .ok (some (Packed.decode (s.content.take (Packed.size α)))) (s.advance _ h) := by
  rw [popObject, bind_of_ok (get_apply s), if_neg (by omega), bind_of_ok (pop_of_le s h),
    pure_apply, content, s.buffer.take_bytes h]

theorem popObject_of_gt (α : Type) [Packed α] (h : s.size < Packed.size α) :
    popObject α s = .ok none s := by
  rw [popObject, bind_of_ok (get_apply s), if_pos h, pure_apply]

/-- What `push_bytes` does: it throws without effect or appends the bytes. -/
theorem pushBytes_cases (bytes : ByteView) :
    (s.availableSuffixBytes < bytes.size ∧
      pushBytes bytes s = .error (.runtimeError "Not enough space") s) ∨
    ∃ s', pushBytes bytes s = .ok () s' ∧ s'.content = s.content ++ bytes.toList ∧
      s'.capacity = s.capacity := by
  by_cases h : s.availableSuffixBytes ≥ bytes.size
  · refine Or.inr ⟨_, dif_pos h, ?_, rfl⟩
    have hr := s.read_le_write
    have hsize : s.write + bytes.size - s.read = (s.write - s.read) + bytes.size := by omega
    have hpos : s.read + (s.write - s.read) = s.write := by omega
    have hnew := Memory.bytes_write_same s.buffer s.write bytes.toList
    rw [ByteView.length_toList] at hnew
    simp only [content, size, hsize]
    rw [Memory.bytes_add, Memory.bytes_write_before _ _ (by omega), hpos, hnew]
  · exact Or.inl ⟨by omega, dif_neg h⟩

theorem pushBytes_nil {bytes : ByteView} (h : bytes.size = 0) : pushBytes bytes s = .ok () s := by
  have hle : s.availableSuffixBytes ≥ bytes.size := by omega
  unfold pushBytes
  rw [dif_pos hle]
  cases s
  simp [ByteView.toList_eq_nil h, h]

@[simp] theorem size_shift : s.shift.size = s.size := by
  simp [shift, size]

@[simp] theorem content_shift : s.shift.content = s.content := by
  have h := Memory.bytes_write_same s.buffer 0 s.content
  rw [length_content] at h
  rw [content, size_shift]
  exact h

/-- Shifting a shifted stream changes nothing, stale bytes included. -/
@[simp] theorem shift_shift : s.shift.shift = s.shift := by
  have hb : s.shift.shift.buffer = s.shift.buffer := by
    change s.shift.buffer.write 0 s.shift.content = s.shift.buffer
    rw [content_shift]
    exact Memory.write_write s.buffer 0 rfl
  have hw : s.shift.shift.write = s.shift.write := size_shift s
  unfold shift at *
  simp only [Stream.mk.injEq]
  exact ⟨hb, trivial, trivial, hw⟩

end Content

/-! ### Read transactions -/

/-- `Stream::ReadTransaction`: a cursor over the content at the time it was opened. -/
structure ReadTransaction where
  view : ByteView
  readIt : Nat

/-- `Stream::read_transaction`. -/
def readTransaction (s : Stream) : ReadTransaction := ⟨⟨s.buffer, s.read, s.size⟩, 0⟩

namespace ReadTransaction

def size (t : ReadTransaction) : Nat := t.view.size - t.readIt

/-- `ByteViewStream::pop(n)`; a failed pop leaves the cursor where it was. -/
def pop (t : ReadTransaction) (n : Nat) : Option (List UInt8 × ReadTransaction) :=
  if t.size < n then none
  else some (t.view.mem.bytes (t.view.data + t.readIt) n, { t with readIt := t.readIt + n })

/-- `ByteViewStream::pop<Object>()`. -/
def popObject (α : Type) [Packed α] (t : ReadTransaction) : Option (α × ReadTransaction) :=
  (t.pop (Packed.size α)).map fun (bytes, t) => (Packed.decode bytes, t)

/-- `ByteViewStream::peek(n)`. -/
def peek (t : ReadTransaction) (n : Nat) : Option (List UInt8) :=
  if t.size < n then none else some (t.view.mem.bytes (t.view.data + t.readIt) n)

/-- `ByteViewStream::peek<Object>()`. -/
def peekObject (α : Type) [Packed α] (t : ReadTransaction) : Option α :=
  if t.size < Packed.size α then none
  else some (Packed.decode (t.view.mem.bytes (t.view.data + t.readIt) (Packed.size α)))

/-- `operator[](0)` on the view that a `pop` at the cursor returns, whatever its size. -/
def front (t : ReadTransaction) : UInt8 := t.view.get t.readIt

/-- The bytes the cursor has not passed. -/
def rest (t : ReadTransaction) : List UInt8 := t.view.toList.drop t.readIt

@[simp] theorem length_rest (t : ReadTransaction) : t.rest.length = t.size := by
  simp [rest, size]

theorem pop_of_gt {t : ReadTransaction} {n : Nat} (h : t.rest.length < n) : t.pop n = none := by
  rw [length_rest] at h
  rw [pop, if_pos h]

/-- The cursor `n` bytes further on. -/
def skip (t : ReadTransaction) (n : Nat) : ReadTransaction := { t with readIt := t.readIt + n }

@[simp] theorem readIt_skip (t : ReadTransaction) (n : Nat) : (t.skip n).readIt = t.readIt + n :=
  rfl

@[simp] theorem rest_skip (t : ReadTransaction) (n : Nat) : (t.skip n).rest = t.rest.drop n := by
  simp [rest, skip]

/-- A pop within bounds returns the next bytes and passes them. -/
theorem pop_of_le {t : ReadTransaction} {n : Nat} (h : n ≤ t.rest.length) :
    t.pop n = some (t.rest.take n, t.skip n) := by
  rw [length_rest] at h
  rw [pop, if_neg (by omega)]
  by_cases h0 : n = 0
  · subst h0; simp [skip]
  · have hle : t.readIt ≤ t.view.size := by unfold size at h; omega
    have hn : n ≤ t.view.size - t.readIt := h
    rw [rest, ByteView.toList, Memory.drop_bytes _ hle, Memory.take_bytes _ hn, skip]

theorem popObject_of_le (α : Type) [Packed α] {t : ReadTransaction}
    (h : Packed.size α ≤ t.rest.length) : t.popObject α =
      some (Packed.decode (t.rest.take (Packed.size α)), t.skip (Packed.size α)) := by
  rw [popObject, pop_of_le h]
  rfl

theorem popObject_of_gt (α : Type) [Packed α] {t : ReadTransaction}
    (h : t.rest.length < Packed.size α) : t.popObject α = none := by
  rw [popObject, pop_of_gt h]
  rfl

end ReadTransaction

@[simp] theorem rest_readTransaction (s : Stream) : s.readTransaction.rest = s.content := rfl

@[simp] theorem readIt_readTransaction (s : Stream) : s.readTransaction.readIt = 0 := rfl

/-- `ReadTransaction::commit`: pop from the stream what the transaction has read. -/
def commit (t : ReadTransaction) : Prog Stream (List UInt8) := do
  let some bytes ← pop t.readIt | throw .badOptionalAccess
  return bytes

theorem commit_of_le {s : Stream} {t : ReadTransaction} (h : t.readIt ≤ s.size) :
    commit t s = .ok (s.content.take t.readIt) (s.advance t.readIt h) := by
  rw [commit, bind_of_ok (pop_of_le s h)]
  rfl

end Stream

end WsGateway
