import WsGateway.Network.Wss.Client

/-!
# WebSocket framing

`Frame.encode` is the encoding of RFC 6455 for unmasked frames with the shortest
length field. The two dispatchers read the header back for every length but one:
a payload of 125 bytes still has a 7-bit length, and `FrameBasicHeader::type`
takes it for a 64-bit one.
-/

namespace WsGateway.Network.Wss

open Library

/-! ## The encoding -/

/-- An unmasked frame with a defined opcode. -/
structure Frame where
  fin : Bool
  rsv1 : Bool
  rsv2 : Bool
  rsv3 : Bool
  code : OpCode
  code_le : code.toNat ≤ 10
  payload : List UInt8

namespace Frame

/-- The bit of a byte at this place. -/
def bit (b : Bool) (place : UInt8) : UInt8 := if b then 1 <<< place else 0

/-- The first byte of the header. -/
def firstByte (fin rsv1 rsv2 rsv3 : Bool) (code : OpCode) : UInt8 :=
  bit fin 7 ||| bit rsv1 6 ||| bit rsv2 5 ||| bit rsv3 4 ||| code

/-- The length of a payload in its shortest form, the mask bit off. -/
def lengthField (n : Nat) : List UInt8 :=
  if n ≤ 125 then [UInt8.ofNat n]
  else if n ≤ 65535 then 126 :: beBytes 2 n
  else 127 :: beBytes 8 n

def encode (f : Frame) : List UInt8 :=
  firstByte f.fin f.rsv1 f.rsv2 f.rsv3 f.code :: lengthField f.payload.length ++ f.payload

/-- The length of the header. -/
def headerLength (n : Nat) : Nat := if n ≤ 125 then 2 else if n ≤ 65535 then 4 else 10

/-- The header that the dispatchers should read. -/
def header (f : Frame) : FrameHeader where
  code := f.code
  rsv3 := f.rsv3
  rsv2 := f.rsv2
  rsv1 := f.rsv1
  fin := f.fin
  mask := false
  size := f.payload.length
  headerSize := headerLength f.payload.length

theorem length_lengthField (n : Nat) : (lengthField n).length + 1 = headerLength n := by
  unfold lengthField headerLength
  split
  · rfl
  · split <;> simp

end Frame

/-- The frame at the front of the stream is read back and `t` is left. -/
structure Decodes (s : Stream) (f : Frame) (t : List UInt8) : Prop where
  peek : peekHeader s = some f.header
  pop : ∃ s', popHeader s = .ok (some f.header) s' ∧ s'.content = f.payload ++ t
  extract : ∃ s', extractPayload s = .ok (some ⟨f.code, f.payload⟩) s' ∧ s'.content = t

/-! ## The dispatchers -/

section Dispatch

variable {s : Stream}

theorem peekHeaderImpl_of_le (α : Type) [HeaderType α] (h : Packed.size α ≤ s.size) :
    peekHeaderImpl α s = some (toFrameHeader α (Packed.decode (s.content.take (Packed.size α)))) := by
  rw [peekHeaderImpl, s.peekObject_of_le α h]
  rfl

theorem popHeaderImpl_of_le (α : Type) [HeaderType α] (h : Packed.size α ≤ s.size) :
    popHeaderImpl α s =
      .ok (some (toFrameHeader α (Packed.decode (s.content.take (Packed.size α)))))
        (s.advance _ h) := by
  rw [popHeaderImpl, bind_of_ok (s.popObject_of_le α h)]
  rfl

/-- The type of the header at the front of the stream. -/
def frameType (s : Stream) : FrameType := (FrameBasicHeader.decode (s.content.take 2)).type

theorem peekHeader_eq (h : 2 ≤ s.size) : peekHeader s = match frameType s with
    | .Base => peekHeaderImpl FrameBasicHeader s
    | .Extended16 => peekHeaderImpl FrameExtended16 s
    | .Extended64 => peekHeaderImpl FrameExtended64 s := by
  rw [peekHeader, s.peekObject_of_le FrameBasicHeader h]
  rfl

theorem popHeader_eq (h : 2 ≤ s.size) : popHeader s = (match frameType s with
    | .Base => popHeaderImpl FrameBasicHeader
    | .Extended16 => popHeaderImpl FrameExtended16
    | .Extended64 => popHeaderImpl FrameExtended64) s := by
  rw [popHeader, bind_of_ok (get_apply s), s.peekObject_of_le FrameBasicHeader h]
  rfl

/-- Both dispatchers read the header that the frame type announces. -/
theorem dispatch_of_le (α : Type) [HeaderType α] (h : Packed.size α ≤ s.size)
    (hpeek : peekHeader s = peekHeaderImpl α s) (hpop : popHeader s = popHeaderImpl α s) :
    let hdr := toFrameHeader α (Packed.decode (s.content.take (Packed.size α)))
    peekHeader s = some hdr ∧ ∃ s', popHeader s = .ok (some hdr) s' ∧
      s'.content = s.content.drop (Packed.size α) := by
  refine ⟨hpeek.trans (peekHeaderImpl_of_le α h), s.advance _ h, ?_, s.content_advance h⟩
  exact hpop.trans (popHeaderImpl_of_le α h)

/-- With its header read, the frame is taken out of the stream. -/
theorem extractPayload_of_header {f : Frame} {t : List UInt8} {s' : Stream}
    (hcap : s.capacity < 2 ^ 63) (hpeek : peekHeader s = some f.header)
    (hpop : popHeader s = .ok (some f.header) s') (hs' : s'.content = f.payload ++ t)
    (hsize : s.size = f.header.headerSize + s'.size) :
    ∃ s'', extractPayload s = .ok (some ⟨f.code, f.payload⟩) s'' ∧ s''.content = t := by
  have hcap' := s.size_le_capacity
  have hlen : s'.size = f.payload.length + t.length := by
    rw [← Stream.length_content, hs', List.length_append]
  have hmod : (f.header.headerSize + f.header.size) % 2 ^ 64 =
      f.header.headerSize + f.header.size := Nat.mod_eq_of_lt (by simp only [Frame.header] at *; omega)
  have hle : f.header.headerSize + f.header.size ≤ s.size := by
    simp only [Frame.header] at *
    omega
  have hle' : f.header.size ≤ s'.size := by
    simp only [Frame.header] at *
    omega
  refine ⟨s'.advance _ hle', ?_, ?_⟩
  · rw [extractPayload, bind_of_ok (get_apply s), hpeek]
    dsimp only
    rw [hmod, s.peek_of_le hle]
    dsimp only
    rw [bind_of_ok hpop]
    dsimp only
    rw [bind_of_ok (s'.pop_of_le hle'), hs']
    dsimp only
    rw [require_bind, if_pos (by simp [Frame.header]), require_bind,
      if_pos (decide_eq_true (show f.header.code.toNat ≤ 10 from f.code_le))]
    simp [Frame.header]
  · rw [Stream.content_advance, hs']
    exact List.drop_left

end Dispatch

/-! ## The length classes -/

section Classes

variable {s : Stream} {f : Frame} {t : List UInt8}

/-- The flags and the opcode are read back from the first byte. -/
theorem decode_basic (f : Frame) (b : UInt8) :
    FrameBasicHeader.decode [Frame.firstByte f.fin f.rsv1 f.rsv2 f.rsv3 f.code, b] =
      ⟨f.code, f.rsv3, f.rsv2, f.rsv1, f.fin, b &&& 0x7F, b &&& 0x80 != 0⟩ := by
  have hbits : ∀ fin rsv1 rsv2 rsv3 : Bool, ∀ n < 11,
      let b := Frame.firstByte fin rsv1 rsv2 rsv3 (UInt8.ofNat n)
      b &&& 0x0F = UInt8.ofNat n ∧ (b &&& 0x10 != 0) = rsv3 ∧ (b &&& 0x20 != 0) = rsv2 ∧
        (b &&& 0x40 != 0) = rsv1 ∧ (b &&& 0x80 != 0) = fin := by decide
  obtain ⟨hcode, h3, h2, h1, hfin⟩ :=
    hbits f.fin f.rsv1 f.rsv2 f.rsv3 f.code.toNat (Nat.lt_succ_of_le f.code_le)
  rw [UInt8.ofNat_toNat] at hcode h3 h2 h1 hfin
  simp only [FrameBasicHeader.decode, List.getD_cons_zero, List.getD_cons_succ, hcode, h1, h2, h3,
    hfin]

/-- A 7-bit length is read back with the mask bit off. -/
theorem decode_length : ∀ n < 128,
    UInt8.ofNat n &&& 0x7F = UInt8.ofNat n ∧ (UInt8.ofNat n &&& 0x80 != 0) = false := by
  decide

/-- The bytes of the header, with the second byte apart. -/
theorem content_eq (hs : s.content = f.encode ++ t) {b : UInt8} {ext : List UInt8}
    (hlen : Frame.lengthField f.payload.length = b :: ext) :
    s.content = (Frame.firstByte f.fin f.rsv1 f.rsv2 f.rsv3 f.code :: b :: ext) ++
      (f.payload ++ t) := by
  rw [hs, Frame.encode, hlen]
  simp

theorem frameType_eq (hs : s.content = f.encode ++ t) {n : Nat} {ext : List UInt8} (hn : n < 128)
    (hlen : Frame.lengthField f.payload.length = UInt8.ofNat n :: ext) : frameType s =
      if n < 125 then .Base else if n = 126 then .Extended16 else .Extended64 := by
  rw [frameType, content_eq hs hlen]
  change (FrameBasicHeader.decode [_, UInt8.ofNat n]).type = _
  rw [decode_basic, (decode_length n hn).1]
  have htype : ∀ n < 128, (if UInt8.ofNat n < 125 then FrameType.Base
      else if UInt8.ofNat n == 126 then .Extended16 else .Extended64) =
      if n < 125 then .Base else if n = 126 then .Extended16 else .Extended64 := by decide
  exact htype n hn

/-- The stream is the header, then the payload and the rest. -/
theorem length_header (f : Frame) : (Frame.firstByte f.fin f.rsv1 f.rsv2 f.rsv3 f.code ::
    Frame.lengthField f.payload.length).length = f.header.headerSize :=
  Frame.length_lengthField f.payload.length

theorem size_eq (hs : s.content = f.encode ++ t) :
    s.size = f.header.headerSize + (f.payload ++ t).length := by
  rw [← Stream.length_content, hs, ← length_header]
  simp [Frame.encode]
  omega

/-- A frame whose header struct `α` has the right length and type, and reads back the header. -/
theorem decodes_of_class (α : Type) [HeaderType α] (hcap : s.capacity < 2 ^ 63)
    (hs : s.content = f.encode ++ t) (hsize : Packed.size α = f.header.headerSize)
    (hpeek : peekHeader s = peekHeaderImpl α s) (hpop : popHeader s = popHeaderImpl α s)
    (hhdr : toFrameHeader α (Packed.decode (s.content.take (Packed.size α))) = f.header) :
    Decodes s f t := by
  have hlen := size_eq hs
  obtain ⟨hpeek', s', hpop', hs'⟩ := dispatch_of_le α (by omega) hpeek hpop
  rw [hhdr] at hpeek' hpop'
  have hrest : s'.content = f.payload ++ t := by
    have happ : f.encode ++ t = (Frame.firstByte f.fin f.rsv1 f.rsv2 f.rsv3 f.code ::
        Frame.lengthField f.payload.length) ++ (f.payload ++ t) := by simp [Frame.encode]
    rw [hs', hsize, hs, happ, ← length_header, List.drop_left]
  refine ⟨hpeek', ⟨s', hpop', hrest⟩, extractPayload_of_header hcap hpeek' hpop' hrest ?_⟩
  rw [hlen, ← hrest, Stream.length_content]

theorem decodes_short (hcap : s.capacity < 2 ^ 63) (hs : s.content = f.encode ++ t)
    (hn : f.payload.length < 125) : Decodes s f t := by
  have hlen : Frame.lengthField f.payload.length = [UInt8.ofNat f.payload.length] :=
    if_pos (by omega)
  have htype : frameType s = .Base := by
    rw [frameType_eq hs (by omega) hlen, if_pos hn]
  have hsize : (2 : Nat) = f.header.headerSize := (if_pos (by omega)).symm
  have h2 : 2 ≤ s.size := by
    have := size_eq hs
    omega
  refine decodes_of_class FrameBasicHeader hcap hs hsize ?_ ?_ ?_
  · rw [peekHeader_eq h2, htype]
  · rw [popHeader_eq h2, htype]
  · rw [content_eq hs hlen]
    change toFrameHeader FrameBasicHeader (FrameBasicHeader.decode [_, _]) = f.header
    obtain ⟨hval, hmask⟩ := decode_length f.payload.length (by omega)
    rw [decode_basic, hval, hmask]
    have hnat : (UInt8.ofNat f.payload.length).toNat = f.payload.length :=
      UInt8.toNat_ofNat_of_lt' (by unfold UInt8.size; omega)
    change FrameHeader.mk _ _ _ _ _ _ (UInt8.ofNat f.payload.length).toNat 2 = f.header
    rw [hnat, hsize]
    rfl

/-- A length field of `w` bytes after the mark `k`, read through the header struct `α`. -/
theorem decodes_extended (α : Type) [HeaderType α] {w k : Nat} (hcap : s.capacity < 2 ^ 63)
    (hs : s.content = f.encode ++ t) (hk : k < 128) (hw : f.payload.length < 256 ^ w)
    (hlen : Frame.lengthField f.payload.length = UInt8.ofNat k :: beBytes w f.payload.length)
    (hsize : 2 + w = f.header.headerSize) (hα : Packed.size α = 2 + w)
    (hpeek : peekHeader s = peekHeaderImpl α s) (hpop : popHeader s = popHeaderImpl α s)
    (hdec : ∀ bs, toFrameHeader α (Packed.decode bs) =
      let b := FrameBasicHeader.decode (bs.take 2)
      ⟨b.code, b.rsv3, b.rsv2, b.rsv1, b.fin, b.mask, beNat ((bs.drop 2).take w), 2 + w⟩) :
    Decodes s f t := by
  refine decodes_of_class α hcap hs (hα.trans hsize) hpeek hpop ?_
  have htake : s.content.take (2 + w) = Frame.firstByte f.fin f.rsv1 f.rsv2 f.rsv3 f.code ::
      UInt8.ofNat k :: beBytes w f.payload.length := by
    rw [content_eq hs hlen, List.take_left' (by simp; omega)]
  rw [hα, htake, hdec]
  change (let b := FrameBasicHeader.decode [_, UInt8.ofNat k]
    FrameHeader.mk b.code b.rsv3 b.rsv2 b.rsv1 b.fin b.mask
      (beNat ((beBytes w f.payload.length).take w)) (2 + w)) = f.header
  rw [decode_basic, (decode_length k hk).2, List.take_of_length_le (by simp),
    beNat_beBytes_of_lt hw, hsize]
  rfl

theorem decodes_medium (hcap : s.capacity < 2 ^ 63) (hs : s.content = f.encode ++ t)
    (hlow : 125 < f.payload.length) (hhigh : f.payload.length ≤ 65535) : Decodes s f t := by
  have hlen : Frame.lengthField f.payload.length =
      UInt8.ofNat 126 :: beBytes 2 f.payload.length := by
    rw [Frame.lengthField, if_neg (by omega), if_pos hhigh]
    rfl
  have htype : frameType s = .Extended16 := frameType_eq hs (by omega) hlen
  have hsize : 2 + 2 = f.header.headerSize := by
    change 4 = Frame.headerLength f.payload.length
    rw [Frame.headerLength, if_neg (by omega), if_pos hhigh]
  have h2 : 2 ≤ s.size := by
    have := size_eq hs
    omega
  refine decodes_extended FrameExtended16 hcap hs (by omega) (by omega) hlen hsize rfl ?_ ?_
    fun _ => rfl
  · rw [peekHeader_eq h2, htype]
  · rw [popHeader_eq h2, htype]

theorem decodes_long (hcap : s.capacity < 2 ^ 63) (hs : s.content = f.encode ++ t)
    (hlow : 65535 < f.payload.length) : Decodes s f t := by
  have hlen : Frame.lengthField f.payload.length =
      UInt8.ofNat 127 :: beBytes 8 f.payload.length := by
    rw [Frame.lengthField, if_neg (by omega), if_neg (by omega)]
    rfl
  have htype : frameType s = .Extended64 := frameType_eq hs (by omega) hlen
  have hsize : 2 + 8 = f.header.headerSize := by
    change 10 = Frame.headerLength f.payload.length
    rw [Frame.headerLength, if_neg (by omega), if_neg (by omega)]
  have hcontent := size_eq hs
  have hcap' := s.size_le_capacity
  rw [List.length_append] at hcontent
  refine decodes_extended FrameExtended64 hcap hs (by omega) (by omega) hlen hsize rfl ?_ ?_
    fun _ => rfl
  · rw [peekHeader_eq (by omega), htype]
  · rw [popHeader_eq (by omega), htype]

/-- A payload of 125 bytes is taken for one with a 64-bit length. -/
theorem not_decodes_125 (hs : s.content = f.encode ++ t) (hn : f.payload.length = 125) :
    ¬ Decodes s f t := by
  intro h
  have hlen : Frame.lengthField f.payload.length = [UInt8.ofNat 125] := by
    rw [hn]
    rfl
  have htype : frameType s = .Extended64 := frameType_eq hs (by omega) hlen
  have hsize : f.header.headerSize = 2 := if_pos (by omega)
  have hcontent := size_eq hs
  rw [List.length_append] at hcontent
  have hpeek := h.peek
  rw [peekHeader_eq (by omega), htype, peekHeaderImpl_of_le FrameExtended64
    (show 10 ≤ s.size by omega)] at hpeek
  have hten : (10 : Nat) = f.header.headerSize :=
    congrArg FrameHeader.headerSize (Option.some.inj hpeek)
  omega

end Classes

/-- **Framing**: the encoding of a frame followed by any bytes is read back by both dispatchers and
by `extract_payload`, exactly if the payload does not have 125 bytes. No vector is larger than
`2 ^ 63` bytes. -/
theorem decodes_iff (s : Stream) (f : Frame) (t : List UInt8) (hcap : s.capacity < 2 ^ 63)
    (hs : s.content = f.encode ++ t) : Decodes s f t ↔ f.payload.length ≠ 125 := by
  constructor
  · intro h hn
    exact not_decodes_125 hs hn h
  · intro hn
    rcases Nat.lt_trichotomy f.payload.length 125 with hlt | heq | hgt
    · exact decodes_short hcap hs hlt
    · exact absurd heq hn
    · by_cases hhigh : f.payload.length ≤ 65535
      · exact decodes_medium hcap hs hgt hhigh
      · exact decodes_long hcap hs (by omega)

theorem toNat_text_le : OpCode.Text.toNat ≤ 10 := by decide

/-- A text frame with a payload of zeros. -/
def zeroFrame (n : Nat) : Frame :=
  ⟨true, false, false, false, .Text, toNat_text_le, List.replicate n 0⟩

/-- The stream of a client that was given these bytes. -/
def filledStream (bytes : List UInt8) : Stream :=
  after (Stream.pushBytes (.ofList bytes) (Stream.new 200000))

theorem content_filledStream {bytes : List UInt8} (h : bytes.length ≤ 200000) :
    (filledStream bytes).content = bytes := by
  rcases Stream.pushBytes_cases (Stream.new 200000) (.ofList bytes) with ⟨hlt, -⟩ | ⟨s, hok, hs, -⟩
  · have hroom : (Stream.new 200000).availableSuffixBytes = 200000 := rfl
    rw [hroom, ByteView.size_ofList] at hlt
    omega
  · rw [filledStream, hok, after_ok, hs, Stream.content_new, ByteView.toList_ofList]
    rfl

theorem capacity_filledStream (bytes : List UInt8) : (filledStream bytes).capacity = 200000 := by
  rcases Stream.pushBytes_cases (Stream.new 200000) (.ofList bytes) with ⟨-, herr⟩ | ⟨s, hok, -, hs⟩
  · rw [filledStream, herr]
    rfl
  · rw [filledStream, hok]
    exact hs

theorem decodes_two_bytes : Decodes (filledStream ((zeroFrame 2).encode ++ [7])) (zeroFrame 2) [7] :=
  (decodes_iff _ _ _ (by decide) (content_filledStream (by decide))).mpr (by decide)

/-- A text message of 125 bytes is not read back. -/
theorem not_decodes_125_bytes :
    (filledStream ((zeroFrame 125).encode ++ [7])).content = (zeroFrame 125).encode ++ [7] ∧
      ¬ Decodes (filledStream ((zeroFrame 125).encode ++ [7])) (zeroFrame 125) [7] := by
  have hs := @content_filledStream ((zeroFrame 125).encode ++ [7])
    (by simp [Frame.encode, Frame.lengthField, zeroFrame])
  exact ⟨hs, not_decodes_125 hs rfl⟩

end WsGateway.Network.Wss
