import WsGateway.Verify.Wss.Messages

/-!
# Extracting frames

`extract_payload` looks at the header first, so a frame that is not complete
leaves the stream as it was. The sum that tests for completeness wraps: a header
that announces almost `2 ^ 64` bytes passes it, and the header is lost. Without
such headers the frames taken out of a stream, and the bytes left, do not depend
on the chunks in which the bytes arrived: `Extracts` describes them, and it
composes over the chunks.
-/

namespace WsGateway.Network.Wss

open Library

/-! ## Nothing taken -/

/-- If `extract_payload` returns nothing, the stream is as before, and it does not hold the frame
that its header announces. -/
def Atomic (s : Stream) : Prop :=
  ∀ s', extractPayload s = .ok none s' → s'.content = s.content ∧
    ∀ header, peekHeader s = some header → s.size < header.headerSize + header.size

/-- What a header can announce. -/
structure Bounded (bs : List UInt8) (header : FrameHeader) : Prop where
  present : header.headerSize ≤ bs.length
  pos : 2 ≤ header.headerSize
  short : header.headerSize ≤ 10
  size : header.size < 2 ^ 64

section Atomic

variable {s : Stream} {bs : List UInt8} {header : FrameHeader}

theorem bounded_of_objectAt {α : Type} [HeaderType α] (hpos : 2 ≤ Packed.size α)
    (hshort : Packed.size α ≤ 10)
    (hsize : ∀ bytes, HeaderType.payloadSize (Packed.decode bytes : α) < 2 ^ 64)
    (h : (objectAt α bs).map (toFrameHeader α) = some header) : Bounded bs header := by
  obtain ⟨a, ha, rfl⟩ := Option.map_eq_some_iff.mp h
  unfold objectAt at ha
  split at ha
  · cases ha
    exact ⟨‹_›, hpos, hshort, hsize _⟩
  · cases ha

theorem beNat_take_lt (bytes : List UInt8) (w : Nat) : beNat (bytes.take w) < 256 ^ w :=
  Nat.lt_of_lt_of_le (beNat_lt _) (Nat.pow_le_pow_right (by decide) (List.length_take_le _ _))

theorem frontHeader_bounded (h : frontHeader bs = some header) : Bounded bs header := by
  unfold frontHeader at h
  cases hbase : objectAt FrameBasicHeader bs with
  | none =>
    rw [hbase] at h
    cases h
  | some base =>
    rw [hbase] at h
    dsimp only [Option.bind_eq_bind, Option.bind_some] at h
    cases htype : base.type with
    | Base =>
      rw [htype] at h
      refine bounded_of_objectAt (α := FrameBasicHeader) (by decide) (by decide) (fun bytes => ?_)
        (hbase.symm ▸ h)
      exact Nat.lt_trans (UInt8.toNat_lt _) (by decide)
    | Extended16 =>
      rw [htype] at h
      refine bounded_of_objectAt (α := FrameExtended16) (by decide) (by decide) (fun bytes => ?_) h
      exact Nat.lt_trans (beNat_take_lt _ 2) (by decide)
    | Extended64 =>
      rw [htype] at h
      refine bounded_of_objectAt (α := FrameExtended64) (by decide) (by decide) (fun bytes => ?_) h
      exact Nat.lt_of_lt_of_le (beNat_take_lt _ 8) (by decide)

/-- A frame that the stream holds. -/
theorem exists_starts (h : frontHeader bs = some header)
    (hle : header.headerSize + header.size ≤ bs.length) :
    ∃ payload rest, Starts bs header payload rest := by
  refine ⟨(bs.drop header.headerSize).take header.size, (bs.drop header.headerSize).drop header.size,
    h, (List.take_append_drop ..).symm, ?_⟩
  rw [List.length_take, List.length_drop]
  omega

/-- A header whose announced sum wraps is taken off and lost. -/
theorem extractPayload_wraps (hcap : s.capacity < 2 ^ 63) (h : frontHeader s.content = some header)
    (hwrap : 2 ^ 64 ≤ header.headerSize + header.size) :
    ∃ s', extractPayload s = .ok none s' ∧ s'.content = s.content.drop header.headerSize := by
  have hbounded := frontHeader_bounded h
  have hpresent := hbounded.present
  have hshort := hbounded.short
  have hsize := hbounded.size
  have hbound := s.size_le_capacity
  rw [Stream.length_content] at hpresent
  obtain ⟨hle, hpop⟩ := popHeader_of_front h
  have hmod : (header.headerSize + header.size) % 2 ^ 64 ≤ s.size := by omega
  have hlost : (s.advance header.headerSize hle).size < header.size := by
    rw [Stream.size_advance]
    omega
  refine ⟨s.advance header.headerSize hle, ?_, s.content_advance hle⟩
  rw [extractPayload, bind_of_ok (get_apply s), peekHeader_content, h]
  dsimp only
  rw [s.peek_of_le hmod]
  dsimp only
  rw [bind_of_ok hpop]
  dsimp only
  rw [bind_of_ok (Stream.pop_of_gt _ hlost)]
  rfl

/-- **Atomicity**: a call that returns nothing leaves the stream as it was, and is made on an
incomplete frame, exactly if the length of the announced frame does not wrap. -/
theorem atomic_iff (s : Stream) (hcap : s.capacity < 2 ^ 63) :
    Atomic s ↔
      ∀ header, peekHeader s = some header → header.headerSize + header.size < 2 ^ 64 := by
  unfold Atomic
  rw [peekHeader_content]
  constructor
  · intro hatomic header hheader
    by_contra hwrap
    obtain ⟨s', hextract, hcontent⟩ := extractPayload_wraps hcap hheader (by omega)
    have hbounded := frontHeader_bounded hheader
    have hpresent := hbounded.present
    have hpos := hbounded.pos
    have hlen := congrArg List.length ((hatomic s' hextract).1.symm.trans hcontent)
    rw [List.length_drop] at hlen
    omega
  · intro hfits s' hextract
    by_cases hinc : Incomplete s.content
    · rw [extractPayload_incomplete hinc] at hextract
      cases hextract
      refine ⟨rfl, fun header hheader => ?_⟩
      have hlt := hinc header hheader
      rw [Nat.mod_eq_of_lt (hfits header hheader), Stream.length_content] at hlt
      exact hlt
    · unfold Incomplete at hinc
      push Not at hinc
      obtain ⟨header, hheader, hle⟩ := hinc
      rw [Nat.mod_eq_of_lt (hfits header hheader)] at hle
      obtain ⟨payload, rest, hstarts⟩ := exists_starts hheader hle
      obtain ⟨s'', -, -, hstep⟩ := extractPayload_starts hcap hstarts
      rw [hstep] at hextract
      split at hextract
      · cases hextract
      · split at hextract <;> cases hextract

end Atomic

/-- The beginning of a frame that announces two bytes. -/
theorem atomic_part_of_frame : Atomic (filledStream [0x82, 2, 7]) := by
  refine (atomic_iff _ (by decide)).mpr fun header hheader => ?_
  rw [peekHeader_content, content_filledStream (by decide)] at hheader
  cases hheader
  decide

/-- A header that announces `2 ^ 64 - 1` bytes is taken off although nothing is returned. -/
theorem announced_header_lost :
    ∃ s', extractPayload (filledStream ([0x82, 127] ++ List.replicate 8 0xFF)) = .ok none s' ∧
      (filledStream ([0x82, 127] ++ List.replicate 8 0xFF)).content =
        [0x82, 127] ++ List.replicate 8 0xFF ∧ s'.content = [] := by
  have hcontent := @content_filledStream ([0x82, 127] ++ List.replicate 8 0xFF) (by decide)
  have hfront : frontHeader (filledStream ([0x82, 127] ++ List.replicate 8 0xFF)).content =
      some ⟨0x2, false, false, false, true, false, 2 ^ 64 - 1, 10⟩ := by
    rw [hcontent]
    decide
  obtain ⟨s', hextract, hs'⟩ := extractPayload_wraps (by decide) hfront (by decide)
  rw [hcontent] at hs'
  exact ⟨s', hextract, hcontent, hs'⟩

/-! ## Extracting until nothing is left -/

/-- `extract_payload` until it returns nothing. -/
def extractAll : Nat → Prog Stream (List Result)
  | 0 => throw .diverges
  | fuel + 1 => do
    let some result ← extractPayload | return []
    let results ← extractAll fuel
    return result :: results

/-- `shift`, `push_bytes`, and `extract_payload` until it returns nothing, for every chunk. Each
result takes bytes from the stream, so as many rounds as it has bytes are enough. -/
def extractChunks : List ByteView → Prog Stream (List Result)
  | [] => return []
  | chunk :: chunks => do
    modify Stream.shift
    Stream.pushBytes chunk
    let s ← get
    let results ← extractAll (s.size + 1)
    let more ← extractChunks chunks
    return results ++ more

/-- A header that is read at some point when the frames are taken out of these bytes. -/
inductive HeaderAlong : List UInt8 → FrameHeader → Prop
  | here {bs : List UInt8} {header : FrameHeader} (h : frontHeader bs = some header) :
      HeaderAlong bs header
  | later {bs payload rest : List UInt8} {first header : FrameHeader}
      (h : Starts bs first payload rest) (tail : HeaderAlong rest header) : HeaderAlong bs header

/-- No header read along the way has the mask bit, an undefined opcode or an excessive length. -/
def Plain (bs : List UInt8) : Prop :=
  ∀ header, HeaderAlong bs header →
    header.mask = false ∧ header.code.toNat ≤ 10 ∧ header.size < 2 ^ 63

/-- These results are taken out of the bytes, and `rest` stays. -/
inductive Extracts : List UInt8 → List Result → List UInt8 → Prop
  | waits {bs : List UInt8} (h : Incomplete bs) : Extracts bs [] bs
  | frame {bs payload after rest : List UInt8} {header : FrameHeader} {results : List Result}
      (h : Starts bs header payload after) (hmask : header.mask = false)
      (hcode : header.code.toNat ≤ 10) (tail : Extracts after results rest) :
      Extracts bs (⟨header.code, payload⟩ :: results) rest

section Extracts

variable {s : Stream} {bs x y rest : List UInt8} {header : FrameHeader} {results more : List Result}

theorem Starts.length_lt {payload : List UInt8} (h : Starts bs header payload rest) :
    rest.length < bs.length := by
  have hbounded := frontHeader_bounded h.front
  have hpos := hbounded.pos
  have hsum := h.length hbounded.present
  omega

theorem Starts.append {payload : List UInt8} (h : Starts bs header payload rest) (t : List UInt8) :
    Starts (bs ++ t) header payload (rest ++ t) := by
  refine ⟨frontHeader_append h.front t, ?_, h.size⟩
  rw [List.drop_append_of_le_length (frontHeader_bounded h.front).present, h.bytes,
    List.append_assoc]

theorem HeaderAlong.append (h : HeaderAlong x header) (t : List UInt8) :
    HeaderAlong (x ++ t) header := by
  induction h with
  | here h => exact .here (frontHeader_append h t)
  | later h tail ih => exact .later (h.append t) ih

theorem Plain.of_append (h : Plain (x ++ y)) : Plain x :=
  fun header halong => h header (halong.append y)

theorem Plain.of_extracts (hplain : Plain (x ++ y)) (h : Extracts x results rest) :
    Plain (rest ++ y) := by
  induction h with
  | waits h => exact hplain
  | frame h hmask hcode tail ih =>
    exact ih fun header halong => hplain header (.later (h.append y) halong)

/-- The bytes left are incomplete. -/
theorem Extracts.incomplete (h : Extracts bs results rest) : Incomplete rest := by
  induction h with
  | waits h => exact h
  | frame h hmask hcode tail ih => exact ih

theorem Extracts.length_le (h : Extracts bs results rest) : results.length ≤ bs.length := by
  induction h with
  | waits h => exact Nat.zero_le _
  | frame h hmask hcode tail ih =>
    have hlt := h.length_lt
    rw [List.length_cons]
    omega

/-- What is extracted from a part and then from the rest with more bytes is extracted from all. -/
theorem Extracts.append (h : Extracts x results rest) {rest' : List UInt8}
    (hmore : Extracts (rest ++ y) more rest') : Extracts (x ++ y) (results ++ more) rest' := by
  induction h with
  | waits h => exact hmore
  | frame h hmask hcode tail ih => exact .frame (h.append y) hmask hcode (ih hmore)

/-- Plain bytes can be extracted from. -/
theorem Plain.extracts (hplain : Plain bs) : ∃ results rest, Extracts bs results rest := by
  induction hlen : bs.length using Nat.strong_induction_on generalizing bs with
  | _ n ih =>
    by_cases hinc : Incomplete bs
    · exact ⟨[], bs, .waits hinc⟩
    · unfold Incomplete at hinc
      push Not at hinc
      obtain ⟨header, hheader, hle⟩ := hinc
      obtain ⟨hmask, hcode, hsize⟩ := hplain header (.here hheader)
      have hshort := (frontHeader_bounded hheader).short
      rw [Nat.mod_eq_of_lt (by omega)] at hle
      obtain ⟨payload, rest, hstarts⟩ := exists_starts hheader hle
      obtain ⟨results, rest', htail⟩ := ih rest.length (hlen ▸ hstarts.length_lt)
        (fun header halong => hplain header (.later hstarts halong)) rfl
      exact ⟨_, rest', .frame hstarts hmask hcode htail⟩

theorem Starts.not_incomplete {payload : List UInt8} (h : Starts bs header payload rest) :
    ¬ Incomplete bs := by
  intro hinc
  have hlt := hinc header h.front
  have hsum := h.length (frontHeader_bounded h.front).present
  have hmod := Nat.mod_le (header.headerSize + header.size) (2 ^ 64)
  omega

theorem Starts.unique {header' : FrameHeader} {payload payload' rest' : List UInt8}
    (h : Starts bs header payload rest) (h' : Starts bs header' payload' rest') :
    header = header' ∧ payload = payload' ∧ rest = rest' := by
  obtain rfl : header = header' := Option.some.inj (h.front.symm.trans h'.front)
  obtain ⟨hpayload, hrest⟩ := List.append_inj (h.bytes.symm.trans h'.bytes)
    (h.size.trans h'.size.symm)
  exact ⟨rfl, hpayload, hrest⟩

theorem Extracts.unique {results' : List Result} {rest' : List UInt8}
    (h : Extracts bs results rest) (h' : Extracts bs results' rest') :
    results = results' ∧ rest = rest' := by
  induction h generalizing results' with
  | waits h =>
    cases h' with
    | waits _ => exact ⟨rfl, rfl⟩
    | frame hstarts => exact absurd h hstarts.not_incomplete
  | frame hstarts hmask hcode tail ih =>
    cases h' with
    | waits hinc => exact absurd hinc hstarts.not_incomplete
    | frame hstarts' _ _ tail' =>
      obtain ⟨rfl, rfl, rfl⟩ := hstarts.unique hstarts'
      obtain ⟨rfl, rfl⟩ := ih tail'
      exact ⟨rfl, rfl⟩

/-- The loop does what is described. -/
theorem Extracts.extractAll_eq {n : Nat} (h : Extracts bs results rest) (hs : s.content = bs)
    (hcap : s.capacity < 2 ^ 63) (hn : results.length < n) :
    ∃ s', extractAll n s = .ok results s' ∧ s'.content = rest ∧ s'.capacity = s.capacity := by
  induction h generalizing s n with
  | waits h =>
    subst hs
    cases n with
    | zero => exact absurd hn (Nat.not_lt_zero _)
    | succ n =>
      refine ⟨s, ?_, rfl, rfl⟩
      rw [extractAll, bind_of_ok (extractPayload_incomplete h)]
      rfl
  | frame h hmask hcode tail ih =>
    subst hs
    cases n with
    | zero => exact absurd hn (Nat.not_lt_zero _)
    | succ n =>
      obtain ⟨s₁, hs₁, hcap₁, hextract⟩ := extractPayload_starts hcap h
      rw [hmask, if_neg (by simp), if_neg (by omega)] at hextract
      obtain ⟨s', hrest, hs', hcap'⟩ := ih hs₁ (hcap₁ ▸ hcap) (Nat.lt_of_succ_lt_succ hn)
      refine ⟨s', ?_, hs', hcap'.trans hcap₁⟩
      rw [extractAll, bind_of_ok hextract]
      dsimp only
      rw [bind_of_ok hrest]
      rfl

/-- The chunks are extracted from as the bytes they make up, unless one of them does not fit. -/
theorem extractChunks_eq {chunks : List ByteView} (hcap : s.capacity < 2 ^ 63)
    (hinc : Incomplete s.content)
    (hplain : Plain (s.content ++ chunks.flatMap ByteView.toList))
    (hfits : ∀ s', extractChunks chunks s ≠ .error (.runtimeError "Not enough space") s') :
    ∃ results rest s', Extracts (s.content ++ chunks.flatMap ByteView.toList) results rest ∧
      extractChunks chunks s = .ok results s' ∧ s'.content = rest := by
  induction chunks generalizing s with
  | nil =>
    rw [List.flatMap_nil, List.append_nil]
    exact ⟨[], s.content, s, .waits hinc, rfl, rfl⟩
  | cons chunk chunks ih =>
    rw [List.flatMap_cons, ← List.append_assoc] at hplain ⊢
    rw [extractChunks, bind_of_ok (modify_apply _ s)] at hfits ⊢
    obtain ⟨-, herr⟩ | ⟨s₁, hpush, hs₁, hcap₁⟩ := s.shift.pushBytes_cases chunk
    · exact absurd (bind_of_error herr) (hfits _)
    · rw [Stream.content_shift] at hs₁
      rw [← hs₁] at hplain ⊢
      rw [bind_of_ok hpush, bind_of_ok (get_apply s₁)] at hfits ⊢
      obtain ⟨results, rest, hextracts⟩ := hplain.of_append.extracts
      have hlt : results.length < s₁.size + 1 := by
        have hle := hextracts.length_le
        rw [Stream.length_content] at hle
        omega
      obtain ⟨s₂, hall, hs₂, hcap₂⟩ := hextracts.extractAll_eq rfl (hcap₁.symm ▸ hcap) hlt
      rw [bind_of_ok hall] at hfits ⊢
      have hcap₂' : s₂.capacity < 2 ^ 63 := by
        rw [hcap₂, hcap₁]
        exact hcap
      obtain ⟨more, rest', s', hmore, hchunks, hs'⟩ := ih hcap₂' (hs₂ ▸ hextracts.incomplete)
        (hs₂ ▸ hplain.of_extracts hextracts)
        (fun s' herr => hfits s' (by rw [bind_of_error herr]))
      refine ⟨results ++ more, rest', s', hextracts.append (hs₂ ▸ hmore), ?_, hs'⟩
      rw [bind_of_ok hchunks]
      rfl

/-- **Chunking**: plain bytes give the same results, and leave the same bytes, however they are
cut into chunks that fit the buffer. -/
theorem extractChunks_eq_once (b : List UInt8) (chunks : List ByteView) (s w : Stream)
    (hsplit : chunks.flatMap ByteView.toList = b) (hplain : Plain b) (hs : s.content = [])
    (hw : w.content = []) (hscap : s.capacity < 2 ^ 63) (hwcap : w.capacity < 2 ^ 63)
    (hfits : ∀ s', extractChunks chunks s ≠ .error (.runtimeError "Not enough space") s')
    (honce : ∀ w', extractChunks [.ofList b] w ≠ .error (.runtimeError "Not enough space") w') :
    ∃ results s' w', extractChunks chunks s = .ok results s' ∧
      extractChunks [.ofList b] w = .ok results w' ∧ s'.content = w'.content := by
  have hbytes : [ByteView.ofList b].flatMap ByteView.toList = b := by simp
  have hchunks : Plain (s.content ++ chunks.flatMap ByteView.toList) := by
    rw [hs, hsplit]
    exact hplain
  obtain ⟨results, rest, s', hextracts, hrun, hs'⟩ := extractChunks_eq hscap
    (hs ▸ incomplete_nil) hchunks hfits
  obtain ⟨results', rest', w', hextracts', hrun', hw'⟩ := extractChunks_eq hwcap
    (hw ▸ incomplete_nil) (by rw [hw, hbytes]; exact hplain) honce
  rw [hs, hsplit] at hextracts
  rw [hw, hbytes] at hextracts'
  obtain ⟨rfl, rfl⟩ := hextracts.unique hextracts'
  exact ⟨results, s', w', hrun, hrun', hs'.trans hw'.symm⟩

end Extracts

section Sample

variable {bs rest : List UInt8} {header : FrameHeader}

theorem plain_of_starts {payload : List UInt8} (h : Starts bs header payload rest)
    (hheader : header.mask = false ∧ header.code.toNat ≤ 10 ∧ header.size < 2 ^ 63)
    (hrest : Plain rest) : Plain bs := by
  intro header' halong
  cases halong with
  | here hfront =>
    obtain rfl : header = header' := Option.some.inj (h.front.symm.trans hfront)
    exact hheader
  | later hstarts tail =>
    obtain ⟨-, -, rfl⟩ := h.unique hstarts
    exact hrest header' tail

theorem plain_nil : Plain [] := by
  intro header halong
  cases halong with
  | here hfront => cases hfront
  | later hstarts tail => cases hstarts.front

end Sample

/-- Two frames of one byte each. -/
def twoFrames : List UInt8 := [0x81, 1, 65, 0x82, 1, 66]

theorem twoFrames_plain : Plain twoFrames := by
  have hfirst : Starts twoFrames ⟨0x1, false, false, false, true, false, 1, 2⟩ [65]
      [0x82, 1, 66] := ⟨by decide, rfl, rfl⟩
  have hsecond : Starts [0x82, 1, 66] ⟨0x2, false, false, false, true, false, 1, 2⟩ [66] [] :=
    ⟨by decide, rfl, rfl⟩
  exact plain_of_starts hfirst (by decide) (plain_of_starts hsecond (by decide) plain_nil)

/-- The two frames, cut after the first byte and inside the second header. -/
theorem twoFrames_in_three_chunks :
    ∃ results s' w', extractChunks [.ofList [0x81], .ofList [1, 65, 0x82], .ofList [1, 66]]
        (Stream.new 200000) = .ok results s' ∧
      extractChunks [.ofList twoFrames] (Stream.new 200000) = .ok results w' ∧
      s'.content = w'.content := by
  have hchunks : threw (extractChunks [.ofList [0x81], .ofList [1, 65, 0x82], .ofList [1, 66]]
      (Stream.new 200000)) = false := by decide +kernel
  have honce : threw (extractChunks [.ofList twoFrames] (Stream.new 200000)) = false := by
    decide +kernel
  refine extractChunks_eq_once twoFrames _ _ _ (by decide) twoFrames_plain rfl rfl (by decide)
    (by decide) (fun s' herr => ?_) (fun w' herr => ?_)
  · rw [herr] at hchunks
    cases hchunks
  · rw [herr] at honce
    cases honce

end WsGateway.Network.Wss
