import WsGateway.Verify.Wss.Framing
import WsGateway.Verify.Tls12.Delivery

/-!
# Messages of a connected client

What `extract_payload` and `next_message` do depends only on the bytes that are
buffered: `Starts` and `Incomplete` say what stands at their front. Over a run of
calls and packets every frame is taken out once, and exactly the Text and Binary
frames give a message. The `fin` bit is read and not used, so of a fragmented
message only the first fragment is returned.
-/

namespace WsGateway.Network.Wss

open Library

/-! ## The front of the stream -/

/-- `Stream::peek<T>` on these bytes. -/
def objectAt (α : Type) [Packed α] (bs : List UInt8) : Option α :=
  if Packed.size α ≤ bs.length then some (Packed.decode (bs.take (Packed.size α))) else none

/-- `peek_header` on these bytes. -/
def frontHeader (bs : List UInt8) : Option FrameHeader := do
  let baseHeader ← objectAt FrameBasicHeader bs
  match baseHeader.type with
  | .Base => (objectAt FrameBasicHeader bs).map (toFrameHeader FrameBasicHeader)
  | .Extended16 => (objectAt FrameExtended16 bs).map (toFrameHeader FrameExtended16)
  | .Extended64 => (objectAt FrameExtended64 bs).map (toFrameHeader FrameExtended64)

/-- The frame gives a message. -/
def FrameHeader.isData (header : FrameHeader) : Bool :=
  header.code == .Text || header.code == .Binary

/-- The bytes start with the frame of this header and payload, and `rest` follows. -/
structure Starts (bs : List UInt8) (header : FrameHeader) (payload rest : List UInt8) : Prop where
  front : frontHeader bs = some header
  bytes : bs.drop header.headerSize = payload ++ rest
  size : payload.length = header.size

/-- No frame that is complete as `peek_header` reads it. -/
def Incomplete (bs : List UInt8) : Prop :=
  ∀ header, frontHeader bs = some header →
    bs.length < (header.headerSize + header.size) % 2 ^ 64

instance (bs : List UInt8) : Decidable (Incomplete bs) :=
  match h : frontHeader bs with
  | none => .isTrue fun header hh => by rw [h] at hh; cases hh
  | some header =>
    if hlt : bs.length < (header.headerSize + header.size) % 2 ^ 64 then
      .isTrue fun header' hh => by rw [h] at hh; cases hh; exact hlt
    else .isFalse fun hall => hlt (hall header h)

section Front

variable {s : Stream} {bs : List UInt8} {header : FrameHeader} {payload rest : List UInt8}

theorem peekObject_eq (α : Type) [Packed α] (s : Stream) :
    s.peekObject α = objectAt α s.content := by
  unfold objectAt
  rw [Stream.length_content]
  by_cases h : Packed.size α ≤ s.size
  · rw [s.peekObject_of_le α h, if_pos h]
  · rw [s.peekObject_of_gt α (by omega), if_neg h]

theorem peekHeader_content (s : Stream) : peekHeader s = frontHeader s.content := by
  simp only [peekHeader, peekHeaderImpl, peekObject_eq]
  rfl

theorem objectAt_append {α : Type} [Packed α] {a : α} (h : objectAt α bs = some a)
    (t : List UInt8) : objectAt α (bs ++ t) = some a := by
  unfold objectAt at h ⊢
  split at h
  · rename_i hle
    rw [if_pos (by simp; omega), List.take_append_of_le_length hle]
    exact h
  · cases h

/-- A header that can be read does not change when more bytes arrive. -/
theorem frontHeader_append (h : frontHeader bs = some header) (t : List UInt8) :
    frontHeader (bs ++ t) = some header := by
  unfold frontHeader at h ⊢
  cases hbase : objectAt FrameBasicHeader bs with
  | none =>
    rw [hbase] at h
    cases h
  | some base =>
    rw [hbase] at h
    rw [objectAt_append hbase]
    dsimp only [Option.bind_eq_bind, Option.bind_some] at h ⊢
    cases htype : base.type with
    | Base =>
      rw [htype] at h
      exact h
    | Extended16 =>
      rw [htype] at h
      obtain ⟨ext, hext, hheader⟩ := Option.map_eq_some_iff.mp h
      exact Option.map_eq_some_iff.mpr ⟨ext, objectAt_append hext t, hheader⟩
    | Extended64 =>
      rw [htype] at h
      obtain ⟨ext, hext, hheader⟩ := Option.map_eq_some_iff.mp h
      exact Option.map_eq_some_iff.mpr ⟨ext, objectAt_append hext t, hheader⟩

theorem popHeaderImpl_eq (α : Type) [HeaderType α]
    (h : (objectAt α s.content).map (toFrameHeader α) = some header) :
    ∃ hle : header.headerSize ≤ s.size,
      popHeaderImpl α s = .ok (some header) (s.advance header.headerSize hle) := by
  obtain ⟨a, ha, rfl⟩ := Option.map_eq_some_iff.mp h
  unfold objectAt at ha
  split at ha
  · rename_i hle
    rw [Stream.length_content] at hle
    cases ha
    exact ⟨hle, popHeaderImpl_of_le α hle⟩
  · cases ha

/-- `pop_header` takes off the header that `peek_header` reads. -/
theorem popHeader_of_front (h : frontHeader s.content = some header) :
    ∃ hle : header.headerSize ≤ s.size,
      popHeader s = .ok (some header) (s.advance header.headerSize hle) := by
  unfold frontHeader at h
  rw [popHeader, bind_of_ok (get_apply s), peekObject_eq]
  cases hbase : objectAt FrameBasicHeader s.content with
  | none =>
    rw [hbase] at h
    cases h
  | some base =>
    rw [hbase] at h
    dsimp only [Option.bind_eq_bind, Option.bind_some] at h ⊢
    cases htype : base.type with
    | Base =>
      rw [htype] at h
      exact popHeaderImpl_eq FrameBasicHeader (hbase.symm ▸ h)
    | Extended16 =>
      rw [htype] at h
      exact popHeaderImpl_eq FrameExtended16 h
    | Extended64 =>
      rw [htype] at h
      exact popHeaderImpl_eq FrameExtended64 h

theorem Starts.length (h : Starts bs header payload rest) (hle : header.headerSize ≤ bs.length) :
    header.headerSize + header.size + rest.length = bs.length := by
  have hlen := congrArg List.length h.bytes
  rw [List.length_drop, List.length_append, h.size] at hlen
  omega

/-! ## Extracting a frame -/

theorem extractPayload_incomplete (h : Incomplete s.content) :
    extractPayload s = .ok none s := by
  rw [extractPayload, bind_of_ok (get_apply s), peekHeader_content]
  cases hheader : frontHeader s.content with
  | none => rfl
  | some header =>
    have hlt := h header hheader
    rw [Stream.length_content] at hlt
    dsimp only
    rw [s.peek_of_gt hlt]
    rfl

/-- A complete frame is taken out; its mask bit and opcode are checked after that. -/
theorem extractPayload_starts (hcap : s.capacity < 2 ^ 63)
    (h : Starts s.content header payload rest) :
    ∃ s', s'.content = rest ∧ s'.capacity = s.capacity ∧
      extractPayload s =
        if header.mask then .error (.runtimeError "mask") s'
        else if 10 < header.code.toNat then .error (.runtimeError "code") s'
        else .ok (some ⟨header.code, payload⟩) s' := by
  obtain ⟨hle, hpop⟩ := popHeader_of_front h.front
  have hsum := h.length (by rwa [Stream.length_content])
  rw [Stream.length_content] at hsum
  have hbound := s.size_le_capacity
  have hrest : (s.advance header.headerSize hle).content = payload ++ rest := by
    rw [Stream.content_advance, h.bytes]
  have hsize : header.size ≤ (s.advance header.headerSize hle).size := by
    rw [Stream.size_advance]
    omega
  refine ⟨(s.advance header.headerSize hle).advance header.size hsize, ?_, ?_, ?_⟩
  · rw [Stream.content_advance, hrest, ← h.size, List.drop_left]
  · simp
  · rw [extractPayload, bind_of_ok (get_apply s), peekHeader_content, h.front]
    dsimp only
    rw [Nat.mod_eq_of_lt (by omega), s.peek_of_le (by omega)]
    dsimp only
    rw [bind_of_ok hpop]
    dsimp only
    rw [bind_of_ok (Stream.pop_of_le _ hsize), hrest, List.take_left' h.size]
    dsimp only
    rw [require_bind]
    cases header.mask with
    | true => rfl
    | false =>
      rw [if_pos (by rfl), require_bind]
      by_cases hcode : header.code.toNat ≤ 10
      · rw [if_pos (decide_eq_true hcode), if_neg (by simp), if_neg (by omega)]
        rfl
      · rw [if_neg (by simpa using hcode), if_neg (by simp), if_pos (by omega)]

/-- Any bytes are the content of some stream that is just large enough. -/
theorem exists_content (bs : List UInt8) : ∃ s : Stream, s.content = bs ∧ s.capacity = bs.length := by
  obtain ⟨hlt, -⟩ | ⟨s, -, hcontent, hcap⟩ := (Stream.new bs.length).pushBytes_cases (.ofList bs)
  · have hsize : (Stream.new bs.length).availableSuffixBytes = bs.length := rfl
    rw [hsize, ByteView.size_ofList] at hlt
    omega
  · refine ⟨s, ?_, hcap⟩
    rw [hcontent, ByteView.toList_ofList, Stream.content_new, List.nil_append]

/-- A frame whose payload does not have 125 bytes starts as it was encoded. -/
theorem starts_encode {f : Frame} {t : List UInt8} (hne : f.payload.length ≠ 125)
    (hlt : (f.encode ++ t).length < 2 ^ 63) : Starts (f.encode ++ t) f.header f.payload t := by
  obtain ⟨s, hs, hcap⟩ := exists_content (f.encode ++ t)
  have hdec := (decodes_iff s f t (by omega) hs).mpr hne
  refine ⟨?_, ?_, rfl⟩
  · rw [← hs, ← peekHeader_content, hdec.peek]
  · have happ : f.encode ++ t = (Frame.firstByte f.fin f.rsv1 f.rsv2 f.rsv3 f.code ::
        Frame.lengthField f.payload.length) ++ (f.payload ++ t) := by simp [Frame.encode]
    rw [happ, ← length_header, List.drop_left]

theorem length_encode (f : Frame) :
    f.encode.length = f.header.headerSize + f.header.size := by
  rw [← length_header]
  simp [Frame.encode, Frame.header]
  omega

/-- A frame that has not arrived completely. -/
theorem incomplete_encode {f : Frame} {x y : List UInt8} (hne : f.payload.length ≠ 125)
    (hlt : f.encode.length < 2 ^ 63) (hxy : x ++ y = f.encode) (hy : y ≠ []) : Incomplete x := by
  intro header hheader
  have hstarts := starts_encode (f := f) (t := []) hne (by simpa using hlt)
  have hfront := hstarts.front
  rw [List.append_nil, ← hxy, frontHeader_append hheader y] at hfront
  cases hfront
  have hlen := congrArg List.length hxy
  have hpos : 0 < y.length := List.length_pos_iff.mpr hy
  rw [List.length_append] at hlen
  rw [← length_encode, Nat.mod_eq_of_lt (by omega)]
  omega

theorem incomplete_nil : Incomplete [] := by
  intro header hheader
  cases hheader

end Front

/-! ## Calls of `next_message` -/

namespace Client

section Calls

variable {env : Env} {c c₁ c' : Client} {n : Nat} {header : FrameHeader}
  {payload rest : List UInt8}

/-- What the loop over the received records leaves as it is. -/
structure Refilled (c c₁ : Client) : Prop where
  state : c₁.state = c.state
  capacity : c₁.stream.capacity = c.stream.capacity
  content : ∃ more, c₁.stream.content = c.stream.content ++ more

theorem pushBytes_refilled {bs : ByteView} {s s' : Stream} (h : Stream.pushBytes bs s = .ok () s') :
    s'.capacity = s.capacity ∧ s'.content = s.content ++ bs.toList := by
  obtain ⟨-, herr⟩ | ⟨s₁, hok, hcontent, hcap⟩ := s.pushBytes_cases bs
  · rw [herr] at h
    cases h
  · rw [hok] at h
    cases h
    exact ⟨hcap, hcontent⟩

theorem receiveAll_refilled (h : receiveAll env n c = .ok () c₁) : Refilled c c₁ := by
  induction n generalizing c with
  | zero => cases h
  | succ n ih =>
    rw [receiveAll] at h
    obtain ⟨r, c₂, hreceive, h⟩ := bind_eq_ok h
    obtain ⟨tls, -, rfl⟩ := zoom_eq_ok hreceive
    cases r with
    | none =>
      cases h
      exact ⟨rfl, rfl, [], (List.append_nil _).symm⟩
    | some bytes =>
      dsimp only at h
      rw [bind_of_ok (modify_apply _ _)] at h
      obtain ⟨_, c₃, hpush, h⟩ := bind_eq_ok h
      obtain ⟨s, hs, rfl⟩ := zoom_eq_ok hpush
      obtain ⟨hcap, hcontent⟩ := pushBytes_refilled hs
      obtain ⟨hstate, hcapacity, more, hmore⟩ := ih h
      refine ⟨hstate, hcapacity.trans hcap, bytes ++ more, ?_⟩
      rw [hmore, hcontent]
      simp

/-- The WebSocket part of `next_message`. -/
def takeMessage : Prog Client (Option (List UInt8)) := do
  let some res ← onStream extractPayload | return none
  if res.code == .Text || res.code == .Binary then return some res.bytes
  return none

theorem nextMessage_eq (hconn : c.state = .Connected)
    (h : receiveAll env (c.tls.stream.size + 1) c = .ok () c₁) :
    nextMessage env c = takeMessage c₁ := by
  have hstate : c₁.state = .Connected := (receiveAll_refilled h).state.trans hconn
  have hadvance : advanceState env c₁ = .ok true c₁ := by
    rw [advanceState, bind_of_ok (get_apply c₁), hstate]
    split <;> rfl
  rw [nextMessage, bind_of_ok (get_apply c), bind_of_ok h, bind_of_ok hadvance]
  rfl

theorem nextMessage_incomplete (hconn : c.state = .Connected)
    (h : receiveAll env (c.tls.stream.size + 1) c = .ok () c₁)
    (hinc : Incomplete c₁.stream.content) : nextMessage env c = .ok none c₁ := by
  rw [nextMessage_eq hconn h, takeMessage, onStream,
    bind_of_ok (zoom_of_ok (extractPayload_incomplete hinc))]
  rfl

/-- A complete frame gives a message if it carries data, and throws if it is masked or has an
undefined opcode. -/
theorem nextMessage_starts (hconn : c.state = .Connected)
    (h : receiveAll env (c.tls.stream.size + 1) c = .ok () c₁)
    (hcap : c₁.stream.capacity < 2 ^ 63) (hs : Starts c₁.stream.content header payload rest) :
    ∃ s', s'.content = rest ∧ s'.capacity = c₁.stream.capacity ∧
      nextMessage env c =
        if header.mask then .error (.runtimeError "mask") { c₁ with stream := s' }
        else if 10 < header.code.toNat then
          .error (.runtimeError "code") { c₁ with stream := s' }
        else .ok (if header.isData then some payload else none) { c₁ with stream := s' } := by
  obtain ⟨s', hrest, hcap', hextract⟩ := extractPayload_starts hcap hs
  refine ⟨s', hrest, hcap', ?_⟩
  rw [nextMessage_eq hconn h, takeMessage, onStream]
  by_cases hmask : header.mask = true
  · rw [if_pos hmask] at hextract ⊢
    exact bind_of_error (zoom_of_error hextract)
  · rw [if_neg hmask] at hextract ⊢
    by_cases hcode : 10 < header.code.toNat
    · rw [if_pos hcode] at hextract ⊢
      exact bind_of_error (zoom_of_error hextract)
    · rw [if_neg hcode] at hextract ⊢
      rw [bind_of_ok (zoom_of_ok hextract)]
      dsimp only
      rw [show (header.code == .Text || header.code == .Binary) = header.isData from rfl]
      cases header.isData <;> rfl

end Calls

/-! ## Runs -/

/-- A run of packets and calls of `next_message`: the results of the calls, and the bytes that the
TLS client delivered into the stream. -/
inductive Polls (env : Env) : Client → List (Option (List UInt8)) → List UInt8 → Client → Prop
  | nil (c : Client) : Polls env c [] [] c
  | packet {c c' c'' : Client} {p : Tcp.PacketView} {results : List (Option (List UInt8))}
      {bs : List UInt8} (h : processPacket env p c = .ok () c') (tail : Polls env c' results bs c'') :
      Polls env c results bs c''
  | poll {c c₁ c' c'' : Client} {r : Option (List UInt8)} {results : List (Option (List UInt8))}
      {more bs : List UInt8} (hall : receiveAll env (c.tls.stream.size + 1) c = .ok () c₁)
      (hmore : c₁.stream.content = c.stream.content ++ more) (h : nextMessage env c = .ok r c')
      (tail : Polls env c' results bs c'') : Polls env c (r :: results) (more ++ bs) c''

/-- The payloads of the frames that carry data. -/
def dataPayloads (fs : List Frame) : List (List UInt8) :=
  (fs.filter fun f => f.header.isData).map fun f => f.payload

section Runs

variable {env : Env} {c c' : Client} {results : List (Option (List UInt8))} {bs future : List UInt8}
  {fs : List Frame}

/-- A frame that the two dispatchers read back. -/
def Readable (f : Frame) : Prop := f.payload.length ≠ 125 ∧ f.encode.length < 2 ^ 63

theorem processPacket_keeps {p : Tcp.PacketView} (h : processPacket env p c = .ok () c') :
    c'.stream = c.stream ∧ c'.state = c.state := by
  rw [processPacket, onTls] at h
  obtain ⟨tls, -, rfl⟩ := zoom_eq_ok h
  exact ⟨rfl, rfl⟩

/-- One call on frames of which the first bytes are buffered: it takes out the first frame or
leaves all as it is. -/
theorem nextMessage_frames {c₁ : Client} {r : Option (List UInt8)} (hconn : c.state = .Connected)
    (hall : receiveAll env (c.tls.stream.size + 1) c = .ok () c₁)
    (hcap : c₁.stream.capacity < 2 ^ 63) (hfs : ∀ f ∈ fs, Readable f)
    (hbs : c₁.stream.content ++ future = fs.flatMap Frame.encode)
    (h : nextMessage env c = .ok r c') :
    c'.state = .Connected ∧ c'.stream.capacity = c₁.stream.capacity ∧
      ((r = none ∧ c'.stream.content = c₁.stream.content) ∨
        ∃ f fs', fs = f :: fs' ∧ r = (if f.header.isData then some f.payload else none) ∧
          c'.stream.content ++ future = fs'.flatMap Frame.encode) := by
  have hconn₁ : c₁.state = .Connected := (receiveAll_refilled hall).state.trans hconn
  have hwait : Incomplete c₁.stream.content → c'.state = .Connected ∧
      c'.stream.capacity = c₁.stream.capacity ∧ r = none ∧
        c'.stream.content = c₁.stream.content := by
    intro hinc
    rw [nextMessage_incomplete hconn hall hinc] at h
    cases h
    exact ⟨hconn₁, rfl, rfl, rfl⟩
  cases fs with
  | nil =>
    obtain ⟨hnil, -⟩ := List.append_eq_nil_iff.mp hbs
    obtain ⟨hstate, hcap', hr, hcontent⟩ := hwait (hnil.symm ▸ incomplete_nil)
    exact ⟨hstate, hcap', Or.inl ⟨hr, hcontent⟩⟩
  | cons f fs =>
    obtain ⟨hne, hlt⟩ := hfs f (List.mem_cons_self ..)
    rw [List.flatMap_cons] at hbs
    have hcomplete : ∀ t, c₁.stream.content = f.encode ++ t →
        c'.state = .Connected ∧ c'.stream.capacity = c₁.stream.capacity ∧
          r = (if f.header.isData then some f.payload else none) ∧ c'.stream.content = t := by
      intro t ht
      have hlen := c₁.stream.size_le_capacity
      rw [← Stream.length_content, ht] at hlen
      have hstarts := starts_encode hne (Nat.lt_of_le_of_lt hlen hcap)
      rw [← ht] at hstarts
      obtain ⟨s', hrest, hcap', hnext⟩ := nextMessage_starts hconn hall hcap hstarts
      have hcode : ¬ 10 < f.header.code.toNat := Nat.not_lt.mpr f.code_le
      rw [if_neg (by simp [Frame.header]), if_neg hcode, h] at hnext
      cases hnext
      exact ⟨hconn₁, hcap', rfl, hrest⟩
    obtain ⟨y, hf, hfuture⟩ | ⟨t, hf, hrest⟩ := List.append_eq_append_iff.mp hbs
    · by_cases hy : y = []
      · subst hy
        obtain ⟨hstate, hcap', hr, hcontent⟩ := hcomplete [] (by simpa using hf.symm)
        exact ⟨hstate, hcap', Or.inr ⟨f, fs, rfl, hr, by rw [hcontent, hfuture]; rfl⟩⟩
      · obtain ⟨hstate, hcap', hr, hcontent⟩ := hwait (incomplete_encode hne hlt hf.symm hy)
        exact ⟨hstate, hcap', Or.inl ⟨hr, hcontent⟩⟩
    · obtain ⟨hstate, hcap', hr, hcontent⟩ := hcomplete t hf
      exact ⟨hstate, hcap', Or.inr ⟨f, fs, rfl, hr, by rw [hcontent, hrest]⟩⟩

/-- **Frames and messages**: whatever part of the frames has arrived, the calls have taken out some
of them in order, and returned the payloads of those that carry data. -/
theorem polls_frames (hrun : Polls env c results bs c') (hconn : c.state = .Connected)
    (hcap : c.stream.capacity < 2 ^ 63) (hfs : ∀ f ∈ fs, Readable f)
    (hbs : c.stream.content ++ bs ++ future = fs.flatMap Frame.encode) :
    ∃ taken left, fs = taken ++ left ∧ results.filterMap id = dataPayloads taken ∧
      c'.stream.content ++ future = left.flatMap Frame.encode := by
  induction hrun generalizing fs with
  | nil c => exact ⟨[], fs, rfl, rfl, by simpa using hbs⟩
  | packet h tail ih =>
    obtain ⟨hstream, hstate⟩ := processPacket_keeps h
    exact ih (hstate.trans hconn) (hstream ▸ hcap) hfs (by rw [hstream]; exact hbs)
  | @poll c c₁ c' c'' r results more bs hall hmore h tail ih =>
    have hrefilled := receiveAll_refilled hall
    have hcap₁ : c₁.stream.capacity < 2 ^ 63 := by
      rw [hrefilled.capacity]
      exact hcap
    rw [← List.append_assoc, ← hmore, List.append_assoc] at hbs
    obtain ⟨hstate, hcap', hstep⟩ := nextMessage_frames hconn hall hcap₁ hfs hbs h
    obtain ⟨rfl, hcontent⟩ | ⟨f, fs', rfl, hr, hcontent⟩ := hstep
    · rw [← hcontent, ← List.append_assoc] at hbs
      exact ih hstate (by omega) hfs hbs
    · rw [← List.append_assoc] at hcontent
      obtain ⟨taken, left, hsplit, hresults, hleft⟩ := ih hstate (by omega)
        (fun g hg => hfs g (List.mem_cons_of_mem _ hg)) hcontent
      refine ⟨f :: taken, left, by rw [hsplit, List.cons_append], ?_, hleft⟩
      rw [hr]
      cases hdata : f.header.isData with
      | true => simpa [dataPayloads, hdata] using hresults
      | false => simpa [dataPayloads, hdata] using hresults

/-- The TLS client has nothing to deliver. -/
def Waiting (env : Env) (c : Client) : Prop :=
  Tls12.Client.receive env.toEnv c.tls = .ok none c.tls

theorem receiveAll_waiting (hwait : Waiting env c) (n : Nat) :
    receiveAll env (n + 1) c = .ok () c := by
  rw [receiveAll, onTls, bind_of_ok (zoom_of_ok hwait)]
  rfl

/-- Buffered frames are taken out by as many calls. -/
theorem polls_of_buffered (hconn : c.state = .Connected) (hwait : Waiting env c)
    (hcap : c.stream.capacity < 2 ^ 63) (hfs : ∀ f ∈ fs, Readable f)
    (hbs : c.stream.content = fs.flatMap Frame.encode) :
    ∃ c', Polls env c (fs.map fun f => if f.header.isData then some f.payload else none) [] c' ∧
      c'.stream.content = [] := by
  induction fs generalizing c with
  | nil => exact ⟨c, .nil c, hbs⟩
  | cons f fs ih =>
    have hall := receiveAll_waiting hwait c.tls.stream.size
    obtain ⟨hne, -⟩ := hfs f (List.mem_cons_self ..)
    rw [List.flatMap_cons] at hbs
    have hlen := c.stream.size_le_capacity
    rw [← Stream.length_content, hbs] at hlen
    have hstarts := starts_encode hne (Nat.lt_of_le_of_lt hlen hcap)
    rw [← hbs] at hstarts
    obtain ⟨s', hrest, hcap', hnext⟩ := nextMessage_starts hconn hall hcap hstarts
    have hcode : ¬ 10 < f.header.code.toNat := Nat.not_lt.mpr f.code_le
    rw [if_neg (by simp [Frame.header]), if_neg hcode] at hnext
    obtain ⟨c', hrun, hempty⟩ := ih (c := { c with stream := s' }) hconn hwait
      (by rw [hcap']; exact hcap) (fun g hg => hfs g (List.mem_cons_of_mem _ hg)) hrest
    exact ⟨c', .poll hall (List.append_nil _).symm hnext hrun, hempty⟩

end Runs

/-! ## Fragmented messages -/

/-- A way to split the message `m` into a first frame with its opcode and continuation frames, the
last of them with `fin` set. -/
structure Fragments (code : OpCode) (m : List UInt8) where
  first : Frame
  middle : List Frame
  last : Frame
  first_code : first.code = code
  first_fin : first.fin = false
  middle_code : ∀ f ∈ middle, f.code = .Continuation
  middle_fin : ∀ f ∈ middle, f.fin = false
  last_code : last.code = .Continuation
  last_fin : last.fin = true
  payload : first.payload ++ (middle ++ [last]).flatMap Frame.payload = m
  readable : ∀ f ∈ first :: (middle ++ [last]), Readable f

namespace Fragments

variable {code : OpCode} {m : List UInt8}

def continuations (F : Fragments code m) : List Frame := F.middle ++ [F.last]

def frames (F : Fragments code m) : List Frame := F.first :: F.continuations

theorem readable_frames (F : Fragments code m) : ∀ f ∈ F.frames, Readable f := F.readable

theorem isData_first (F : Fragments code m) (hcode : code = .Text ∨ code = .Binary) :
    F.first.header.isData = true := by
  have hfirst : F.first.header.code = code := F.first_code
  rw [FrameHeader.isData, hfirst]
  rcases hcode with rfl | rfl <;> rfl

theorem isData_continuations (F : Fragments code m) {f : Frame} (hf : f ∈ F.continuations) :
    f.header.isData = false := by
  have hcode : f.header.code = .Continuation := by
    rcases List.mem_append.mp hf with hmiddle | hlast
    · exact F.middle_code f hmiddle
    · rw [List.mem_singleton.mp hlast]
      exact F.last_code
  rw [FrameHeader.isData, hcode]
  rfl

/-- The first fragment is the whole message exactly if the others are empty. -/
theorem first_eq_iff (F : Fragments code m) :
    F.first.payload = m ↔ ∀ f ∈ F.continuations, f.payload = [] := by
  have hpayload := F.payload
  change F.first.payload ++ F.continuations.flatMap Frame.payload = m at hpayload
  have hself : F.first.payload = F.first.payload ++ F.continuations.flatMap Frame.payload ↔
      F.continuations.flatMap Frame.payload = [] := List.self_eq_append_right
  rw [hpayload, List.flatMap_eq_nil_iff] at hself
  exact hself

theorem dataPayloads_taken (F : Fragments code m) (hcode : code = .Text ∨ code = .Binary)
    {taken left : List Frame} (h : F.frames = taken ++ left) :
    (taken = [] ∧ dataPayloads taken = []) ∨ dataPayloads taken = [F.first.payload] := by
  cases taken with
  | nil => exact Or.inl ⟨rfl, rfl⟩
  | cons f taken =>
    rw [frames, List.cons_append, List.cons.injEq] at h
    obtain ⟨rfl, hrest⟩ := h
    have hnone : taken.filter (fun f => f.header.isData) = [] := by
      rw [List.filter_eq_nil_iff]
      intro g hg
      rw [F.isData_continuations (by rw [hrest]; exact List.mem_append_left _ hg)]
      simp
    exact Or.inr (by simp [dataPayloads, F.isData_first hcode, hnone])

end Fragments

/-- **Fragments**: over every run in which the frames of a fragmented message arrive, the calls of
`next_message` return at most the payload of the first frame; once all frames are taken out they
have returned just that, which is the message exactly if the continuation frames are empty. Frames
that are buffered are taken out by as many calls. -/
theorem first_fragment_returned (env : Env) (c : Client) {code : OpCode} {m : List UInt8}
    (F : Fragments code m) (hcode : code = .Text ∨ code = .Binary) (hconn : c.state = .Connected)
    (hcap : c.stream.capacity < 2 ^ 63) :
    (∀ results bs future c', Polls env c results bs c' →
      c.stream.content ++ bs ++ future = F.frames.flatMap Frame.encode →
      results.filterMap id <+: [F.first.payload] ∧
        (c'.stream.content ++ future = [] → results.filterMap id = [F.first.payload] ∧
          (results.filterMap id = [m] ↔ ∀ f ∈ F.continuations, f.payload = []))) ∧
    (Waiting env c → c.stream.content = F.frames.flatMap Frame.encode →
      ∃ c', Polls env c (some F.first.payload :: F.continuations.map fun _ => none) [] c' ∧
        c'.stream.content = []) := by
  constructor
  · intro results bs future c' hrun hbs
    obtain ⟨taken, left, hsplit, hresults, hleft⟩ := polls_frames hrun hconn hcap F.readable_frames hbs
    obtain ⟨hnil, hempty⟩ | hfirst := F.dataPayloads_taken hcode hsplit
    · refine ⟨by rw [hresults, hempty]; exact List.nil_prefix, fun hdone => ?_⟩
      rw [hnil, List.nil_append] at hsplit
      rw [hdone, ← hsplit, Fragments.frames, List.flatMap_cons] at hleft
      simp [Frame.encode] at hleft
    · rw [hresults, hfirst]
      refine ⟨List.prefix_refl _, fun _ => ⟨rfl, ?_⟩⟩
      rw [List.singleton_inj]
      exact F.first_eq_iff
  · intro hwait hbs
    obtain ⟨c', hrun, hempty⟩ := polls_of_buffered hconn hwait hcap F.readable_frames hbs
    refine ⟨c', ?_, hempty⟩
    have hmap : F.continuations.map (fun f => if f.header.isData then some f.payload else none) =
        F.continuations.map fun _ => none := by
      apply List.map_congr_left
      intro f hf
      rw [F.isData_continuations hf]
      rfl
    rw [Fragments.frames, List.map_cons, hmap, F.isData_first hcode] at hrun
    exact hrun

def sampleEnv : Env := ⟨Tls12.Client.sampleEnv, []⟩

/-- A connected client with these bytes in its stream and no TLS record to read. -/
def connectedClient (bytes : List UInt8) : Client where
  tls := { Tls12.Client.freshClient with handshakeState := .ServerFinished }
  stream := filledStream bytes
  state := .Connected
  config := ⟨[], []⟩

/-- The text message `1, 2` in two frames of one byte. -/
def twoFragments : Fragments .Text [1, 2] where
  first := ⟨false, false, false, false, .Text, toNat_text_le, [1]⟩
  middle := []
  last := ⟨true, false, false, false, .Continuation, by decide, [2]⟩
  first_code := rfl
  first_fin := rfl
  middle_code := by simp
  middle_fin := by simp
  last_code := rfl
  last_fin := rfl
  payload := rfl
  readable := by
    intro f hf
    rcases List.mem_cons.mp hf with rfl | hf
    · exact ⟨by decide, by decide⟩
    · rw [List.mem_singleton.mp hf]
      exact ⟨by decide, by decide⟩

theorem first_of_two_fragments :
    ∃ c', Polls sampleEnv (connectedClient (twoFragments.frames.flatMap Frame.encode))
        [some [1], none] [] c' ∧ c'.stream.content = [] :=
  (first_fragment_returned sampleEnv _ twoFragments (Or.inl rfl) rfl (by decide)).2 rfl
    (content_filledStream (by decide))

/-- The first byte of the message is returned as a message, and the second one never. -/
theorem two_fragments_truncated :
    ∃ results c', Polls sampleEnv (connectedClient (twoFragments.frames.flatMap Frame.encode))
        results [] c' ∧ c'.stream.content = [] ∧ results.filterMap id ≠ [[1, 2]] := by
  obtain ⟨c', hrun, hempty⟩ := @polls_of_buffered sampleEnv
    (connectedClient (twoFragments.frames.flatMap Frame.encode)) twoFragments.frames rfl rfl
    (by decide) twoFragments.readable_frames (content_filledStream (by decide))
  exact ⟨_, c', hrun, hempty, by decide⟩

end Client

end WsGateway.Network.Wss
