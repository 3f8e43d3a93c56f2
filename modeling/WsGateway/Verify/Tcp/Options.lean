import WsGateway.Verify.Tcp.Frame

/-!
# TCP options

`parse_options` steps through the bytes between the header and the payload by the
length byte of each option. Here the options have a grammar, a sequence of single
`NOP` bytes and of kinds with a length and a body, closed by an end marker or by
the end of the bytes. Every byte string is such a sequence followed by a tail that
either closes it or starts with an option that does not fit. The scan returns the
last window scale of the sequence in the first case and throws in the second.
-/

namespace WsGateway.Network.Tcp

open Library

/-! ## The grammar -/

/-- One option. The length byte counts itself, the kind and the body. -/
inductive TcpOption where
  | noOperation
  | sized (kind : UInt8) (body : List UInt8) (kind_ge : 2 ≤ kind) (fits : body.length + 2 < 256)

namespace TcpOption

def encode : TcpOption → List UInt8
  | noOperation => [OptionsBlock.kNoOperationByte]
  | sized kind body _ _ => kind :: UInt8.ofNat (body.length + 2) :: body

/-- The shift of a window scale option: kind three, one byte of body. -/
def shift : TcpOption → Option UInt8
  | sized kind [shift] _ _ => if kind = kWindowScaleOptionKind then some shift else none
  | _ => none

/-- The options found so far, with the window scale of this one. -/
def apply (options : Options) (o : TcpOption) : Options := ⟨o.shift.or options.windowScale⟩

def encodeAll (opts : List TcpOption) : List UInt8 := opts.flatMap encode

/-- The window scale that a sequence of options asks for: the last one counts. -/
def windowScale (opts : List TcpOption) : Option UInt8 := (opts.filterMap shift).getLast?

/-- The sequence stops here: an end marker, or nothing left. -/
def Ends (tail : List UInt8) : Prop :=
  tail = [] ∨ ∃ rest, tail = OptionsBlock.kTerminationByte :: rest

/-- Here starts an option whose header or body does not fit, or whose length is below two. -/
def Malformed (tail : List UInt8) : Prop :=
  ∃ kind rest, tail = kind :: rest ∧ 2 ≤ kind ∧
    (rest = [] ∨ ∃ length body, rest = length :: body ∧
      (length.toNat < 2 ∨ body.length + 2 < length.toNat))

theorem encodeAll_cons (o : TcpOption) (opts : List TcpOption) :
    encodeAll (o :: opts) = o.encode ++ encodeAll opts := List.flatMap_cons

theorem length_encode_pos (o : TcpOption) : 0 < o.encode.length := by
  cases o with
  | noOperation => exact Nat.one_pos
  | sized kind body _ _ => exact Nat.succ_pos _

theorem length_le_encodeAll (opts : List TcpOption) : opts.length ≤ (encodeAll opts).length := by
  induction opts with
  | nil => exact Nat.le_refl 0
  | cons o opts ih =>
    have hpos := o.length_encode_pos
    rw [encodeAll_cons, List.length_append, List.length_cons]
    omega

theorem foldl_apply (opts : List TcpOption) (options : Options) :
    opts.foldl apply options = ⟨(windowScale opts).or options.windowScale⟩ := by
  induction opts generalizing options with
  | nil => rfl
  | cons o opts ih =>
    rw [List.foldl_cons, ih]
    unfold windowScale apply
    rw [List.filterMap_cons]
    cases o.shift with
    | none => rfl
    | some shift =>
      dsimp only
      rw [List.getLast?_cons]
      cases (List.filterMap TcpOption.shift opts).getLast? with
      | none => rfl
      | some last => rfl

theorem two_le_of_ne {kind : UInt8} (hend : kind ≠ OptionsBlock.kTerminationByte)
    (hnop : kind ≠ OptionsBlock.kNoOperationByte) : 2 ≤ kind := by
  have hzero : kind.toNat ≠ 0 := fun h => hend (UInt8.toNat_inj.mp h)
  have hone : kind.toNat ≠ 1 := fun h => hnop (UInt8.toNat_inj.mp h)
  rw [UInt8.le_iff_toNat_le]
  change 2 ≤ kind.toNat
  omega

theorem ne_of_two_le {kind : UInt8} (h : 2 ≤ kind) :
    kind ≠ OptionsBlock.kTerminationByte ∧ kind ≠ OptionsBlock.kNoOperationByte := by
  constructor
  · rintro rfl
    exact absurd h (by decide)
  · rintro rfl
    exact absurd h (by decide)

/-- **The grammar covers every byte string.** -/
theorem exists_encodeAll (bytes : List UInt8) :
    ∃ opts tail, bytes = encodeAll opts ++ tail ∧ (Ends tail ∨ Malformed tail) := by
  induction hn : bytes.length using Nat.strong_induction_on generalizing bytes with
  | _ n ih =>
    cases bytes with
    | nil => exact ⟨[], [], rfl, Or.inl (Or.inl rfl)⟩
    | cons kind rest =>
      by_cases hend : kind = OptionsBlock.kTerminationByte
      · exact ⟨[], kind :: rest, rfl, Or.inl (Or.inr ⟨rest, by rw [hend]⟩)⟩
      by_cases hnop : kind = OptionsBlock.kNoOperationByte
      · obtain ⟨opts, tail, hrest, htail⟩ := ih rest.length (by simp [← hn]) rest rfl
        exact ⟨.noOperation :: opts, tail, by rw [encodeAll_cons, hnop, hrest]; rfl, htail⟩
      have hkind : 2 ≤ kind := two_le_of_ne hend hnop
      cases rest with
      | nil => exact ⟨[], [kind], rfl, Or.inr ⟨kind, [], rfl, hkind, Or.inl rfl⟩⟩
      | cons length body =>
        by_cases hfits : 2 ≤ length.toNat ∧ length.toNat ≤ body.length + 2
        · have hbody : (body.take (length.toNat - 2)).length + 2 = length.toNat := by
            rw [List.length_take]
            omega
          have hlt : length.toNat < 256 := length.toNat_lt
          obtain ⟨opts, tail, hrest, htail⟩ := ih (body.drop (length.toNat - 2)).length
            (by simp only [← hn, List.length_drop, List.length_cons]; omega) _ rfl
          refine ⟨.sized kind (body.take (length.toNat - 2)) hkind (by omega) :: opts, tail, ?_,
            htail⟩
          rw [encodeAll_cons, List.append_assoc, ← hrest]
          simp only [encode, hbody, UInt8.ofNat_toNat, List.cons_append, List.take_append_drop]
        · refine ⟨[], kind :: length :: body, rfl, Or.inr ⟨kind, _, rfl, hkind, Or.inr ?_⟩⟩
          exact ⟨length, body, rfl, by omega⟩

end TcpOption

/-! ## The scan -/

namespace PacketView

open TcpOption

section Scan

variable {data : ByteView} {before rest : List UInt8} {fuel : Nat} {options : Options}

/-- The byte at the place that was reached. -/
theorem get_of_toList {byte : UInt8} (h : data.toList = before ++ byte :: rest) :
    data.get before.length = byte ∧ before.length < data.size := by
  have hsize : data.size = (before ++ byte :: rest).length := by rw [← h, ByteView.length_toList]
  have hlt : before.length < data.size := by
    rw [hsize, List.length_append, List.length_cons]
    omega
  have hbyte : data.toList[before.length]? = some byte := by simp [h]
  rw [ByteView.toList, Memory.getElem?_bytes _ hlt, Option.some.injEq] at hbyte
  exact ⟨hbyte, hlt⟩

/-- The loop at an option whose header fits. -/
theorem scanOptions_header {kind length : UInt8} (hkind : 2 ≤ kind)
    (h : data.toList = before ++ kind :: length :: rest) :
    scanOptions data (fuel + 1) before.length options =
      if length.toNat ≥ 2 ∧ length.toNat ≤ rest.length + 2 then
        scanOptions data fuel (before.length + length.toNat)
          (if kind == kWindowScaleOptionKind && length.toNat == 3 then
            { options with windowScale := some (data.get (before.length + 2)) }
          else options)
      else .error (.runtimeError "Invalid length field") := by
  obtain ⟨hget, hlt⟩ := get_of_toList h
  have hnext : data.toList = (before ++ [kind]) ++ length :: rest := by simp [h]
  obtain ⟨hlength, -⟩ := get_of_toList hnext
  rw [List.length_append, List.length_singleton] at hlength
  have hsize : data.size = before.length + (rest.length + 2) := by
    rw [← ByteView.length_toList, h, List.length_append, List.length_cons, List.length_cons]
  obtain ⟨hend, hnop⟩ := ne_of_two_le hkind
  have hfits : ∀ n, before.length + n ≤ data.size ↔ n ≤ rest.length + 2 := by
    intro n
    omega
  rw [scanOptions, if_pos hlt]
  dsimp only
  rw [hget, hlength, if_neg (by simpa using hend), if_neg (by simpa using hnop),
    if_pos (by omega)]
  simp only [hfits]

/-- The loop over one option that fits. -/
theorem scanOptions_option (o : TcpOption) (h : data.toList = before ++ (o.encode ++ rest)) :
    scanOptions data (fuel + 1) before.length options =
      scanOptions data fuel (before ++ o.encode).length (o.apply options) := by
  cases o with
  | noOperation =>
    obtain ⟨hget, hlt⟩ := get_of_toList h
    rw [scanOptions, if_pos hlt]
    dsimp only
    rw [hget, if_neg (by decide), if_pos (beq_self_eq_true _), List.length_append]
    rfl
  | sized kind body hkind hfits =>
    have hlength : (UInt8.ofNat (body.length + 2)).toNat = body.length + 2 :=
      Nat.mod_eq_of_lt hfits
    rw [scanOptions_header hkind h, hlength, if_pos (by simp), List.length_append]
    congr 1
    -- only a body of one byte is read
    rcases body with _ | ⟨byte, _ | ⟨next, body⟩⟩
    · simp [apply, shift]
    · have hbyte : data.toList = (before ++ [kind, UInt8.ofNat 3]) ++ byte :: rest := by
        simp [h, encode]
      have hget : data.get (before.length + 2) = byte := by
        simpa using (get_of_toList hbyte).1
      by_cases hscale : kind = kWindowScaleOptionKind
      · subst hscale
        simp [apply, shift, hget]
      · simp [apply, shift, hscale]
    · simp [apply, shift]

/-- The loop over options that fit. -/
theorem scanOptions_options (opts : List TcpOption)
    (h : data.toList = before ++ (encodeAll opts ++ rest)) :
    scanOptions data (opts.length + fuel) before.length options =
      scanOptions data fuel (before ++ encodeAll opts).length (opts.foldl apply options) := by
  induction opts generalizing before options with
  | nil => simp [encodeAll]
  | cons o opts ih =>
    rw [encodeAll_cons, List.append_assoc] at h
    have hnext : data.toList = (before ++ o.encode) ++ (encodeAll opts ++ rest) := by
      rw [h, List.append_assoc]
    have hfuel : (o :: opts).length + fuel = opts.length + fuel + 1 := by
      rw [List.length_cons]
      omega
    rw [hfuel, scanOptions_option o h, ih hnext, encodeAll_cons, List.append_assoc,
      List.foldl_cons]

theorem scanOptions_ends (hends : Ends rest) (h : data.toList = before ++ rest)
    (hfuel : rest.length ≤ fuel) :
    scanOptions data fuel before.length options = .ok options := by
  rcases hends with rfl | ⟨tail, rfl⟩
  · have hsize : data.size = before.length := by
      rw [← ByteView.length_toList, h, List.append_nil]
    cases fuel with
    | zero => rfl
    | succ fuel => rw [scanOptions, if_neg (by omega)]
  · obtain ⟨hget, hlt⟩ := get_of_toList h
    obtain ⟨fuel, rfl⟩ : ∃ n, fuel = n + 1 := ⟨fuel - 1, by rw [List.length_cons] at hfuel; omega⟩
    rw [scanOptions, if_pos hlt]
    dsimp only
    rw [hget, if_pos (beq_self_eq_true _)]

theorem scanOptions_malformed (hbad : Malformed rest) (h : data.toList = before ++ rest) :
    ∃ e, ∀ fuel options, rest.length ≤ fuel →
      scanOptions data fuel before.length options = .error e := by
  obtain ⟨kind, tail, rfl, hkind, hcase⟩ := hbad
  have hturn : ∀ fuel, (kind :: tail).length ≤ fuel → ∃ n, fuel = n + 1 := by
    intro fuel hfuel
    rw [List.length_cons] at hfuel
    exact ⟨fuel - 1, by omega⟩
  rcases hcase with rfl | ⟨length, body, rfl, hlength⟩
  · obtain ⟨hget, hlt⟩ := get_of_toList h
    obtain ⟨hend, hnop⟩ := ne_of_two_le hkind
    have hsize : data.size = before.length + 1 := by
      rw [← ByteView.length_toList, h, List.length_append, List.length_singleton]
    refine ⟨.runtimeError "Not enough space for option header", fun fuel options hfuel => ?_⟩
    obtain ⟨n, rfl⟩ := hturn fuel hfuel
    rw [scanOptions, if_pos hlt]
    dsimp only
    rw [hget, if_neg (by simpa using hend), if_neg (by simpa using hnop), if_neg (by omega)]
  · refine ⟨.runtimeError "Invalid length field", fun fuel options hfuel => ?_⟩
    obtain ⟨n, rfl⟩ := hturn fuel hfuel
    rw [scanOptions_header hkind h, if_neg (by omega)]

end Scan

/-! ## Parsing -/

section Parsing

/-- What `parse_options` makes of the bytes between the header and the payload. -/
structure ParsesOptions (v : PacketView) : Prop where
  /-- These are all of them. -/
  size : v.optionsView.size = v.header.dataOffset - Header.sizeof
  /-- The loop ends by itself: more turns change nothing. -/
  terminates : ∀ fuel, v.optionsView.size ≤ fuel →
    scanOptions v.optionsView fuel 0 {} = v.parseOptions
  /-- No other byte matters. -/
  inside : ∀ w : PacketView, w.optionsView.toList = v.optionsView.toList →
    w.parseOptions = v.parseOptions
  /-- They follow the grammar up to a tail that closes it or breaks it. -/
  covered : ∃ opts tail, v.optionsView.toList = encodeAll opts ++ tail ∧
    (Ends tail ∨ Malformed tail)
  decoded : ∀ opts tail, v.optionsView.toList = encodeAll opts ++ tail → Ends tail →
    v.parseOptions = .ok ⟨windowScale opts⟩
  refused : ∀ opts tail, v.optionsView.toList = encodeAll opts ++ tail → Malformed tail →
    ∃ e, v.parseOptions = .error e

variable {v : PacketView} {opts : List TcpOption} {tail : List UInt8} {fuel : Nat}

/-- Where the scan is after the options of the grammar. -/
theorem scanOptions_toList (h : v.optionsView.toList = encodeAll opts ++ tail)
    (hfuel : v.optionsView.size ≤ fuel) : ∃ n, tail.length ≤ n ∧
      scanOptions v.optionsView fuel 0 {} =
        scanOptions v.optionsView n (encodeAll opts).length ⟨windowScale opts⟩ := by
  have hle := length_le_encodeAll opts
  rw [← ByteView.length_toList, h, List.length_append] at hfuel
  obtain ⟨n, rfl⟩ : ∃ n, fuel = opts.length + n := ⟨fuel - opts.length, by omega⟩
  refine ⟨n, by omega, ?_⟩
  have hscan : scanOptions v.optionsView (opts.length + n) ([] : List UInt8).length {} =
      scanOptions v.optionsView n ([] ++ encodeAll opts).length (opts.foldl apply {}) :=
    scanOptions_options opts h
  rw [foldl_apply, Option.or_none] at hscan
  exact hscan

theorem scanOptions_decoded (h : v.optionsView.toList = encodeAll opts ++ tail) (hends : Ends tail)
    (hfuel : v.optionsView.size ≤ fuel) :
    scanOptions v.optionsView fuel 0 {} = .ok ⟨windowScale opts⟩ := by
  obtain ⟨n, hn, hscan⟩ := scanOptions_toList h hfuel
  rw [hscan, scanOptions_ends hends h hn]

theorem scanOptions_refused (h : v.optionsView.toList = encodeAll opts ++ tail)
    (hbad : Malformed tail) :
    ∃ e, ∀ fuel, v.optionsView.size ≤ fuel →
      scanOptions v.optionsView fuel 0 {} = .error e := by
  obtain ⟨e, hbad⟩ := scanOptions_malformed hbad h
  refine ⟨e, fun fuel hfuel => ?_⟩
  obtain ⟨n, hn, hscan⟩ := scanOptions_toList h hfuel
  rw [hscan, hbad n _ hn]

theorem parseOptions_congr {w : PacketView} (h : w.optionsView.toList = v.optionsView.toList) :
    w.parseOptions = v.parseOptions := by
  have hsize : w.optionsView.size = v.optionsView.size := by
    rw [← ByteView.length_toList, h, ByteView.length_toList]
  have hget : ∀ i < w.optionsView.size, w.optionsView.get i = v.optionsView.get i := by
    intro i hi
    have hbyte := congrArg (fun l => l[i]?) h
    simp only [ByteView.toList] at hbyte
    rw [Memory.getElem?_bytes _ hi, Memory.getElem?_bytes _ (hsize ▸ hi)] at hbyte
    exact Option.some.inj hbyte
  rw [parseOptions, scanOptions_congr hsize hget, hsize]
  rfl

theorem size_optionsView (h : Header.sizeof ≤ v.header.dataOffset) :
    v.optionsView.size = v.header.dataOffset - Header.sizeof := by
  have hlt : v.header.dataOffset < 2 ^ 64 := by
    have hbyte : v.header.dataOffsetScaled.toNat < 256 := UInt8.toNat_lt _
    unfold Header.dataOffset
    omega
  exact sizeSub_of_le h hlt

/-- **TCP options**: for every packet whose data offset leaves room for the header. -/
theorem parsesOptions (v : PacketView) (h : Header.sizeof ≤ v.header.dataOffset) :
    v.ParsesOptions := by
  obtain ⟨opts, tail, htoList, htail⟩ := exists_encodeAll v.optionsView.toList
  refine ⟨size_optionsView h, fun fuel hfuel => ?_, fun w => parseOptions_congr,
    ⟨opts, tail, htoList, htail⟩, ?_, ?_⟩
  · rcases htail with hends | hbad
    · rw [parseOptions, scanOptions_decoded htoList hends hfuel,
        scanOptions_decoded htoList hends (Nat.le_refl _)]
    · obtain ⟨e, herror⟩ := scanOptions_refused htoList hbad
      rw [parseOptions, herror fuel hfuel, herror _ (Nat.le_refl _)]
  · intro opts tail htoList hends
    exact scanOptions_decoded htoList hends (Nat.le_refl _)
  · intro opts tail htoList hbad
    obtain ⟨e, herror⟩ := scanOptions_refused htoList hbad
    exact ⟨e, herror _ (Nat.le_refl _)⟩

end Parsing

/-- A SYN-ACK with the options `NOP`, window scale seven and an unknown kind, and padding behind the
end marker. -/
def scaledSynAck : PacketView :=
  .receivedWith Client.sampleConnection .SYN_ACK 0 8 65535 [1, 3, 3, 7, 254, 4, 0, 0, 0, 9, 9, 9] []

theorem scaledSynAck_windowScale : scaledSynAck.parseOptions = .ok ⟨some 7⟩ := by
  have hparses := parsesOptions scaledSynAck (by decide)
  exact hparses.decoded [.noOperation, .sized 3 [7] (by decide) (by decide),
    .sized 254 [0, 0] (by decide) (by decide)] [0, 9, 9, 9] (by decide) (Or.inr ⟨_, rfl⟩)

end PacketView

end WsGateway.Network.Tcp
