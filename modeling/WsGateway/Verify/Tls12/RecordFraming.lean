import WsGateway.Verify.Tls12.Handshake

/-!
# Handshake steps and record framing

A handshake step takes the record header off the stream and then parses whatever
the stream holds, not the record. So it can stop after the header, leave a part of
the record behind or read into the next one. `Inside` says of a payload that
the parser of a state does none of this, whatever follows the record: the fields
it reads lie in the payload, and their lengths add up to it.
-/

namespace WsGateway.Network.Tls12

open Library

/-! ## The fields of a message -/

/-- The handshake header at the front. -/
def handshakeHeaderOf (bytes : List UInt8) : HandshakeHeader := Packed.decode (bytes.take 4)

/-- The parameters of a key exchange, behind the handshake header. -/
def ecdheParamsOf (bytes : List UInt8) : ServerKeyExchangeECDHE :=
  Packed.decode ((bytes.drop 4).take 4)

/-- Where the public key of a key exchange ends. -/
def keyEnd (bytes : List UInt8) : Nat := 8 + (ecdheParamsOf bytes).pubkeySize.toNat

def pubkeyOf (bytes : List UInt8) : List UInt8 :=
  (bytes.drop 8).take (ecdheParamsOf bytes).pubkeySize.toNat

/-- The algorithm and the length of the signature, behind the public key. -/
def sigInfoOf (bytes : List UInt8) : SignatureAlgorithmAndLength :=
  Packed.decode ((bytes.drop (keyEnd bytes)).take 4)

/-- Where a key exchange ends. -/
def exchangeEnd (bytes : List UInt8) : Nat := keyEnd bytes + 4 + (sigInfoOf bytes).signatureSize

/-- The curve that the client takes. -/
def OnCurve25519 (bytes : List UInt8) : Prop :=
  (ecdheParamsOf bytes).curveType = kNamedCurve ∧ (ecdheParamsOf bytes).namedCurve = kCurve25519

instance (bytes : List UInt8) : Decidable (OnCurve25519 bytes) :=
  inferInstanceAs (Decidable (_ ∧ _))

section Fields

variable {p t : List UInt8}

theorem handshakeHeaderOf_append (h : 4 ≤ p.length) :
    handshakeHeaderOf (p ++ t) = handshakeHeaderOf p := by
  rw [handshakeHeaderOf, List.take_append_of_le_length h, handshakeHeaderOf]

theorem slice_append {n k : Nat} (h : n + k ≤ p.length) :
    ((p ++ t).drop n).take k = (p.drop n).take k := by
  rw [List.drop_append_of_le_length (by omega),
    List.take_append_of_le_length (by rw [List.length_drop]; omega)]

theorem ecdheParamsOf_append (h : 8 ≤ p.length) : ecdheParamsOf (p ++ t) = ecdheParamsOf p := by
  rw [ecdheParamsOf, slice_append h, ecdheParamsOf]

theorem keyEnd_append (h : 8 ≤ p.length) : keyEnd (p ++ t) = keyEnd p := by
  rw [keyEnd, ecdheParamsOf_append h, keyEnd]

theorem pubkeyOf_append (h : keyEnd p ≤ p.length) : pubkeyOf (p ++ t) = pubkeyOf p := by
  have hkey : 8 + (ecdheParamsOf p).pubkeySize.toNat ≤ p.length := h
  rw [pubkeyOf, ecdheParamsOf_append (by omega), slice_append hkey, pubkeyOf]

theorem exchangeEnd_append (h : keyEnd p + 4 ≤ p.length) :
    exchangeEnd (p ++ t) = exchangeEnd p := by
  have hkey : 8 ≤ keyEnd p := Nat.le_add_right ..
  rw [exchangeEnd, sigInfoOf, keyEnd_append (by omega), slice_append h]
  rfl

end Fields

/-! ## What the transactions read -/

section Readers

variable {t : Stream.ReadTransaction} {n k : Nat}

theorem skip_skip : (t.skip n).skip k = t.skip (n + k) := by
  simp [Stream.ReadTransaction.skip, Nat.add_assoc]

theorem length_rest_skip : (t.skip n).rest.length = t.rest.length - n := by
  rw [Stream.ReadTransaction.rest_skip, List.length_drop]

/-- A pop behind what was read before. -/
theorem pop_skip_of_le (h : n + k ≤ t.rest.length) :
    (t.skip n).pop k = some ((t.rest.drop n).take k, t.skip (n + k)) := by
  have hle : k ≤ (t.skip n).rest.length := by rw [length_rest_skip]; omega
  rw [Stream.ReadTransaction.pop_of_le hle, Stream.ReadTransaction.rest_skip, skip_skip]

theorem pop_skip_of_gt (hn : n ≤ t.rest.length) (h : t.rest.length < n + k) :
    (t.skip n).pop k = none := by
  have hgt : (t.skip n).rest.length < k := by rw [length_rest_skip]; omega
  exact Stream.ReadTransaction.pop_of_gt hgt

theorem popObject_skip_of_le (α : Type) [Packed α] (h : n + Packed.size α ≤ t.rest.length) :
    (t.skip n).popObject α = some (Packed.decode ((t.rest.drop n).take (Packed.size α)),
      t.skip (n + Packed.size α)) := by
  rw [Stream.ReadTransaction.popObject, pop_skip_of_le h]
  rfl

theorem popObject_skip_of_gt (α : Type) [Packed α] (hn : n ≤ t.rest.length)
    (h : t.rest.length < n + Packed.size α) : (t.skip n).popObject α = none := by
  rw [Stream.ReadTransaction.popObject, pop_skip_of_gt hn h]
  rfl

theorem popObject_handshakeHeader (h : 4 ≤ t.rest.length) :
    t.popObject HandshakeHeader = some (handshakeHeaderOf t.rest, t.skip 4) :=
  Stream.ReadTransaction.popObject_of_le HandshakeHeader h

theorem popObject_ecdheParams (h : 8 ≤ t.rest.length) :
    (t.skip 4).popObject ServerKeyExchangeECDHE = some (ecdheParamsOf t.rest, t.skip 8) :=
  popObject_skip_of_le ServerKeyExchangeECDHE h

theorem pop_pubkey (h : keyEnd t.rest ≤ t.rest.length) :
    (t.skip 8).pop (ecdheParamsOf t.rest).pubkeySize.toNat =
      some (pubkeyOf t.rest, t.skip (keyEnd t.rest)) :=
  pop_skip_of_le h

theorem popObject_sigInfo (h : keyEnd t.rest + 4 ≤ t.rest.length) :
    (t.skip (keyEnd t.rest)).popObject SignatureAlgorithmAndLength =
      some (sigInfoOf t.rest, t.skip (keyEnd t.rest + 4)) :=
  popObject_skip_of_le SignatureAlgorithmAndLength h

variable (t)

/-- A ServerHelloDone is its header and as many bytes as that says. -/
theorem readServerHelloDone_eq : Client.readServerHelloDone t =
    if t.rest.length < 4 then .ok none
    else if (handshakeHeaderOf t.rest).handshakeType ≠ .ServerHelloDone then
      .error (.runtimeError "Unexpected hanshake type")
    else if t.rest.length < 4 + (handshakeHeaderOf t.rest).size then .ok none
    else .ok (some (t.skip (4 + (handshakeHeaderOf t.rest).size))) := by
  rw [Client.readServerHelloDone]
  by_cases h4 : t.rest.length < 4
  · rw [if_pos h4, Stream.ReadTransaction.popObject_of_gt HandshakeHeader h4]
    rfl
  rw [if_neg h4, popObject_handshakeHeader (Nat.le_of_not_lt h4)]
  dsimp only
  by_cases htype : (handshakeHeaderOf t.rest).handshakeType = .ServerHelloDone
  · rw [if_neg (not_not_intro htype), if_neg (by simp [htype])]
    by_cases hend : t.rest.length < 4 + (handshakeHeaderOf t.rest).size
    · rw [if_pos hend, pop_skip_of_gt (Nat.le_of_not_lt h4) hend]
      rfl
    · rw [if_neg hend, pop_skip_of_le (Nat.le_of_not_lt hend)]
      rfl
  · rw [if_pos htype, if_pos (by simp [htype])]
    rfl

/-- A key exchange is its header, the parameters, the public key and the signature. -/
theorem readServerKeyExchange_eq : Client.readServerKeyExchange t =
    if t.rest.length < 4 then .ok none
    else if (handshakeHeaderOf t.rest).handshakeType ≠ .ServerKeyExchange then
      .error (.runtimeError "Expected handshake type")
    else if t.rest.length < 8 then .ok none
    else if (ecdheParamsOf t.rest).curveType ≠ kNamedCurve then
      .error (.runtimeError "Expected curve type")
    else if (ecdheParamsOf t.rest).namedCurve ≠ kCurve25519 then
      .error (.runtimeError "Unexpected curve")
    else if t.rest.length < exchangeEnd t.rest then .ok none
    else .ok (some (pubkeyOf t.rest, t.skip (exchangeEnd t.rest))) := by
  rw [Client.readServerKeyExchange]
  by_cases h4 : t.rest.length < 4
  · rw [if_pos h4, Stream.ReadTransaction.popObject_of_gt HandshakeHeader h4]
    rfl
  rw [if_neg h4, popObject_handshakeHeader (Nat.le_of_not_lt h4)]
  dsimp only
  by_cases htype : (handshakeHeaderOf t.rest).handshakeType = .ServerKeyExchange
  swap
  · rw [if_pos htype, if_pos (by simp [htype])]
    rfl
  rw [if_neg (not_not_intro htype), if_neg (by simp [htype])]
  by_cases h8 : t.rest.length < 8
  · rw [if_pos h8, popObject_skip_of_gt ServerKeyExchangeECDHE (Nat.le_of_not_lt h4) h8]
    rfl
  rw [if_neg h8, popObject_ecdheParams (Nat.le_of_not_lt h8)]
  dsimp only
  by_cases htyped : (ecdheParamsOf t.rest).curveType = kNamedCurve
  swap
  · rw [if_pos htyped, if_pos (by simp [htyped])]
    rfl
  rw [if_neg (not_not_intro htyped), if_neg (by simp [htyped])]
  by_cases hcurve : (ecdheParamsOf t.rest).namedCurve = kCurve25519
  swap
  · rw [if_pos hcurve, if_pos (by simp [hcurve])]
    rfl
  rw [if_neg (not_not_intro hcurve), if_neg (by simp [hcurve])]
  -- the three pops that are left all fit if the last one does
  have hsig : keyEnd t.rest + 4 ≤ exchangeEnd t.rest := Nat.le_add_right ..
  by_cases hkey : t.rest.length < keyEnd t.rest
  · rw [if_pos (by omega), pop_skip_of_gt (Nat.le_of_not_lt h8) hkey]
    rfl
  rw [pop_pubkey (Nat.le_of_not_lt hkey)]
  dsimp only
  by_cases hinfo : t.rest.length < keyEnd t.rest + 4
  · rw [if_pos (by omega),
      popObject_skip_of_gt SignatureAlgorithmAndLength (Nat.le_of_not_lt hkey) hinfo]
    rfl
  rw [popObject_sigInfo (Nat.le_of_not_lt hinfo)]
  dsimp only
  by_cases hend : t.rest.length < exchangeEnd t.rest
  · rw [if_pos hend, pop_skip_of_gt (Nat.le_of_not_lt hinfo) hend]
    rfl
  · rw [if_neg hend, pop_skip_of_le (Nat.le_of_not_lt hend)]
    rfl

variable {t}

theorem popObject_serverHello (h : 39 ≤ t.rest.length) :
    t.popObject ServerHelloMessage = some (Packed.decode (t.rest.take 39), t.skip 39) :=
  Stream.ReadTransaction.popObject_of_le ServerHelloMessage h

/-- The server's random is read where it stands, wherever the record ends. -/
theorem readServerHello_some {hello : ServerHelloMessage}
    (h : Client.readServerHello t = .ok (some hello)) :
    39 ≤ t.rest.length ∧ hello = Packed.decode (t.rest.take 39) := by
  rw [Client.readServerHello] at h
  by_cases h39 : t.rest.length < 39
  · rw [Stream.ReadTransaction.popObject_of_gt ServerHelloMessage h39] at h
    cases h
  rw [popObject_serverHello (Nat.le_of_not_lt h39)] at h
  refine ⟨Nat.le_of_not_lt h39, ?_⟩
  dsimp only at h
  split at h
  · split at h
    · split at h
      · cases h
      · split at h
        · cases h
        · cases h
          rfl
    · cases h
  · cases h

/-- Bytes that complete a payload without the whole random to a ServerHello, the last byte of the
random being `b`. -/
def helloFiller (p : List UInt8) (b : UInt8) : List UInt8 :=
  List.replicate (37 - p.length) 0 ++ ([b, 0] ++ (beBytes 2 kCipherSuite ++ [0, 0, 0]))

theorem readServerHello_filler {p : List UInt8} {b : UInt8} (hlt : p.length < 38)
    (h : t.rest = p ++ helloFiller p b) :
    ∃ hello, Client.readServerHello t = .ok (some hello) ∧ hello.serverRandom[31] = b := by
  obtain ⟨start, hstart, hlen⟩ : ∃ start, start = p ++ List.replicate (37 - p.length) 0 ∧
      start.length = 37 := ⟨_, rfl, by simp; omega⟩
  have hrest : t.rest = (start ++ [b, 0]) ++ (beBytes 2 kCipherSuite ++ [0, 0, 0]) := by
    rw [h, helloFiller, hstart]
    simp only [List.append_assoc]
  have hhello := popObject_append ServerHelloMessage hrest (by simp [hlen]; rfl)
  have hsession : (Packed.decode (start ++ [b, 0]) : ServerHelloMessage).sessionIdSize = 0 := by
    change (start ++ [b, 0]).getD 38 0 = 0
    rw [List.getD_append_right _ _ _ _ (by omega), hlen]
    rfl
  have hrandom : (Packed.decode (start ++ [b, 0]) : ServerHelloMessage).serverRandom[31] = b := by
    change (Vector.ofFn fun i : Fin 32 => (start ++ [b, 0]).getD (6 + i) 0)[31] = b
    rw [Vector.getElem_ofFn, List.getD_append_right _ _ _ _ (by simp [hlen]), hlen]
    rfl
  have hnone : (t.skip (start ++ [b, 0]).length).pop 0 =
      some ([], t.skip (start ++ [b, 0]).length) := by
    rw [Stream.ReadTransaction.pop_of_le (Nat.zero_le _)]
    rfl
  have hchoice := popObject_append ServerHelloCipherAndCompression
    (t := t.skip (start ++ [b, 0]).length) (a := beBytes 2 kCipherSuite ++ [0, 0, 0]) (b := [])
    (by rw [(pop_append hrest).2, List.append_nil]) rfl
  have hcipher : (Packed.decode (beBytes 2 kCipherSuite ++ [0, 0, 0]) :
      ServerHelloCipherAndCompression).cipherSuite = kCipherSuite := by decide
  have hcompression : (Packed.decode (beBytes 2 kCipherSuite ++ [0, 0, 0]) :
      ServerHelloCipherAndCompression).compressionMethod = 0 := rfl
  refine ⟨_, ?_, hrandom⟩
  rw [Client.readServerHello, hhello]
  dsimp only
  rw [hsession, UInt8.toNat_zero, hnone]
  dsimp only
  rw [hchoice]
  dsimp only
  rw [hcipher, hcompression]
  rfl

end Readers

namespace Client

/-! ## Framing -/

/-- What a handshake step decides: the next state, the transcript and the server's values. -/
structure Outcome where
  handshakeState : HandshakeState
  handshakeHash : List UInt8
  serverRandom : Vector UInt8 32
  serverEphPubkey : List UInt8

def outcome (c : Client) : Outcome :=
  ⟨c.handshakeState, c.handshakeHash, c.serverRandom, c.serverEphPubkey⟩

/-- The handshake step respects the framing of a record, whatever follows it: a call that returns
leaves the stream as it is or takes the record off it, and what it decides does not depend on what
follows. -/
structure RespectsFraming (env : Env) (c : Client) (record : List UInt8) : Prop where
  takes : ∀ t s c', s.content = record ++ t →
    processHandshake env { c with stream := s } = .ok () c' →
      c'.stream = s ∨ c'.stream.content = t
  decides : ∀ t₁ t₂ s₁ s₂ c₁ c₂, s₁.content = record ++ t₁ → s₂.content = record ++ t₂ →
    processHandshake env { c with stream := s₁ } = .ok () c₁ →
      processHandshake env { c with stream := s₂ } = .ok () c₂ → outcome c₁ = outcome c₂

/-- What the step of a state reads lies inside the payload: the whole random of a ServerHello, the
handshake header of the other messages, and in a message of the type awaited the lengths that add
up to the payload. -/
def Inside (payload : List UInt8) : HandshakeState → Prop
  | .ServerHello => 38 ≤ payload.length
  | .ServerCertificate => 4 ≤ payload.length
  | .ServerKeyExchange =>
    4 ≤ payload.length ∧
      ((handshakeHeaderOf payload).handshakeType = .ServerKeyExchange → 8 ≤ payload.length ∧
        (OnCurve25519 payload → exchangeEnd payload = payload.length))
  | .ServerHelloDone =>
    4 ≤ payload.length ∧
      ((handshakeHeaderOf payload).handshakeType = .ServerHelloDone →
        4 + (handshakeHeaderOf payload).size = payload.length)
  | _ => True

section Framing

variable {env : Env} {c c' : Client} {contentType : ContentType} {p t : List UInt8} {s : Stream}

theorem RespectsFraming.of_returns {record : List UInt8} (o : Outcome)
    (h : ∀ t s c', s.content = record ++ t →
      processHandshake env { c with stream := s } = .ok () c' →
        c'.stream.content = t ∧ outcome c' = o) : RespectsFraming env c record := by
  refine ⟨fun t s c' hs hret => Or.inr (h t s c' hs hret).1, ?_⟩
  intro t₁ t₂ s₁ s₂ c₁ c₂ hs₁ hs₂ hret₁ hret₂
  rw [(h t₁ s₁ c₁ hs₁ hret₁).2, (h t₂ s₂ c₂ hs₂ hret₂).2]

/-! ### Records that are inside -/

theorem serverHello_respects (hlt : p.length < 2 ^ 16) (hstate : c.handshakeState = .ServerHello)
    (h : 38 ≤ p.length) : RespectsFraming env c (recordBytes contentType p) := by
  refine .of_returns ⟨.ServerCertificate, c.handshakeHash ++ p,
    Vector.ofFn fun i => p.getD (6 + i) 0, c.serverEphPubkey⟩ fun t s c' hs hret => ?_
  obtain ⟨s₁, s₂, hs₁, hs₂, hstep⟩ := @serverHello_eq { c with stream := s } _ _ _ env hlt hstate hs
  rw [hstep] at hret
  cases hread : readServerHello s₁.readTransaction with
  | error e => rw [hread] at hret; cases hret
  | ok hello =>
    rw [hread] at hret
    cases hello with
    | none => cases hret
    | some hello =>
      cases hret
      obtain ⟨-, hhello⟩ := readServerHello_some hread
      rw [Stream.rest_readTransaction, hs₁] at hhello
      refine ⟨hs₂, ?_⟩
      have hrandom : hello.serverRandom = Vector.ofFn fun i => p.getD (6 + i) 0 := by
        rw [hhello]
        refine Vector.ext fun i hi => ?_
        change (Vector.ofFn fun i : Fin 32 => ((p ++ t).take 39).getD (6 + i) 0)[i] = _
        simp only [Vector.getElem_ofFn, List.getD_eq_getElem?_getD]
        rw [List.getElem?_take_of_lt (by omega), List.getElem?_append_left (by omega)]
      simp only [outcome, hrandom]

theorem certificate_respects (hlt : p.length < 2 ^ 16)
    (hstate : c.handshakeState = .ServerCertificate) (h : 4 ≤ p.length) :
    RespectsFraming env c (recordBytes contentType p) := by
  refine .of_returns ⟨.ServerKeyExchange, c.handshakeHash ++ p, c.serverRandom,
    c.serverEphPubkey⟩ fun t s c' hs hret => ?_
  obtain ⟨s₁, s₂, hs₁, hs₂, hstep⟩ := @certificate_eq { c with stream := s } _ _ _ env hlt hstate hs
  have hsize : Packed.size HandshakeHeader ≤ s₁.size := by
    rw [← Stream.length_content, hs₁, List.length_append]
    exact Nat.le_trans h (Nat.le_add_right ..)
  rw [hstep, s₁.peekObject_of_le HandshakeHeader hsize] at hret
  dsimp only at hret
  split at hret
  · cases hret
    exact ⟨hs₂, rfl⟩
  · cases hret

theorem serverKeyExchange_respects (hlt : p.length < 2 ^ 16)
    (hstate : c.handshakeState = .ServerKeyExchange) (h : Inside p .ServerKeyExchange) :
    RespectsFraming env c (recordBytes contentType p) := by
  refine .of_returns ⟨.ServerHelloDone, c.handshakeHash ++ p, c.serverRandom,
    pubkeyOf p ++ c.serverEphPubkey.drop (pubkeyOf p).length⟩ fun t s c' hs hret => ?_
  obtain ⟨h4, hrest⟩ := h
  obtain ⟨s₁, hs₁, hstep⟩ := @serverKeyExchange_eq { c with stream := s } _ _ _ env hlt hstate hs
  have hlen : (p ++ t).length = p.length + t.length := List.length_append
  have hread := readServerKeyExchange_eq s₁.readTransaction
  rw [Stream.rest_readTransaction, hs₁, handshakeHeaderOf_append h4, if_neg (by omega)] at hread
  rw [hstep] at hret
  by_cases htype : (handshakeHeaderOf p).handshakeType = .ServerKeyExchange
  swap
  · rw [hread, if_pos htype] at hret
    cases hret
  obtain ⟨h8, hend⟩ := hrest htype
  rw [if_neg (not_not_intro htype), if_neg (by omega), ecdheParamsOf_append h8] at hread
  by_cases hcurve : OnCurve25519 p
  · have hsig : keyEnd p + 4 ≤ p.length := hend hcurve ▸ Nat.le_add_right ..
    rw [if_neg (not_not_intro hcurve.1), if_neg (not_not_intro hcurve.2), exchangeEnd_append hsig,
      pubkeyOf_append (by omega), hend hcurve, if_neg (by omega)] at hread
    obtain ⟨s₂, hs₂, hcommit⟩ := commit_message hs₁
    rw [hread] at hret
    dsimp only at hret
    rw [bind_of_ok (onStream_of_ok hcommit)] at hret
    cases hret
    exact ⟨hs₂, rfl⟩
  · obtain ⟨e, he⟩ : ∃ e, readServerKeyExchange s₁.readTransaction = .error e := by
      rw [hread]
      split
      · exact ⟨_, rfl⟩
      · rename_i htyped
        rw [if_pos fun hnamed => hcurve ⟨not_not.mp htyped, hnamed⟩]
        exact ⟨_, rfl⟩
    rw [he] at hret
    cases hret

theorem encrypt_outcome {fails : Option EvpCall} {ossl : OpenSsl} {view encrypted : List UInt8}
    {contentType : ContentType} (h : encrypt fails ossl view contentType c = .ok encrypted c') :
    c'.stream = c.stream ∧ outcome c' = outcome c := by
  cases hctx : c.encCtx with
  | none =>
    rw [encrypt_of_none hctx] at h
    cases h
  | some ctx =>
    obtain ⟨-, ctx', -, -, -, rfl⟩ := (encrypt_ends fails ossl view contentType hctx).ok h
    exact ⟨rfl, rfl⟩

/-- What the client's flight does to what a step decides. -/
theorem sendClientKeyExchangeAndFinished_outcome
    (h : sendClientKeyExchangeAndFinished env c = .ok () c') : c'.stream = c.stream ∧
      outcome c' = { outcome c with handshakeHash := c.handshakeHash ++
        ((env.ossl.generateX25519Key c.drawn).map (keyExchange env.ossl)).getD [] } := by
  rw [sendClientKeyExchangeAndFinished, bind_of_ok (modify_apply _ c)] at h
  obtain ⟨packet, c₁, hpacket, h⟩ := bind_eq_ok h
  obtain ⟨t₁, -, rfl⟩ := zoom_eq_ok hpacket
  obtain ⟨ws, c₂, hws, h⟩ := bind_eq_ok h
  obtain ⟨-, rfl⟩ := ofExcept_eq_ok hws
  rw [bind_of_ok (get_apply _), bind_of_ok (modify_apply _ _)] at h
  dsimp only at h
  cases hkey : env.ossl.generateX25519Key c.drawn with
  | none => rw [hkey] at h; cases h
  | some key =>
    rw [hkey] at h
    dsimp only at h
    cases hsecret : env.ossl.derive key (c.serverEphPubkey.take 32) with
    | none => rw [hsecret] at h; cases h
    | some secret =>
      rw [hsecret] at h
      dsimp only at h
      obtain ⟨_, c₃, hhash, h⟩ := bind_eq_ok h
      obtain ⟨_, c₄, hderive, h⟩ := bind_eq_ok h
      rw [bind_of_ok (get_apply c₄)] at h
      obtain ⟨ws₁, _, hws₁, h⟩ := bind_eq_ok h
      obtain ⟨-, rfl⟩ := ofExcept_eq_ok hws₁
      obtain ⟨ws₂, _, hws₂, h⟩ := bind_eq_ok h
      obtain ⟨-, rfl⟩ := ofExcept_eq_ok hws₂
      obtain ⟨encrypted, c₅, hencrypt, h⟩ := bind_eq_ok h
      obtain ⟨ws₃, _, hws₃, hsend⟩ := bind_eq_ok h
      obtain ⟨-, rfl⟩ := ofExcept_eq_ok hws₃
      rw [sendPayload] at hsend
      obtain ⟨t₂, -, rfl⟩ := zoom_eq_ok hsend
      obtain ⟨hstream, houtcome⟩ := encrypt_outcome hencrypt
      cases hhash
      cases hderive
      exact ⟨hstream, houtcome⟩

theorem serverHelloDone_respects (hlt : p.length < 2 ^ 16)
    (hstate : c.handshakeState = .ServerHelloDone) (h : Inside p .ServerHelloDone) :
    RespectsFraming env c (recordBytes contentType p) := by
  refine .of_returns ⟨.ClientFinished, c.handshakeHash ++ p ++
    ((env.ossl.generateX25519Key c.drawn).map (keyExchange env.ossl)).getD [], c.serverRandom,
    c.serverEphPubkey⟩ fun t s c' hs hret => ?_
  obtain ⟨h4, hend⟩ := h
  obtain ⟨s₁, hs₁, hstep⟩ := @serverHelloDone_eq { c with stream := s } _ _ _ env hlt hstate hs
  have hlen : (p ++ t).length = p.length + t.length := List.length_append
  have hread := readServerHelloDone_eq s₁.readTransaction
  rw [Stream.rest_readTransaction, hs₁, handshakeHeaderOf_append h4, if_neg (by omega)] at hread
  rw [hstep] at hret
  by_cases htype : (handshakeHeaderOf p).handshakeType = .ServerHelloDone
  · rw [if_neg (not_not_intro htype), hend htype, if_neg (by omega)] at hread
    obtain ⟨s₂, hs₂, hcommit⟩ := commit_message hs₁
    rw [hread] at hret
    dsimp only at hret
    rw [bind_of_ok (onStream_of_ok hcommit), hashUpdate, bind_of_ok (modify_apply _ _)] at hret
    obtain ⟨_, d, hsend, hret⟩ := bind_eq_ok hret
    obtain ⟨hstream, houtcome⟩ := sendClientKeyExchangeAndFinished_outcome hsend
    cases hret
    refine ⟨by rw [← hs₂]; exact congrArg Stream.content hstream, ?_⟩
    exact congrArg (fun o : Outcome => { o with handshakeState := .ClientFinished }) houtcome
  · rw [hread, if_pos htype] at hret
    cases hret

/-! ### Records that are not -/

theorem exists_content (bytes : List UInt8) : ∃ s : Stream, s.content = bytes :=
  ⟨⟨.ofList bytes, bytes.length, 0, bytes.length, Nat.zero_le _, Nat.le_refl _⟩,
    ByteView.toList_ofList bytes⟩

/-- A step that has taken anything has taken the record. -/
theorem RespectsFraming.taken (h : RespectsFraming env c (recordBytes contentType p))
    (hs : s.content = recordBytes contentType p ++ t)
    (hret : processHandshake env { c with stream := s } = .ok () c')
    (hlt : c'.stream.size ≤ p.length + t.length) : c'.stream.content = t := by
  obtain hsame | htaken := h.takes t s c' hs hret
  · have hsize := size_recordBytes hs
    rw [hsame, hsize] at hlt
    simp only [RecordHeader.sizeof] at hlt
    omega
  · exact htaken

theorem RespectsFraming.serverHello (h : RespectsFraming env c (recordBytes contentType p))
    (hlt : p.length < 2 ^ 16) (hstate : c.handshakeState = .ServerHello) : 38 ≤ p.length := by
  -- the last byte of the random follows the record, and is whatever it is
  have hreturns : p.length < 38 → ∀ b, ∃ s c', s.content = recordBytes contentType p ++
      helloFiller p b ∧ processHandshake env { c with stream := s } = .ok () c' ∧
        (outcome c').serverRandom[31] = b := by
    intro hshort b
    obtain ⟨s, hs⟩ := exists_content (recordBytes contentType p ++ helloFiller p b)
    obtain ⟨s₁, s₂, hs₁, -, hstep⟩ := @serverHello_eq { c with stream := s } _ _ _ env hlt hstate hs
    obtain ⟨hello, hread, hrandom⟩ := readServerHello_filler (t := s₁.readTransaction) hshort hs₁
    rw [hread] at hstep
    exact ⟨s, _, hs, hstep, hrandom⟩
  by_contra hshort
  obtain ⟨s₁, c₁, hs₁, hret₁, hrandom₁⟩ := hreturns (by omega) 0
  obtain ⟨s₂, c₂, hs₂, hret₂, hrandom₂⟩ := hreturns (by omega) 1
  rw [h.decides _ _ _ _ _ _ hs₁ hs₂ hret₁ hret₂, hrandom₂] at hrandom₁
  exact absurd hrandom₁ (by decide)

/-- A step that has taken a part of the record has taken all of it. -/
theorem RespectsFraming.drop_nil {n : Nat} (h : RespectsFraming env c (recordBytes contentType p))
    (hs : s.content = recordBytes contentType p ++ [])
    (hret : processHandshake env { c with stream := s } = .ok () c')
    (hleft : c'.stream.content = p.drop n) : p.length ≤ n := by
  have hsize : c'.stream.size ≤ p.length := by
    rw [← Stream.length_content, hleft, List.length_drop]
    exact Nat.sub_le _ _
  exact List.drop_eq_nil_iff.mp (hleft.symm.trans (h.taken hs hret (by simpa using hsize)))

/-- A step that has taken nothing but the record header was given an empty record. -/
theorem RespectsFraming.left_nil (h : RespectsFraming env c (recordBytes contentType p))
    (hs : s.content = recordBytes contentType p ++ [])
    (hret : processHandshake env { c with stream := s } = .ok () c')
    (hleft : c'.stream.content = p) : p = [] :=
  List.length_eq_zero_iff.mp (Nat.le_zero.mp (h.drop_nil hs hret hleft))

/-- The certificate that follows an empty record is taken for it. -/
theorem RespectsFraming.certificate_ne_nil
    (h : RespectsFraming env c (recordBytes contentType p))
    (hstate : c.handshakeState = .ServerCertificate) : p ≠ [] := by
  rintro rfl
  obtain ⟨s, hs⟩ := exists_content (recordBytes contentType [] ++ [])
  obtain ⟨s₁, _, hs₁, -, hstep⟩ := @certificate_eq { c with stream := s } _ _ _ env (by decide)
    hstate hs
  have hsize : s₁.size = 0 := by rw [← Stream.length_content, hs₁]; rfl
  rw [s₁.peekObject_of_gt HandshakeHeader (by rw [hsize]; decide)] at hstep
  obtain ⟨s', hs'⟩ := exists_content
    (recordBytes contentType [] ++ HandshakeHeader.bytes ⟨.Certificate, 0⟩)
  obtain ⟨s₂, _, hs₂, -, hstep'⟩ := @certificate_eq { c with stream := s' } _ _ _ env (by decide)
    hstate hs'
  have hsize' : s₂.size = 4 := by rw [← Stream.length_content, hs₂]; rfl
  rw [s₂.peekObject_of_le HandshakeHeader (by rw [hsize']; exact Nat.le_refl _), hs₂] at hstep'
  have houtcome := h.decides _ _ _ _ _ _ hs hs' hstep hstep'
  exact absurd (congrArg Outcome.handshakeState houtcome) (by simp [outcome, hstate])

theorem RespectsFraming.certificate (h : RespectsFraming env c (recordBytes contentType p))
    (hlt : p.length < 2 ^ 16) (hstate : c.handshakeState = .ServerCertificate) :
    4 ≤ p.length := by
  by_contra hshort
  obtain ⟨s, hs⟩ := exists_content (recordBytes contentType p ++ [])
  obtain ⟨s₁, _, hs₁, -, hstep⟩ := @certificate_eq { c with stream := s } _ _ _ env hlt hstate hs
  rw [List.append_nil] at hs₁
  have hsize : s₁.size = p.length := by rw [← Stream.length_content, hs₁]
  rw [s₁.peekObject_of_gt HandshakeHeader (by rw [hsize]; exact Nat.lt_of_not_le hshort)] at hstep
  exact h.certificate_ne_nil hstate (h.left_nil hs hstep hs₁)

theorem commit_skip {n : Nat} (hn : n ≤ s.size) : ∃ s', s'.content = s.content.drop n ∧
    Stream.commit (s.readTransaction.skip n) s = .ok (s.content.take n) s' := by
  have hread : (s.readTransaction.skip n).readIt = n := by simp
  refine ⟨s.advance n hn, s.content_advance hn, ?_⟩
  rw [Stream.commit, hread, bind_of_ok (s.pop_of_le hn)]
  rfl

/-- The key exchange that follows an empty record is taken for it. -/
theorem RespectsFraming.serverKeyExchange_ne_nil
    (h : RespectsFraming env c (recordBytes contentType p))
    (hstate : c.handshakeState = .ServerKeyExchange) : p ≠ [] := by
  rintro rfl
  obtain ⟨s, hs⟩ := exists_content (recordBytes contentType [] ++ [])
  obtain ⟨s₁, hs₁, hstep⟩ := @serverKeyExchange_eq { c with stream := s } _ _ _ env (by decide)
    hstate hs
  rw [readServerKeyExchange_eq, Stream.rest_readTransaction, hs₁, if_pos (by decide)] at hstep
  obtain ⟨s', hs'⟩ := exists_content
    (recordBytes contentType [] ++ (smallFlight.serverKeyExchange.bytes ++ []))
  obtain ⟨s₂, hs₂, hstep'⟩ := @serverKeyExchange_eq { c with stream := s' } _ _ _ env (by decide)
    hstate hs'
  rw [List.nil_append] at hs₂
  obtain ⟨s₃, -, hcommit⟩ := commit_message hs₂
  rw [readServerKeyExchange_bytes (t := s₂.readTransaction) hs₂] at hstep'
  dsimp only at hstep'
  rw [bind_of_ok (onStream_of_ok hcommit)] at hstep'
  have houtcome := h.decides _ _ _ _ _ _ hs hs' hstep hstep'
  exact absurd (congrArg Outcome.handshakeState houtcome) (by simp [outcome, hstate])

theorem RespectsFraming.serverKeyExchange (h : RespectsFraming env c (recordBytes contentType p))
    (hlt : p.length < 2 ^ 16) (hstate : c.handshakeState = .ServerKeyExchange) :
    Inside p .ServerKeyExchange := by
  obtain ⟨s, hs⟩ := exists_content (recordBytes contentType p ++ [])
  obtain ⟨s₁, hs₁, hstep⟩ := @serverKeyExchange_eq { c with stream := s } _ _ _ env hlt hstate hs
  rw [List.append_nil] at hs₁
  have hsize : s₁.size = p.length := by rw [← Stream.length_content, hs₁]
  have hread := readServerKeyExchange_eq s₁.readTransaction
  rw [Stream.rest_readTransaction, hs₁] at hread
  -- a step that runs out of bytes has taken nothing but the record header
  have hsome : readServerKeyExchange s₁.readTransaction ≠ .ok none := by
    intro hnone
    rw [hnone] at hstep
    exact h.serverKeyExchange_ne_nil hstate (h.left_nil hs hstep hs₁)
  have h4 : 4 ≤ p.length := by
    by_contra hshort
    exact hsome (hread.trans (if_pos (by omega)))
  refine ⟨h4, fun htype => ?_⟩
  rw [if_neg (by omega), if_neg (not_not_intro htype)] at hread
  have h8 : 8 ≤ p.length := by
    by_contra hshort
    exact hsome (hread.trans (if_pos (by omega)))
  refine ⟨h8, fun hcurve => ?_⟩
  rw [if_neg (by omega), if_neg (not_not_intro hcurve.1), if_neg (not_not_intro hcurve.2)] at hread
  have hend : exchangeEnd p ≤ p.length := by
    by_contra hshort
    exact hsome (hread.trans (if_pos (by omega)))
  -- the step commits what it has read, and that is the whole payload
  obtain ⟨s₂, hs₂, hcommit⟩ := commit_skip (s := s₁) (n := exchangeEnd p) (by omega)
  rw [hread, if_neg (by omega)] at hstep
  dsimp only at hstep
  rw [bind_of_ok (onStream_of_ok hcommit)] at hstep
  rw [hs₁] at hs₂
  exact Nat.le_antisymm hend (h.drop_nil hs hstep hs₂)

/-- The end of the last step, for a client that can send its flight. -/
theorem serverHelloDone_returns {key secret : Vector UInt8 32} {n : Nat}
    (hcan : CanSend env.dpdk 93 c.tcp) (hkey : env.ossl.generateX25519Key c.drawn = some key)
    (hsecret : env.ossl.derive key (c.serverEphPubkey.take 32) = some secret) (hn : n ≤ s.size) :
    ∃ c', (onStream (Stream.commit (s.readTransaction.skip n)) >>= fun bytes =>
        hashUpdate bytes >>= fun _ => sendClientKeyExchangeAndFinished env >>= fun _ =>
          setHandshakeState .ClientFinished) { c with stream := s } = .ok () c' ∧
      c'.stream.content = s.content.drop n ∧ c'.handshakeState = .ClientFinished := by
  obtain ⟨s₁, hs₁, hcommit⟩ := commit_skip hn
  obtain ⟨d, hsend, hstream, -⟩ := @sendClientKeyExchangeAndFinished_ok env
    { c with stream := s₁, handshakeHash := c.handshakeHash ++ s.content.take n } key secret hcan
    hkey hsecret
  refine ⟨{ d with handshakeState := .ClientFinished }, ?_, ?_, rfl⟩
  · rw [bind_of_ok (onStream_of_ok hcommit), hashUpdate, bind_of_ok (modify_apply _ _),
      bind_of_ok hsend]
    rfl
  · rw [← hs₁]
    exact congrArg Stream.content hstream

/-- The ServerHelloDone that follows an empty record is taken for it. -/
theorem RespectsFraming.serverHelloDone_ne_nil {key secret : Vector UInt8 32}
    (h : RespectsFraming env c (recordBytes contentType p))
    (hstate : c.handshakeState = .ServerHelloDone) (hcan : CanSend env.dpdk 93 c.tcp)
    (hkey : env.ossl.generateX25519Key c.drawn = some key)
    (hsecret : env.ossl.derive key (c.serverEphPubkey.take 32) = some secret) : p ≠ [] := by
  rintro rfl
  obtain ⟨s, hs⟩ := exists_content (recordBytes contentType [] ++ [])
  obtain ⟨s₁, hs₁, hstep⟩ := @serverHelloDone_eq { c with stream := s } _ _ _ env (by decide)
    hstate hs
  rw [readServerHelloDone_eq, Stream.rest_readTransaction, hs₁, if_pos (by decide)] at hstep
  obtain ⟨s', hs'⟩ := exists_content
    (recordBytes contentType [] ++ (handshakeMessage .ServerHelloDone [] ++ []))
  obtain ⟨s₂, hs₂, hstep'⟩ := @serverHelloDone_eq { c with stream := s' } _ _ _ env (by decide)
    hstate hs'
  have hn : (handshakeMessage .ServerHelloDone []).length ≤ s₂.size := by
    rw [← Stream.length_content, hs₂]
    simp
  obtain ⟨c', hret, -, hfinished⟩ := serverHelloDone_returns hcan hkey hsecret hn
  rw [readServerHelloDone_bytes (t := s₂.readTransaction) (by decide) hs₂] at hstep'
  have houtcome := h.decides _ _ _ _ _ _ hs hs' hstep (hstep'.trans hret)
  have hstates := congrArg Outcome.handshakeState houtcome
  simp [outcome, hstate, hfinished] at hstates

theorem RespectsFraming.serverHelloDone {key secret : Vector UInt8 32}
    (h : RespectsFraming env c (recordBytes contentType p)) (hlt : p.length < 2 ^ 16)
    (hstate : c.handshakeState = .ServerHelloDone) (hcan : CanSend env.dpdk 93 c.tcp)
    (hkey : env.ossl.generateX25519Key c.drawn = some key)
    (hsecret : env.ossl.derive key (c.serverEphPubkey.take 32) = some secret) :
    Inside p .ServerHelloDone := by
  obtain ⟨s, hs⟩ := exists_content (recordBytes contentType p ++ [])
  obtain ⟨s₁, hs₁, hstep⟩ := @serverHelloDone_eq { c with stream := s } _ _ _ env hlt hstate hs
  rw [List.append_nil] at hs₁
  have hsize : s₁.size = p.length := by rw [← Stream.length_content, hs₁]
  have hread := readServerHelloDone_eq s₁.readTransaction
  rw [Stream.rest_readTransaction, hs₁] at hread
  have hsome : readServerHelloDone s₁.readTransaction ≠ .ok none := by
    intro hnone
    rw [hnone] at hstep
    exact h.serverHelloDone_ne_nil hstate hcan hkey hsecret (h.left_nil hs hstep hs₁)
  have h4 : 4 ≤ p.length := by
    by_contra hshort
    exact hsome (hread.trans (if_pos (by omega)))
  refine ⟨h4, fun htype => ?_⟩
  rw [if_neg (by omega), if_neg (not_not_intro htype)] at hread
  have hend : 4 + (handshakeHeaderOf p).size ≤ p.length := by
    by_contra hshort
    exact hsome (hread.trans (if_pos (by omega)))
  obtain ⟨c', hret, hcontent, -⟩ := serverHelloDone_returns (s := s₁)
    (n := 4 + (handshakeHeaderOf p).size) hcan hkey hsecret (by omega)
  rw [hread, if_neg (by omega)] at hstep
  rw [hs₁] at hcontent
  exact Nat.le_antisymm hend (h.drop_nil hs (hstep.trans hret) hcontent)

end Framing

/-- The states in which one record with one message of the server is awaited. -/
def flightStates : List HandshakeState :=
  [.ServerHello, .ServerCertificate, .ServerKeyExchange, .ServerHelloDone]

/-- The client of the small server in one of these states. -/
def clientIn (state : HandshakeState) : Client := { greetedClient with handshakeState := state }

theorem greetedClient_canSend : CanSend sampleEnv.dpdk 93 greetedClient.tcp :=
  ⟨by decide +kernel, by decide +kernel, by decide +kernel, by decide +kernel⟩

/-- **Record framing**: in each of the four states, the step of every client respects the framing of
a record, whatever follows the record, exactly if what the step reads lies inside the record. -/
theorem respectsFraming_iff (state : HandshakeState) (hstate : state ∈ flightStates)
    (contentType : ContentType) (payload : List UInt8) (hlt : payload.length < 2 ^ 16) :
    (∀ env c, c.handshakeState = state →
      RespectsFraming env c (recordBytes contentType payload)) ↔ Inside payload state := by
  constructor
  · intro h
    have hsample := h sampleEnv (clientIn state) rfl
    cases state with
    | ServerHello => exact hsample.serverHello hlt rfl
    | ServerCertificate => exact hsample.certificate hlt rfl
    | ServerKeyExchange => exact hsample.serverKeyExchange hlt rfl
    | ServerHelloDone => exact hsample.serverHelloDone hlt rfl greetedClient_canSend rfl rfl
    | _ => exact trivial
  · rintro hinside env c rfl
    simp only [flightStates, List.mem_cons, List.not_mem_nil, or_false] at hstate
    obtain hstate | hstate | hstate | hstate := hstate
    all_goals rw [hstate] at hinside
    · exact serverHello_respects hlt hstate hinside
    · exact certificate_respects hlt hstate hinside
    · exact serverKeyExchange_respects hlt hstate hinside
    · exact serverHelloDone_respects hlt hstate hinside

/-- The framing of an empty ServerHelloDone is respected. -/
theorem emptyServerHelloDone_respected : RespectsFraming sampleEnv (clientIn .ServerHelloDone)
    (recordBytes .Handshake [0x0E, 0, 0, 0]) :=
  (respectsFraming_iff .ServerHelloDone (by decide) .Handshake [0x0E, 0, 0, 0] (by decide)).mpr
    ⟨by decide, fun _ => by decide⟩ sampleEnv (clientIn .ServerHelloDone) rfl

/-- An alert in place of the key exchange: the call returns, and the payload is left behind. -/
theorem alert_splits :
    let record := recordBytes 0x15 [2, 40]
    let call := processHandshake sampleEnv
      { clientIn .ServerKeyExchange with stream := sampleStream record }
    threw call = false ∧ (after call).stream.content = [2, 40] ∧
      ¬ ∀ state ∈ flightStates, ∀ contentType payload, payload.length < 2 ^ 16 → ∀ env c,
        c.handshakeState = state → RespectsFraming env c (recordBytes contentType payload) := by
  refine ⟨by decide +kernel, by decide +kernel, fun h => ?_⟩
  have hinside := (h .ServerKeyExchange (by decide) 0x15 [2, 40] (by decide) sampleEnv
    (clientIn .ServerKeyExchange) rfl).serverKeyExchange (by decide) rfl
  exact absurd hinside.1 (by decide)

end Client

end WsGateway.Network.Tls12
