import WsGateway.Verify.Tls12.Handshake

/-!
# The sequence number for reading

The number for reading counts the application records that were decrypted: it
does not count the server's Finished, which is skipped, and `decrypt`
authenticates the length with the tag, so the additional data never is what the
server has sealed the record with.
-/

namespace WsGateway.Network.Tls12

open Library

namespace Client

/-! ## What leaves the number alone -/

/-- The number for reading is the same. -/
def SameRead (c c' : Client) : Prop := c'.readSequenceNumber = c.readSequenceNumber

instance : Std.Refl SameRead := ⟨fun _ => rfl⟩

instance : IsTrans Client SameRead := ⟨fun _ _ _ h h' => Eq.trans h' h⟩

theorem sameRead_ordinary : Ordinary SameRead where
  stream _ := Moves.member (S := fun _ _ => True) (fun _ => trivial) fun _ _ _ => rfl
  hash _ := Moves.update fun _ => rfl
  serverRandom _ := Moves.update fun _ => rfl
  serverEphPubkey _ := Moves.update fun _ => rfl
  tcp _ := Moves.member (S := fun _ _ => True) (fun _ => trivial) fun _ _ _ => rfl
  random ossl := by
    refine Moves.seq Moves.read fun c => ?_
    refine Moves.seq (Moves.update fun _ => rfl) fun _ => ?_
    cases ossl.randBytes c.drawn with
    | none => exact Moves.raise _
    | some random => exact Moves.update fun _ => rfl
  state _ := Moves.update fun _ => rfl
  explicitIv _ := Moves.update fun _ => rfl

theorem sameRead_encrypts : Encrypts SameRead where
  toOrdinary := sameRead_ordinary
  context _ _ := rfl
  number _ := rfl
  deriveKeys _ _ := Moves.update fun _ => rfl
  draw := Moves.update fun _ => rfl
  keyExchange := Moves.update fun _ => rfl
  pop _ := Moves.member (S := fun _ _ => True) (fun _ => trivial) fun _ _ _ => rfl

theorem onStream_sameRead {α : Type} (x : Prog Stream α) : Moves SameRead (onStream x) :=
  Moves.member (S := fun _ _ => True) (fun _ => trivial) fun _ _ _ => rfl

theorem onSendBuffer_sameRead {α : Type} (x : Prog Stream α) : Moves SameRead (onSendBuffer x) :=
  Moves.member (S := fun _ _ => True) (fun _ => trivial) fun _ _ _ => rfl

theorem construct_sameRead (env : Env) : Moves SameRead (construct env) :=
  Moves.seq (sameRead_ordinary.random _) fun _ => sameRead_ordinary.tcp _

theorem processPacket_sameRead (env : Env) (p : Tcp.PacketView) :
    Moves SameRead (processPacket env p) := by
  refine Moves.seq (sameRead_ordinary.tcp _) fun _ => ?_
  exact Moves.seq (Moves.update fun _ => rfl) fun _ => onStream_sameRead _

/-! ## Reading -/

/-- One record was decrypted to this plaintext, under the number of `c`. -/
structure Decrypts (c : Client) (plaintext : List UInt8) (c' : Client) : Prop where
  read : c'.readSequenceNumber = c.readSequenceNumber + 1
  aad : ∃ ctx, c'.decCtx = some ctx ∧ ctx.aad =
    additionalAuthData c.readSequenceNumber .ApplicationData (plaintext.length + kGcmTagSize)

/-- What a call that returns this has done to the number for reading. -/
def Reading (c : Client) : Option (List UInt8) → Client → Prop
  | some plaintext, c' => Decrypts c plaintext c'
  | none, c' => SameRead c c'

section Reading

variable {env : Env} {c c' : Client}

theorem SameRead.reading {d : Client} {p : Option (List UInt8)} (h : SameRead c d)
    (hd : Reading d p c') : Reading c p c' := by
  have hread : d.readSequenceNumber = c.readSequenceNumber := h
  cases p with
  | none => exact Eq.trans hd hread
  | some plaintext => exact ⟨hread ▸ hd.read, hread ▸ hd.aad⟩

theorem decrypt_reading (ossl : OpenSsl) (bytes : List UInt8) (c : Client) :
    Ends (decrypt ossl bytes) c (Decrypts c) (fun _ d => SameRead c d) := by
  by_cases hlen : kGcmTagSize < bytes.length
  · cases hctx : c.decCtx with
    | none =>
      unfold Ends
      rw [decrypt, require_bind, if_pos (by simpa using hlen), bind_of_ok (get_apply c), hctx]
      exact rfl
    | some ctx =>
      obtain ⟨ctx', -, haad, hdecrypt⟩ := @decrypt_of_some c ossl ctx bytes hctx hlen
      refine Ends.of_ok hdecrypt ⟨rfl, ctx', rfl, ?_⟩
      rw [haad, length_gcmPlaintext, Nat.sub_add_cancel (Nat.le_of_lt hlen)]
  · unfold Ends
    rw [decrypt_short (Nat.le_of_not_lt hlen)]
    exact rfl

theorem receiveRecord_reading (ossl : OpenSsl) (header : RecordHeader) (c : Client) :
    Ends (receiveRecord ossl header) c (Reading c) (fun _ d => SameRead c d) := by
  have hrefl : SameRead c c := rfl
  unfold receiveRecord
  generalize sizeSub header.size kExplicitIvSize = n
  refine (onStream_sameRead _).ends_seq hrefl fun _ t₁ h₁ => ?_
  refine (require_moves _ _).ends_seq h₁ fun _ t₂ h₂ => ?_
  refine (require_moves _ _).ends_seq h₂ fun _ t₃ h₃ => ?_
  refine (onStream_sameRead _).ends_seq h₃ fun iv t₄ h₄ => ?_
  cases iv with
  | none => exact h₄
  | some iv =>
    have h₅ : SameRead c { t₄ with ivExplicitIv := iv } := h₄
    refine Ends.update ?_
    refine (onStream_sameRead _).ends_seq h₅ fun ct t₆ h₆ => ?_
    cases ct with
    | none => exact h₆
    | some ct =>
      refine Ends.seq ((decrypt_reading ossl ct t₆).mono (fun _ _ h => h) ?_) fun p t₇ h₇ => ?_
      · exact fun _ t h => IsTrans.trans _ _ _ h₆ h
      · exact SameRead.reading (p := some p) h₆ h₇

/-- The handshake does not count what it reads, the server's Finished message included. -/
theorem processHandshake_sameRead (env : Env) (c : Client) :
    SameRead c (after (processHandshake env c)) :=
  sameRead_ordinary.processHandshake env fun _ d _ =>
    Moves.seq (sameRead_encrypts.sendClientKeyExchangeAndFinished env)
      (fun _ => sameRead_ordinary.state _) d

/-- The number for reading after a call of `receive` that returns, or before it calls itself. -/
theorem receiveOnce_reading (env : Env) (c : Client) : Ends (receiveOnce env) c
    (fun next d => match next with
      | .done plaintext => Reading c plaintext d
      | .again => SameRead c d)
    (fun _ d => SameRead c d) := by
  by_cases hfinished : HoldsRecord c.stream ∧ c.handshakeState = .ServerFinished
  · obtain ⟨hrec, hstate⟩ := hfinished
    have hreading := receiveRecord_reading env.ossl (firstRecord c.stream) c
    unfold Ends
    rw [receiveOnce_complete env hrec, if_pos hstate, bind_apply]
    cases hr : receiveRecord env.ossl (firstRecord c.stream) c with
    | error e d => exact hreading.error hr
    | ok plaintext d => exact hreading.ok hr
  · have hsame : SameRead c (after (receiveOnce env c)) := by
      refine receiveOnce_related (fun _ => ?_) (fun _ _ => ?_) (fun hrec hstate => ?_)
      · exact Moves.seq (sameRead_ordinary.sendClientHello env)
          (fun _ => sameRead_ordinary.state _) c
      · exact processHandshake_sameRead env c
      · exact absurd ⟨hrec, hstate⟩ hfinished
    unfold Ends
    cases honce : receiveOnce env c with
    | error e d => rw [honce] at hsame; exact hsame
    | ok next d =>
      rw [honce] at hsame
      cases next with
      | again => exact hsame
      | done plaintext =>
        obtain rfl : plaintext = none := receiveOnce_none hfinished honce
        exact hsame

theorem receiveFuel_reading {fuel : Nat} {r : EStateM.Result Error Client (Option (List UInt8))}
    (hr : receiveFuel env fuel c = some r) : match r with
      | .ok plaintext d => Reading c plaintext d
      | .error _ d => SameRead c d := by
  induction fuel generalizing c with
  | zero => cases hr
  | succ fuel ih =>
    have hreading := receiveOnce_reading env c
    rw [receiveFuel] at hr
    cases honce : receiveOnce env c with
    | error e d =>
      rw [honce] at hr
      cases hr
      exact hreading.error honce
    | ok next d =>
      have hnext := hreading.ok honce
      rw [honce] at hr
      cases next with
      | done plaintext =>
        cases hr
        exact hnext
      | again =>
        have htail := ih hr
        cases r with
        | ok plaintext d' => exact SameRead.reading hnext htail
        | error e d' => exact Eq.trans htail hnext

theorem receive_reading (env : Env) (c : Client) :
    Ends (receive env) c (Reading c) (fun _ d => SameRead c d) := by
  unfold Ends receive
  cases hr : receiveFuel env (c.stream.size + 1) c with
  | none => exact rfl
  | some r =>
    have hreading := receiveFuel_reading hr
    cases r with
    | ok plaintext d => exact hreading
    | error e d => exact hreading

/-- Whether a call of `receive` has returned an application record. -/
def returned : EStateM.Result Error Client (Option (List UInt8)) → Nat
  | .ok (some _) _ => 1
  | _ => 0

/-- Whether a call returns an application record. -/
def Call.returnsRecord (env : Env) (c : Client) : Call → Bool
  | .receive => match receiveOnce env c with
    | .ok (.done (some _)) _ => true
    | _ => false
  | _ => false

/-- A run of the client in which `receive` has returned this many application records. -/
def Records (env : Env) (c : Client) (k : Nat) : Prop :=
  ∃ past, Run env past c ∧ past.countP (fun x => x.2.returnsRecord env x.1) = k

theorem countP_concat (past : List (Client × Call)) (c : Client) (call : Call) :
    (past ++ [(c, call)]).countP (fun x => x.2.returnsRecord env x.1) =
      past.countP (fun x => x.2.returnsRecord env x.1) +
        if call.returnsRecord env c then 1 else 0 := by
  rw [List.countP_append, List.countP_singleton]

theorem Records.call {k : Nat} (h : Records env c k) (call : Call) :
    Records env (call.run env c) (k + if call.returnsRecord env c then 1 else 0) := by
  obtain ⟨past, hrun, rfl⟩ := h
  exact ⟨_, hrun.call call, countP_concat past c call⟩

/-- The additional data of the server's `k`-th application record: its Finished message has the
number `0`, and the size is that of the plaintext. -/
def serverAad (k : Nat) (plaintext : List UInt8) : List UInt8 :=
  additionalAuthData (UInt64.ofNat (k + 1)) .ApplicationData plaintext.length

/-- The number for reading counts the application records. -/
theorem Records.read {k : Nat} (h : Records env c k) :
    c.readSequenceNumber = UInt64.ofNat k := by
  obtain ⟨past, hrun, rfl⟩ := h
  refine hrun.invariant (I := fun past c => c.readSequenceNumber =
      UInt64.ofNat (past.countP fun x => x.2.returnsRecord env x.1))
    (fun sniHostname tcp => ?_) fun past c call ih => ?_
  · exact construct_sameRead env (.init sniHostname tcp)
  · rw [countP_concat, UInt64.ofNat_add, ← ih]
    have hsame : ∀ {c'}, SameRead c c' →
        c'.readSequenceNumber = c.readSequenceNumber + UInt64.ofNat 0 := by
      intro c' h
      rw [show c'.readSequenceNumber = c.readSequenceNumber from h]
      exact (UInt64.add_zero _).symm
    cases call with
    | processPacket p => exact hsame (processPacket_sameRead env p c)
    | pushString str => exact hsame (onSendBuffer_sameRead (Stream.pushString str) c)
    | flush fails => exact hsame (sameRead_encrypts.flushWith fails env c)
    | receive =>
      have hreading := receiveOnce_reading env c
      rw [Call.run, Call.returnsRecord]
      cases honce : receiveOnce env c with
      | error e d => exact hsame (hreading.error honce)
      | ok next d =>
        have hd := hreading.ok honce
        cases next with
        | again => exact hsame hd
        | done plaintext =>
          cases plaintext with
          | none => exact hsame hd
          | some plaintext => exact hd.read

theorem Records.receiveFuel {fuel k : Nat}
    {r : EStateM.Result Error Client (Option (List UInt8))} (h : Records env c k)
    (hr : receiveFuel env fuel c = some r) : Records env (after r) (k + returned r) := by
  induction fuel generalizing c k with
  | zero => cases hr
  | succ fuel ih =>
    have hcall := h.call .receive
    rw [Call.run, Call.returnsRecord] at hcall
    rw [Client.receiveFuel] at hr
    cases honce : receiveOnce env c with
    | error e d =>
      rw [honce] at hr hcall
      cases hr
      exact hcall
    | ok next d =>
      rw [honce] at hr hcall
      cases next with
      | again => exact ih hcall hr
      | done plaintext =>
        cases hr
        cases plaintext <;> exact hcall

/-- A call of `receive` as a whole. -/
theorem Records.receive {k : Nat} (h : Records env c k) :
    Records env (after (Client.receive env c)) (k + returned (Client.receive env c)) := by
  unfold Client.receive
  cases hr : Client.receiveFuel env (c.stream.size + 1) c with
  | none => exact h
  | some r => exact h.receiveFuel hr

/-- The additional data with which a record is decrypted. -/
theorem Records.aad {k : Nat} (h : Records env c k) {plaintext : List UInt8}
    (hr : Client.receive env c = .ok (some plaintext) c') : ∃ ctx, c'.decCtx = some ctx ∧
      ctx.aad = additionalAuthData (UInt64.ofNat k) .ApplicationData
        (plaintext.length + kGcmTagSize) := by
  have hd : Decrypts c plaintext c' := (receive_reading env c).ok hr
  rw [← h.read]
  exact hd.aad

/-- Additional data tells the size, up to 16 bits. -/
theorem additionalAuthData_ne {n m : UInt64} {contentType : ContentType} {size size' : Nat}
    (h : size % 2 ^ 16 ≠ size' % 2 ^ 16) :
    additionalAuthData n contentType size ≠ additionalAuthData m contentType size' := by
  intro heq
  have hsizes := (List.append_inj' heq (by simp)).2
  apply h
  have hnat := congrArg beNat hsizes
  rwa [beNat_beBytes, beNat_beBytes] at hnat

end Reading

/-- **Additional data**: in every run, for every `k`, the additional data under which the `k`-th
application record is decrypted is not what the server has sealed it under: its number is one less,
and its size is that of the plaintext with the tag. -/
theorem aad_never_agrees (env : Env) (c c' : Client) (k : Nat) (plaintext : List UInt8)
    (hrun : Records env c k) (h : receive env c = .ok (some plaintext) c') :
    ∃ ctx, c'.decCtx = some ctx ∧
      ctx.aad = additionalAuthData (UInt64.ofNat k) .ApplicationData (plaintext.length + 16) ∧
      ctx.aad ≠ serverAad k plaintext := by
  obtain ⟨ctx, hctx, haad⟩ := hrun.aad h
  refine ⟨ctx, hctx, haad, ?_⟩
  rw [haad]
  apply additionalAuthData_ne
  unfold kGcmTagSize
  omega

/-- The calls of `receive` in the sample handshake return, and no application record. -/
theorem handshakenClient_calls :
    let c₁ := after (processPacket sampleEnv (Tcp.Client.synAck 0)
      (after (construct sampleEnv (.init [] (.new Tcp.Client.sampleConnection {} 7 0)))))
    let c₂ := after (processPacket sampleEnv (Tcp.Client.segment 1 sampleFlight)
      (after (receive sampleEnv c₁)))
    let c₃ := after (processPacket sampleEnv
      (Tcp.Client.segment 117 [0x14, 3, 3, 0, 1, 1, 0x16, 3, 3, 0, 0]) (after (receive sampleEnv c₂)))
    (threw (receive sampleEnv c₁) = false ∧ threw (receive sampleEnv c₂) = false ∧
        threw (receive sampleEnv c₃) = false) ∧
      returned (receive sampleEnv c₁) = 0 ∧ returned (receive sampleEnv c₂) = 0 ∧
        returned (receive sampleEnv c₃) = 0 := by
  decide +kernel

theorem fed_records {c : Client} {k : Nat} (h : Records sampleEnv c k) (p : Tcp.PacketView)
    (hnone : returned (receive sampleEnv (after (processPacket sampleEnv p c))) = 0) :
    Records sampleEnv (fed p c) k := by
  have hpacket : Records sampleEnv (after (processPacket sampleEnv p c)) k :=
    h.call (.processPacket p)
  have hrun := hpacket.receive
  rwa [hnone, Nat.add_zero] at hrun

theorem taggedClient_records (tag : List UInt8) : Records sampleEnv (taggedClient tag) 0 := by
  obtain ⟨-, hnone₁, hnone₂, hnone₃⟩ := handshakenClient_calls
  have hstart : Records sampleEnv (constructed sampleEnv []
      (.new Tcp.Client.sampleConnection {} 7 0)) 0 := ⟨[], .construct _ _ _, rfl⟩
  exact (fed_records (fed_records (fed_records hstart _ hnone₁) _ hnone₂) _ hnone₃).call
    (.processPacket _)

theorem taggedClient_aad_never_agrees : ∃ plaintext c' ctx,
    receive sampleEnv (taggedClient (List.replicate 16 0)) = .ok (some plaintext) c' ∧
      c'.decCtx = some ctx ∧ ctx.aad ≠ serverAad 0 plaintext := by
  obtain ⟨plaintext, c', h⟩ := taggedClient_receives (b := 0) (by decide)
  obtain ⟨ctx, hctx, -, hne⟩ := aad_never_agrees sampleEnv _ c' 0 plaintext
    (taggedClient_records _) h
  exact ⟨plaintext, c', ctx, h, hctx, hne⟩

/-- The first record after the handshake is decrypted as the record with the number `0`. -/
theorem first_record_number :
    Records sampleEnv (taggedClient (List.replicate 16 0)) 0 ∧ ∃ plaintext c' ctx,
      receive sampleEnv (taggedClient (List.replicate 16 0)) = .ok (some plaintext) c' ∧
        c'.decCtx = some ctx ∧ ctx.aad.take 8 = beBytes 8 0 ∧
        (serverAad 0 plaintext).take 8 = beBytes 8 1 := by
  have hrun := taggedClient_records (List.replicate 16 0)
  obtain ⟨plaintext, c', h⟩ := taggedClient_receives (b := 0) (by decide)
  obtain ⟨ctx, hctx, haad⟩ := hrun.aad h
  refine ⟨hrun, plaintext, c', ctx, h, hctx, ?_, ?_⟩
  · rw [haad, additionalAuthData, List.append_assoc, List.take_left' (by simp)]
    rfl
  · rw [serverAad, additionalAuthData, List.append_assoc, List.take_left' (by simp)]
    rfl

end Client

end WsGateway.Network.Tls12
