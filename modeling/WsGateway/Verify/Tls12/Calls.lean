import WsGateway.Network.Tls12.Client
import WsGateway.Verify.Tcp.Receive

/-!
# What a call does to the TLS client

Everything the TLS client does between two segments is a sequence of the updates
listed in `Update`: it sends through the TCP client, reads from its stream,
works on its own buffers, installs keys and advances the handshake. `receive`
and `flush` are shown once to move the client along `Updates`; an invariant then
needs one case for each kind of update.
-/

namespace WsGateway.Network.Tls12

open Library

/-- The handshake states in which the keys are in use. -/
def HandshakeState.Keyed (s : HandshakeState) : Prop := s = .ClientFinished ∨ s = .ServerFinished

namespace Client

/-- The connection, the stream, the keys for reading and the handshake state are the same. -/
structure SameCore (c c' : Client) : Prop where
  tcp : c'.tcp = c.tcp
  stream : c'.stream = c.stream
  keys : c'.keys = c.keys
  decCtx : c'.decCtx = c.decCtx
  iv : c'.ivServerWriteIv = c.ivServerWriteIv
  state : c'.handshakeState = c.handshakeState

/-- One update of the client. -/
inductive Update : Client → Client → Prop where
  | sends (c : Client) (t : Tcp.Client) (h : Tcp.Client.Sends c.tcp t) :
      Update c { c with tcp := t }
  | reads (c : Client) (n : Nat) (h : n ≤ c.stream.size) :
      Update c { c with stream := c.stream.advance n h }
  | scratch (c c' : Client) (h : SameCore c c') : Update c c'
  | rekeys (c : Client) (masterSecret : Vector UInt8 48) (keys : Keys)
      (enc dec : EncryptContext) (h : dec.key = keys.serverWriteKey) :
      Update c { c with
        masterSecret := masterSecret
        keys := keys
        encCtx := some enc
        decCtx := some dec
        ivServerWriteIv := keys.serverWriteIv }
  | deciphers (c : Client) (dec dec' : EncryptContext) (n : UInt64) (h : c.decCtx = some dec)
      (hkey : dec'.key = dec.key) :
      Update c { c with
        decCtx := some dec'
        readSequenceNumber := n }
  | early (c : Client) (s : HandshakeState) (h : ¬ s.Keyed) :
      Update c { c with handshakeState := s }
  | clientFinished (c : Client) (h : c.decCtx.isSome) :
      Update c { c with handshakeState := .ClientFinished }
  | serverFinished (c : Client) (h : c.handshakeState = .ClientFinished) :
      Update c { c with handshakeState := .ServerFinished }

/-- Any number of updates. -/
def Updates : Client → Client → Prop := Relation.ReflTransGen Update

instance : Std.Refl Updates := ⟨fun _ => .refl⟩

instance : IsTrans Client Updates := ⟨fun _ _ _ => Relation.ReflTransGen.trans⟩

/-- What every update preserves, a sequence of them does. -/
theorem Updates.invariant {I : Client → Prop} (hstep : ∀ c c', Update c c' → I c → I c')
    {c c' : Client} (h : Updates c c') (hc : I c) : I c' := by
  induction h with
  | refl => exact hc
  | tail _ hlast ih => exact hstep _ _ hlast ih

/-! ## Calls that leave the TCP client alone -/

/-- Updates that leave the TCP client alone and the handshake where it is. -/
structure Quiet (c c' : Client) : Prop where
  updates : Updates c c'
  tcp : c'.tcp = c.tcp
  state : c'.handshakeState = c.handshakeState
  decCtx : c.decCtx.isSome → c'.decCtx.isSome

instance : Std.Refl Quiet := ⟨fun _ => ⟨.refl, rfl, rfl, id⟩⟩

instance : IsTrans Client Quiet :=
  ⟨fun _ _ _ h h' => ⟨h.updates.trans h'.updates, h'.tcp.trans h.tcp, h'.state.trans h.state,
    h'.decCtx ∘ h.decCtx⟩⟩

theorem Quiet.of_sameCore {c c' : Client} (h : SameCore c c') : Quiet c c' :=
  ⟨.single (.scratch c c' h), h.tcp, h.state, fun hs => h.decCtx.symm ▸ hs⟩

/-- A packet view operation leaves the client alone. -/
theorem ofExcept_moves {R : Client → Client → Prop} [Std.Refl R] {α : Type}
    (x : Except Error α) : Moves R (Tcp.Client.ofExcept x : Prog Client α) := by
  cases x with
  | ok a => exact Moves.ret a
  | error e => exact Moves.raise e

theorem ofExcept_eq_ok {σ α : Type} {x : Except Error α} {s s' : σ} {a : α}
    (h : Tcp.Client.ofExcept x s = .ok a s') : x = .ok a ∧ s' = s := by
  cases x with
  | ok b =>
    cases h
    exact ⟨rfl, rfl⟩
  | error e => cases h

theorem quiet_ofExcept {α : Type} (x : Except Error α) :
    Moves Quiet (Tcp.Client.ofExcept x : Prog Client α) :=
  ofExcept_moves x

theorem require_moves {R : Client → Client → Prop} [Std.Refl R] (b : Bool) (message : String) :
    Moves R (require b message : Prog Client Unit) :=
  Moves.of_unchanged (require_unchanged b message)

theorem quiet_require (b : Bool) (message : String) :
    Moves Quiet (require b message : Prog Client Unit) :=
  require_moves b message

theorem quiet_hashUpdate (bytes : List UInt8) : Moves Quiet (hashUpdate bytes) :=
  Moves.update fun _ => .of_sameCore ⟨rfl, rfl, rfl, rfl, rfl, rfl⟩

theorem quiet_generateClientRandom (ossl : OpenSsl) : Moves Quiet (generateClientRandom ossl) := by
  refine Moves.seq Moves.read fun c => ?_
  refine Moves.seq (Moves.update fun _ => .of_sameCore ⟨rfl, rfl, rfl, rfl, rfl, rfl⟩) fun _ => ?_
  cases ossl.randBytes c.drawn with
  | none => exact Moves.raise _
  | some random => exact Moves.update fun _ => .of_sameCore ⟨rfl, rfl, rfl, rfl, rfl, rfl⟩

theorem quiet_onSendBuffer {α : Type} (x : Prog Stream α) : Moves Quiet (onSendBuffer x) :=
  Moves.member (S := fun _ _ => True) (fun _ => trivial) fun _ _ _ =>
    .of_sameCore ⟨rfl, rfl, rfl, rfl, rfl, rfl⟩

theorem onStream_of_ok {α : Type} {x : Prog Stream α} {a : α} {c : Client} {s : Stream}
    (h : x c.stream = .ok a s) : onStream x c = .ok a { c with stream := s } :=
  zoom_of_ok h

/-- A call that reads from the stream. -/
def Reads (s s' : Stream) : Prop := ∃ n, ∃ h : n ≤ s.size, s' = s.advance n h

theorem quiet_onStream {α : Type} {x : Prog Stream α} (h : Moves (fun s s' => s' = s ∨ Reads s s') x) :
    Moves Quiet (onStream x) := by
  refine Moves.member h fun c s hs => ?_
  rcases hs with rfl | ⟨n, hn, rfl⟩
  · exact Std.Refl.refl c
  · exact ⟨.single (.reads c n hn), rfl, rfl, id⟩

theorem pop_reads (n : Nat) : Moves (fun s s' => s' = s ∨ Reads s s') (Stream.pop n) := by
  intro s
  by_cases h : n ≤ s.size
  · rw [s.pop_of_le h]
    exact Or.inr ⟨n, h, rfl⟩
  · rw [s.pop_of_gt (by omega)]
    exact Or.inl rfl

theorem popObject_reads (α : Type) [Packed α] :
    Moves (fun s s' => s' = s ∨ Reads s s') (Stream.popObject α) := by
  intro s
  by_cases h : Packed.size α ≤ s.size
  · rw [s.popObject_of_le α h]
    exact Or.inr ⟨_, h, rfl⟩
  · rw [s.popObject_of_gt α (by omega)]
    exact Or.inl rfl

theorem commit_reads (t : Stream.ReadTransaction) :
    Moves (fun s s' => s' = s ∨ Reads s s') (Stream.commit t) := by
  intro s
  by_cases h : t.readIt ≤ s.size
  · rw [Stream.commit_of_le h]
    exact Or.inr ⟨_, h, rfl⟩
  · rw [Stream.commit, bind_of_ok (s.pop_of_gt (by omega))]
    exact Or.inl rfl

/-! ## Encrypting -/

/-- The nonce with the next number. -/
def nextNonce (c : Client) : List UInt8 :=
  c.keys.clientWriteIv.toList ++ beBytes 8 c.writeSequenceNumber.toNat

/-- `c` with its context `ctx` replaced by one that was given the next nonce. -/
def Begins (c : Client) (ctx ctx' : EncryptContext) : Prop :=
  ctx'.key = ctx.key ∧ ctx'.nonces = ctx.nonces ++ [nextNonce c]

/-- AES-128-GCM encryption: the ciphertext and its tag. -/
def gcmSeal (ossl : OpenSsl) (key : AES128Key) (nonce aad plaintext : List UInt8) : List UInt8 :=
  let ciphertext := plaintext.mapIdx fun i b => b ^^^ ossl.gcmKeystream key nonce i
  ciphertext ++ (ossl.gcmTag key nonce aad ciphertext).toList

theorem length_gcmSeal (ossl : OpenSsl) (key : AES128Key) (nonce aad plaintext : List UInt8) :
    (gcmSeal ossl key nonce aad plaintext).length = plaintext.length + kGcmTagSize := by
  simp [gcmSeal, kGcmTagSize]

/-- A call of `encrypt` that returns has counted, with everything fed to the context; one that
throws has only begun. -/
theorem encrypt_ends (fails : Option EvpCall) (ossl : OpenSsl) (view : List UInt8)
    (contentType : ContentType) {c : Client} {ctx : EncryptContext} (hctx : c.encCtx = some ctx) :
    Ends (encrypt fails ossl view contentType) c
      (fun encrypted d => fails = none ∧ ∃ ctx', Begins c ctx ctx' ∧
        ctx'.aad = additionalAuthData c.writeSequenceNumber contentType view.length ∧
        encrypted = gcmSeal ossl ctx.key (nextNonce c) ctx'.aad view ∧
        d = { c with encCtx := some ctx', writeSequenceNumber := c.writeSequenceNumber + 1 })
      (fun _ d => fails ≠ none ∧ ∃ ctx', Begins c ctx ctx' ∧ d = { c with encCtx := some ctx' }) := by
  refine Ends.read ?_
  rw [hctx]
  dsimp only
  cases fails with
  | none =>
    refine ⟨rfl, _, ?_, ?_, ?_, rfl⟩
    · exact ⟨rfl, rfl⟩
    · rfl
    · simp [EncryptContext.init, EncryptContext.updateAad, EncryptContext.encryptUpdate,
        EncryptContext.applyKeystream, EncryptContext.tag, gcmSeal, nextNonce]
  | some call =>
    cases call <;> refine ⟨Option.some_ne_none _, _, ?_, rfl⟩
    all_goals exact ⟨rfl, rfl⟩

theorem encrypt_of_none {c : Client} {fails : Option EvpCall} {ossl : OpenSsl} {view : List UInt8}
    {contentType : ContentType} (hctx : c.encCtx = none) :
    encrypt fails ossl view contentType c = .error .emptyOptional c := by
  rw [encrypt, bind_of_ok (get_apply c), hctx]
  rfl

/-- A relation that allows what `encrypt` does with its context and the number. -/
theorem encrypt_moves {R : Client → Client → Prop} [Std.Refl R] [IsTrans Client R]
    (hcontext : ∀ c ctx ctx', c.encCtx = some ctx → ctx'.key = ctx.key →
      R c { c with encCtx := some ctx' })
    (hcount : ∀ c : Client, R c { c with writeSequenceNumber := c.writeSequenceNumber + 1 })
    (fails : Option EvpCall) (ossl : OpenSsl) (view : List UInt8) (contentType : ContentType) :
    Moves R (encrypt fails ossl view contentType) := by
  refine Moves.of_ends fun c => ?_
  cases hctx : c.encCtx with
  | none =>
    unfold Ends
    rw [encrypt_of_none hctx]
    exact Std.Refl.refl c
  | some ctx =>
    refine (encrypt_ends fails ossl view contentType hctx).mono ?_ ?_
    · rintro _ _ ⟨-, ctx', hbegins, -, -, rfl⟩
      exact IsTrans.trans _ _ _ (hcontext c ctx ctx' hctx hbegins.1) (hcount _)
    · rintro _ _ ⟨-, ctx', hbegins, rfl⟩
      exact hcontext c ctx ctx' hctx hbegins.1

theorem quiet_encrypt (fails : Option EvpCall) (ossl : OpenSsl) (view : List UInt8)
    (contentType : ContentType) : Moves Quiet (encrypt fails ossl view contentType) := by
  refine encrypt_moves (fun _ _ _ _ _ => ?_) (fun _ => ?_) _ _ _ _
  · exact .of_sameCore ⟨rfl, rfl, rfl, rfl, rfl, rfl⟩
  · exact .of_sameCore ⟨rfl, rfl, rfl, rfl, rfl, rfl⟩

theorem quiet_decrypt (ossl : OpenSsl) (bytes : List UInt8) : Moves Quiet (decrypt ossl bytes) := by
  refine Moves.seq (quiet_require _ _) fun _ => Moves.of_ends fun c => Ends.read ?_
  cases hctx : c.decCtx with
  | none => exact Ends.raise (Std.Refl.refl c)
  | some ctx =>
    let dec := ((ctx.init (c.ivServerWriteIv.toList ++ c.ivExplicitIv)).updateAad
      (additionalAuthData c.readSequenceNumber .ApplicationData bytes.length)).decryptUpdate ossl
        bytes
    have hupdate : Update c { c with
        decCtx := some dec.2
        readSequenceNumber := c.readSequenceNumber + 1 } :=
      .deciphers c ctx dec.2 (c.readSequenceNumber + 1) hctx rfl
    exact Ends.update (Ends.ret ⟨.single hupdate, rfl, rfl, fun _ => rfl⟩)

theorem deriveKeys_returns (ossl : OpenSsl) (sharedSecret : Vector UInt8 32) (c : Client) :
    ∃ c', deriveKeys ossl sharedSecret c = .ok () c' ∧ Quiet c c' ∧ c'.decCtx.isSome := by
  refine ⟨_, rfl, ⟨.single (.rekeys c _ _ _ _ ?_), rfl, rfl, fun _ => rfl⟩, rfl⟩
  rfl

/-! ## Sending -/

/-- The client got here from `c` by updates and holds a packet with the current number. -/
def Holds (c : Client) (packet : Tcp.SendBuffer) (t : Client) : Prop :=
  Updates c t ∧ t.handshakeState = c.handshakeState ∧ packet.tcp.Stamped t.tcp.seq

/-- The client got here from `c` by updates that left the handshake where it is. -/
def Reached (c t : Client) : Prop := Updates c t ∧ t.handshakeState = c.handshakeState

section Sending

variable {c t : Client} {packet : Tcp.SendBuffer} {α β : Type}

/-- A call that leaves the TCP client alone may stand between obtaining and sending a packet. -/
theorem Holds.quiet {x : Prog Client α} {f : α → Prog Client β} {Q : β → Client → Prop}
    (h : Holds c packet t) (hx : Moves Quiet x)
    (hf : ∀ a t', Holds c packet t' → Quiet t t' → Ends (f a) t' Q (fun _ => Reached c)) :
    Ends (x >>= f) t Q (fun _ => Reached c) := by
  refine Ends.seq ((hx.ends t).mono (fun _ _ h => h) ?_) ?_
  · intro _ t' hq
    exact ⟨h.1.trans hq.updates, hq.state.trans h.2.1⟩
  · intro a t' hq
    exact hf a t' ⟨h.1.trans hq.updates, hq.state.trans h.2.1, hq.tcp.symm ▸ h.2.2⟩ hq

theorem getSendBuffer_holds (dpdk : Dpdk) (flags : Tcp.Flags) (c : Client) :
    Ends (onTcp (Tcp.Client.getSendBuffer dpdk flags false)) c
      (fun packet t => Holds c packet t ∧ t.decCtx = c.decCtx) (fun _ => Reached c) := by
  apply Ends.member
  refine (Tcp.Client.getSendBuffer_ends dpdk flags false c.tcp).mono ?_ ?_
  · rintro packet _ ⟨hp, d, rfl⟩
    exact ⟨⟨.single (.sends c _ (.device c.tcp d)), rfl, hp⟩, rfl⟩
  · rintro _ _ ⟨d, rfl⟩
    exact ⟨.single (.sends c _ (.device c.tcp d)), rfl⟩

theorem sendPayload_reached (env : Env) (h : Holds c packet t) (payload : List UInt8) :
    Ends (sendPayload env packet payload) t
      (fun _ t' => Reached c t' ∧ t'.decCtx = t.decCtx) (fun _ => Reached c) := by
  apply Ends.member
  refine (Tcp.Client.send_sends env.dpdk (h.2.2.writePayload payload) payload.length).mono ?_ ?_
  · intro _ t' hs
    exact ⟨⟨h.1.tail (.sends t t' hs), h.2.1⟩, rfl⟩
  · intro _ t' hs
    exact ⟨h.1.tail (.sends t t' hs), h.2.1⟩

end Sending

theorem flushWith_reached (fails : Option EvpCall) (env : Env) (c : Client) :
    Ends (flushWith fails env) c (fun _ => Reached c) (fun _ => Reached c) := by
  refine Ends.seq (getSendBuffer_holds env.dpdk .PSH_ACK c) ?_
  rintro packet t ⟨h, -⟩
  refine h.quiet (quiet_ofExcept _) fun ws t h _ => ?_
  apply Ends.read
  refine h.quiet (quiet_onSendBuffer _) fun toSend t h _ => ?_
  refine h.quiet (quiet_require _ _) fun _ t h _ => ?_
  refine h.quiet (quiet_ofExcept _) fun _ t h _ => ?_
  refine h.quiet (quiet_encrypt _ _ _ _) fun encrypted t h _ => ?_
  exact (sendPayload_reached env h _).mono (fun _ _ h => h.1) (fun _ _ h => h)

theorem sendClientHello_reached (env : Env) (c : Client) :
    Ends (sendClientHello env) c (fun _ => Reached c) (fun _ => Reached c) := by
  refine Ends.seq (getSendBuffer_holds env.dpdk .PSH_ACK c) ?_
  rintro packet t ⟨h, -⟩
  refine h.quiet (quiet_generateClientRandom _) fun _ t h _ => ?_
  refine h.quiet (quiet_ofExcept _) fun ws t₁ h _ => ?_
  apply Ends.read
  refine h.quiet (quiet_ofExcept _) fun ws t h _ => ?_
  refine h.quiet (quiet_ofExcept _) fun ws t h _ => ?_
  refine h.quiet (quiet_ofExcept _) fun ws t h _ => ?_
  generalize clientHelloBytes kDefaultExtensions.reverse t₁.clientRandom t₁.sniHostname = hello
  refine h.quiet (quiet_hashUpdate _) fun _ t h _ => ?_
  exact (sendPayload_reached env h _).mono (fun _ _ h => h.1) (fun _ _ h => h)

/-- The flight that installs the keys. -/
theorem sendClientKeyExchangeAndFinished_reached (env : Env) (c : Client) :
    Ends (sendClientKeyExchangeAndFinished env) c
      (fun _ t => Reached c t ∧ t.decCtx.isSome) (fun _ => Reached c) := by
  have hcounted : Update c { c with keyExchanges := c.keyExchanges + 1 } :=
    .scratch _ _ ⟨rfl, rfl, rfl, rfl, rfl, rfl⟩
  have hpacket : Ends (onTcp (Tcp.Client.getSendBuffer env.dpdk .PSH_ACK false))
      { c with keyExchanges := c.keyExchanges + 1 } (fun packet t => Holds c packet t)
      (fun _ => Reached c) := by
    refine (getSendBuffer_holds env.dpdk .PSH_ACK _).mono ?_ ?_
    · exact fun packet t h => ⟨h.1.1.head hcounted, h.1.2.1, h.1.2.2⟩
    · exact fun _ t h => ⟨h.1.head hcounted, h.2⟩
  refine Ends.update (Ends.seq hpacket ?_)
  intro packet t h
  refine h.quiet (quiet_ofExcept _) fun ws t h _ => ?_
  apply Ends.read
  refine h.quiet (Moves.update fun _ => .of_sameCore ⟨rfl, rfl, rfl, rfl, rfl, rfl⟩)
    fun _ t' h _ => ?_
  cases env.ossl.generateX25519Key t.drawn with
  | none => exact ⟨h.1, h.2.1⟩
  | some clientEphKey =>
    dsimp only
    cases env.ossl.derive clientEphKey (t.serverEphPubkey.take 32) with
    | none => exact ⟨h.1, h.2.1⟩
    | some sharedSecret =>
      dsimp only
      refine h.quiet (quiet_hashUpdate _) fun _ t h _ => ?_
      refine Ends.seq (Q := fun _ t => Holds c packet t ∧ t.decCtx.isSome) ?_ ?_
      · obtain ⟨t', hok, hq, hdec⟩ := deriveKeys_returns env.ossl sharedSecret t
        exact Ends.of_ok hok ⟨⟨h.1.trans hq.updates, hq.state.trans h.2.1, hq.tcp.symm ▸ h.2.2⟩,
          hdec⟩
      rintro _ t ⟨h, hdec⟩
      apply Ends.read
      refine h.quiet (quiet_ofExcept _) fun ws t h hq₁ => ?_
      refine h.quiet (quiet_ofExcept _) fun ws t h hq₂ => ?_
      refine h.quiet (quiet_encrypt _ _ _ _) fun encrypted t h hq₃ => ?_
      refine h.quiet (quiet_ofExcept _) fun _ t h hq₄ => ?_
      refine (sendPayload_reached env h _).mono ?_ (fun _ _ h => h)
      rintro _ t' ⟨hr, hsame⟩
      exact ⟨hr, hsame ▸ hq₄.decCtx (hq₃.decCtx (hq₂.decCtx (hq₁.decCtx hdec)))⟩

/-! ## Receiving -/

theorem onStream_pop_quiet (n : Nat) : Moves Quiet (onStream (Stream.pop n)) :=
  quiet_onStream (pop_reads n)

theorem onStream_popObject_quiet (α : Type) [Packed α] :
    Moves Quiet (onStream (Stream.popObject α)) :=
  quiet_onStream (popObject_reads α)

/-- The handshake steps that take the record header first, and then move along `R`. -/
def PopsHeader {α : Type} (R : Client → Client → Prop) (x : Prog Client α) : Prop :=
  ∃ f, x = (onStream (Stream.popObject RecordHeader) >>= f) ∧ ∀ header, Moves R (f header)

theorem PopsHeader.moves {R : Client → Client → Prop} [IsTrans Client R] {α : Type}
    {x : Prog Client α} (h : PopsHeader R x)
    (hstream : ∀ {β : Type} {y : Prog Stream β}, Moves (fun s s' => s' = s ∨ Reads s s') y →
      Moves R (onStream y)) : Moves R x := by
  obtain ⟨f, rfl, hf⟩ := h
  exact Moves.seq (hstream (popObject_reads _)) hf

theorem PopsHeader.quiet {α : Type} {x : Prog Client α} (h : PopsHeader Quiet x) :
    Moves Quiet x :=
  h.moves quiet_onStream

/-- A relation that allows what parsing a handshake message does. -/
structure Parses (R : Client → Client → Prop) : Prop where
  stream {α : Type} {x : Prog Stream α} (h : Moves (fun s s' => s' = s ∨ Reads s s') x) :
    Moves R (onStream x)
  hash (bytes : List UInt8) : Moves R (hashUpdate bytes)
  serverRandom (random : Vector UInt8 32) :
    Moves R (modify fun c => { c with serverRandom := random } : Prog Client Unit)
  serverEphPubkey (f : List UInt8 → List UInt8) :
    Moves R (modify fun c => { c with serverEphPubkey := f c.serverEphPubkey } : Prog Client Unit)

section Parses

variable {R : Client → Client → Prop} [Std.Refl R] [IsTrans Client R]

theorem Parses.serverHello (hR : Parses R) : PopsHeader R processServerHello := by
  refine ⟨_, rfl, fun header => ?_⟩
  cases header with
  | none => exact Moves.ret _
  | some header =>
    refine Moves.seq Moves.read fun c => ?_
    cases c.stream.peek header.size with
    | none => exact Moves.ret _
    | some _ =>
      refine Moves.seq (ofExcept_moves _) fun hello => ?_
      cases hello with
      | none => exact Moves.ret _
      | some hello =>
        refine Moves.seq (hR.stream (pop_reads _)) fun bytes => ?_
        cases bytes with
        | none => exact Moves.raise _
        | some bytes =>
          refine Moves.seq (hR.hash _) fun _ => ?_
          exact Moves.seq (hR.serverRandom _) fun _ => Moves.ret _

theorem Parses.serverKeyExchange (hR : Parses R) : PopsHeader R processServerKeyExchange := by
  refine ⟨_, rfl, fun header => ?_⟩
  cases header with
  | none => exact Moves.ret _
  | some header =>
    refine Moves.seq Moves.read fun c => ?_
    refine Moves.seq (ofExcept_moves _) fun parsed => ?_
    cases parsed with
    | none => exact Moves.ret _
    | some parsed =>
      refine Moves.seq (hR.serverEphPubkey fun old => parsed.1 ++ old.drop parsed.1.length)
        fun _ => ?_
      refine Moves.seq (hR.stream (commit_reads _)) fun bytes => ?_
      exact Moves.seq (hR.hash _) fun _ => Moves.ret _

theorem Parses.serverHelloDone (hR : Parses R) : PopsHeader R processServerHelloDone := by
  refine ⟨_, rfl, fun header => ?_⟩
  cases header with
  | none => exact Moves.ret _
  | some header =>
    refine Moves.seq Moves.read fun c => ?_
    refine Moves.seq (ofExcept_moves _) fun read => ?_
    cases read with
    | none => exact Moves.ret _
    | some read =>
      refine Moves.seq (hR.stream (commit_reads _)) fun bytes => ?_
      exact Moves.seq (hR.hash _) fun _ => Moves.ret _

theorem Parses.serverFinished (hR : Parses R) : Moves R processServerFinished := by
  refine Moves.seq Moves.read fun c => ?_
  refine Moves.seq (ofExcept_moves _) fun read => ?_
  cases read with
  | none => exact Moves.ret _
  | some read => exact Moves.seq (hR.stream (commit_reads _)) fun _ => Moves.ret _

/-- A relation that allows what the handshake does with the messages of the server. -/
structure Handles (R : Client → Client → Prop) : Prop extends Parses R where
  random (ossl : OpenSsl) : Moves R (generateClientRandom ossl)
  state (s : HandshakeState) : Moves R (setHandshakeState s)
  explicitIv (iv : List UInt8) :
    Moves R (modify fun c => { c with ivExplicitIv := iv } : Prog Client Unit)

/-- A relation that allows all that the client does apart from encrypting, decrypting, deriving keys
and filling its send buffer. -/
structure Ordinary (R : Client → Client → Prop) : Prop extends Handles R where
  tcp {α : Type} (x : Prog Tcp.Client α) : Moves R (onTcp x)

/-- What a relation allows, a weaker one does. -/
theorem Ordinary.mono {R S : Client → Client → Prop} (h : Ordinary R)
    (hRS : ∀ c c', R c c' → S c c') : Ordinary S where
  stream hx := (h.stream hx).mono hRS
  hash bytes := (h.hash bytes).mono hRS
  serverRandom random := (h.serverRandom random).mono hRS
  serverEphPubkey f := (h.serverEphPubkey f).mono hRS
  tcp x := (h.tcp x).mono hRS
  random ossl := (h.random ossl).mono hRS
  state s := (h.state s).mono hRS
  explicitIv iv := (h.explicitIv iv).mono hRS

theorem Ordinary.sendClientHello (hR : Ordinary R) (env : Env) :
    Moves R (sendClientHello env) := by
  refine Moves.seq (hR.tcp _) fun packet => ?_
  refine Moves.seq (hR.random _) fun _ => ?_
  refine Moves.seq (ofExcept_moves _) fun ws => ?_
  refine Moves.seq Moves.read fun c => ?_
  refine Moves.seq (ofExcept_moves _) fun ws => ?_
  refine Moves.seq (ofExcept_moves _) fun ws => ?_
  refine Moves.seq (ofExcept_moves _) fun ws => ?_
  generalize clientHelloBytes kDefaultExtensions.reverse c.clientRandom c.sniHostname = hello
  exact Moves.seq (hR.hash _) fun _ => hR.tcp _

theorem Handles.serverCertificate (hR : Handles R) : Moves R processServerCertificate := by
  refine Moves.seq (hR.stream (popObject_reads _)) fun header => ?_
  cases header with
  | none => exact Moves.ret _
  | some header =>
    refine Moves.seq Moves.read fun c => ?_
    cases c.stream.peekObject HandshakeHeader with
    | none => exact Moves.ret _
    | some handshakeHeader =>
      refine Moves.seq (require_moves _ _) fun _ => ?_
      refine Moves.seq (hR.stream (pop_reads _)) fun payload => ?_
      cases payload with
      | none => exact Moves.raise _
      | some payload =>
        refine Moves.seq (hR.hash _) fun _ => ?_
        exact hR.state _

/-- The handshake steps, apart from the one that sends the client's flight. -/
theorem Handles.processHandshake (hR : Handles R) (env : Env) {c : Client}
    (hflight : c.handshakeState = .ServerHelloDone → ∀ d, processServerHelloDone c = .ok true d →
      R d (after ((sendClientKeyExchangeAndFinished env >>= fun _ =>
        setHandshakeState .ClientFinished) d))) :
    R c (after (processHandshake env c)) := by
  rw [Client.processHandshake, bind_of_ok (get_apply c)]
  cases hstate : c.handshakeState with
  | ServerHello =>
    refine Moves.seq (hR.serverHello.moves hR.stream) (fun done => ?_) c
    exact Moves.seq (require_moves _ _) fun _ => hR.state _
  | ServerCertificate => exact hR.serverCertificate c
  | ServerKeyExchange =>
    refine Moves.seq (hR.serverKeyExchange.moves hR.stream) (fun done => ?_) c
    cases done
    · exact Moves.ret _
    · exact hR.state _
  | ServerHelloDone =>
    have hmoves := hR.serverHelloDone.moves hR.stream c
    dsimp only
    rw [bind_apply]
    cases hdone : processServerHelloDone c with
    | error e d => rw [hdone] at hmoves; exact hmoves
    | ok done d =>
      rw [hdone] at hmoves
      cases done
      · exact hmoves
      · exact IsTrans.trans _ _ _ hmoves (hflight hstate d hdone)
  | ClientFinished =>
    refine Moves.seq hR.serverFinished (fun done => ?_) c
    cases done
    · exact Moves.ret _
    · exact hR.state _
  | ClientHelloToSend => exact Std.Refl.refl c
  | ClientKeyExchange => exact Std.Refl.refl c
  | ServerFinished => exact Std.Refl.refl c

theorem Handles.receiveRecord (hR : Handles R) {ossl : OpenSsl}
    (hdecrypt : ∀ bytes, Moves R (decrypt ossl bytes)) (header : RecordHeader) :
    Moves R (receiveRecord ossl header) := by
  refine Moves.seq (hR.stream (popObject_reads _)) fun popped => ?_
  refine Moves.seq (require_moves _ _) fun _ => ?_
  refine Moves.seq (require_moves _ _) fun _ => ?_
  refine Moves.seq (hR.stream (pop_reads _)) fun explicitIv => ?_
  cases explicitIv with
  | none => exact Moves.ret _
  | some explicitIv =>
    refine Moves.seq (hR.explicitIv _) fun _ => ?_
    refine Moves.seq (hR.stream (pop_reads _)) fun ciphertext => ?_
    cases ciphertext with
    | none => exact Moves.ret _
    | some ciphertext => exact Moves.seq (hdecrypt ciphertext) fun _ => Moves.ret _

/-- A relation that allows what is done in order to send encrypted records, too. -/
structure Encrypts (R : Client → Client → Prop) : Prop extends Ordinary R where
  context {c : Client} {ctx ctx' : EncryptContext} (hctx : c.encCtx = some ctx)
    (hkey : ctx'.key = ctx.key) : R c { c with encCtx := some ctx' }
  number (c : Client) : R c { c with writeSequenceNumber := c.writeSequenceNumber + 1 }
  deriveKeys (ossl : OpenSsl) (sharedSecret : Vector UInt8 32) :
    Moves R (deriveKeys ossl sharedSecret)
  draw : Moves R (modify fun c => { c with drawn := c.drawn + 1 } : Prog Client Unit)
  keyExchange : Moves R (modify fun c => { c with keyExchanges := c.keyExchanges + 1 } :
    Prog Client Unit)
  pop (n : Nat) : Moves R (onSendBuffer (Stream.pop n))

theorem Encrypts.encrypt (hR : Encrypts R) (fails : Option EvpCall) (ossl : OpenSsl)
    (view : List UInt8) (contentType : ContentType) : Moves R (encrypt fails ossl view contentType) :=
  encrypt_moves (fun _ _ _ => hR.context) hR.number _ _ _ _

theorem Encrypts.sendClientKeyExchangeAndFinished (hR : Encrypts R) (env : Env) :
    Moves R (sendClientKeyExchangeAndFinished env) := by
  refine Moves.seq hR.keyExchange fun _ => ?_
  refine Moves.seq (hR.tcp _) fun packet => ?_
  refine Moves.seq (ofExcept_moves _) fun ws => ?_
  refine Moves.seq Moves.read fun c => ?_
  refine Moves.seq hR.draw fun _ => ?_
  cases env.ossl.generateX25519Key c.drawn with
  | none => exact Moves.raise _
  | some clientEphKey =>
    dsimp only
    cases env.ossl.derive clientEphKey (c.serverEphPubkey.take 32) with
    | none => exact Moves.raise _
    | some sharedSecret =>
      refine Moves.seq (hR.hash _) fun _ => ?_
      refine Moves.seq (hR.deriveKeys _ _) fun _ => ?_
      refine Moves.seq Moves.read fun c => ?_
      refine Moves.seq (ofExcept_moves _) fun ws => ?_
      refine Moves.seq (ofExcept_moves _) fun ws => ?_
      refine Moves.seq (hR.encrypt _ _ _ _) fun encrypted => ?_
      exact Moves.seq (ofExcept_moves _) fun _ => hR.tcp _

theorem Encrypts.flushWith (hR : Encrypts R) (fails : Option EvpCall) (env : Env) :
    Moves R (flushWith fails env) := by
  refine Moves.seq (hR.tcp _) fun packet => ?_
  refine Moves.seq (ofExcept_moves _) fun ws => ?_
  refine Moves.seq Moves.read fun c => ?_
  refine Moves.seq (hR.pop _) fun toSend => ?_
  refine Moves.seq (require_moves _ _) fun _ => ?_
  refine Moves.seq (ofExcept_moves _) fun _ => ?_
  exact Moves.seq (hR.encrypt _ _ _ _) fun _ => hR.tcp _

end Parses

theorem quiet_parses : Parses Quiet where
  stream := quiet_onStream
  hash := quiet_hashUpdate
  serverRandom _ := Moves.update fun _ => .of_sameCore ⟨rfl, rfl, rfl, rfl, rfl, rfl⟩
  serverEphPubkey _ := Moves.update fun _ => .of_sameCore ⟨rfl, rfl, rfl, rfl, rfl, rfl⟩

theorem processServerHello_popsHeader : PopsHeader Quiet processServerHello :=
  quiet_parses.serverHello

theorem processServerKeyExchange_popsHeader : PopsHeader Quiet processServerKeyExchange :=
  quiet_parses.serverKeyExchange

theorem processServerHelloDone_popsHeader : PopsHeader Quiet processServerHelloDone :=
  quiet_parses.serverHelloDone

theorem processServerFinished_quiet : Moves Quiet processServerFinished :=
  quiet_parses.serverFinished

/-- A quiet call does updates. -/
theorem updates_of_quiet {α : Type} {x : Prog Client α} (h : Moves Quiet x) : Moves Updates x :=
  fun c => (h c).updates

theorem setHandshakeState_updates {s : HandshakeState} (h : ¬ s.Keyed) :
    Moves Updates (setHandshakeState s) :=
  Moves.update fun c => .single (.early c s h)

theorem PopsHeader.updates {α : Type} {x : Prog Client α} (h : PopsHeader Updates x) :
    Moves Updates x :=
  h.moves fun hy => updates_of_quiet (quiet_onStream hy)

theorem processServerCertificate_popsHeader : PopsHeader Updates processServerCertificate := by
  refine ⟨_, rfl, fun header => ?_⟩
  cases header with
  | none => exact Moves.ret _
  | some header =>
    refine Moves.seq Moves.read fun c => ?_
    cases c.stream.peekObject HandshakeHeader with
    | none => exact Moves.ret _
    | some handshakeHeader =>
      refine Moves.seq (updates_of_quiet (quiet_require _ _)) fun _ => ?_
      refine Moves.seq (updates_of_quiet (onStream_pop_quiet _)) fun payload => ?_
      cases payload with
      | none => exact Moves.raise _
      | some payload =>
        refine Moves.seq (updates_of_quiet (quiet_hashUpdate _)) fun _ => ?_
        exact setHandshakeState_updates (by simp [HandshakeState.Keyed])

/-- The keys are installed when the handshake enters the state in which they are used. -/
theorem clientFinished_updates (env : Env) : Moves Updates
    (sendClientKeyExchangeAndFinished env >>= fun _ => setHandshakeState .ClientFinished) := by
  refine Moves.of_ends fun c =>
    Ends.seq ((sendClientKeyExchangeAndFinished_reached env c).mono (fun _ _ h => h) ?_) ?_
  · exact fun _ t h => h.1
  · rintro _ t ⟨hr, hdec⟩
    exact hr.1.tail (.clientFinished t hdec)

theorem processHandshake_updates (env : Env) : Moves Updates (processHandshake env) := by
  refine Moves.of_ends fun c => Ends.read ?_
  cases hstate : c.handshakeState with
  | ServerHello =>
    refine Moves.ends (Moves.seq (updates_of_quiet processServerHello_popsHeader.quiet) fun done => ?_) c
    refine Moves.seq (updates_of_quiet (quiet_require _ _)) fun _ => ?_
    exact setHandshakeState_updates (by simp [HandshakeState.Keyed])
  | ServerCertificate => exact processServerCertificate_popsHeader.updates.ends c
  | ServerKeyExchange =>
    refine Moves.ends (Moves.seq (updates_of_quiet processServerKeyExchange_popsHeader.quiet) fun done => ?_) c
    cases done
    · exact Moves.ret _
    · exact setHandshakeState_updates (by simp [HandshakeState.Keyed])
  | ServerHelloDone =>
    refine Moves.ends (Moves.seq (updates_of_quiet processServerHelloDone_popsHeader.quiet)
      fun done => ?_) c
    cases done
    · exact Moves.ret _
    · exact clientFinished_updates env
  | ClientFinished =>
    refine Ends.seq ((processServerFinished_quiet.ends c).mono (fun _ _ h => h) ?_) fun done t h => ?_
    · exact fun _ t h => h.updates
    · cases done
      · exact h.updates
      · exact h.updates.tail (.serverFinished t (h.state.trans hstate))
  | ClientHelloToSend => exact .refl
  | ClientKeyExchange => exact .refl
  | ServerFinished => exact .refl

theorem receiveRecord_quiet (ossl : OpenSsl) (header : RecordHeader) :
    Moves Quiet (receiveRecord ossl header) := by
  refine Moves.seq (onStream_popObject_quiet _) fun popped => ?_
  refine Moves.seq (quiet_require _ _) fun _ => ?_
  refine Moves.seq (quiet_require _ _) fun _ => ?_
  refine Moves.seq (onStream_pop_quiet _) fun explicitIv => ?_
  cases explicitIv with
  | none => exact Moves.ret _
  | some explicitIv =>
    refine Moves.seq (Moves.update fun _ => .of_sameCore ⟨rfl, rfl, rfl, rfl, rfl, rfl⟩) fun _ => ?_
    refine Moves.seq (onStream_pop_quiet _) fun ciphertext => ?_
    cases ciphertext with
    | none => exact Moves.ret _
    | some ciphertext => exact Moves.seq (quiet_decrypt ossl ciphertext) fun _ => Moves.ret _

theorem receiveOnce_updates (env : Env) : Moves Updates (receiveOnce env) := by
  refine Moves.seq Moves.read fun c => ?_
  by_cases hhello : (c.handshakeState == .ClientHelloToSend && c.stream.empty) = true
  · rw [if_pos hhello]
    have hsend : Moves Updates (sendClientHello env) := Moves.of_ends fun t =>
      (sendClientHello_reached env t).mono (fun _ _ h => h.1) (fun _ _ h => h.1)
    refine Moves.seq hsend fun _ => ?_
    exact Moves.seq (setHandshakeState_updates (by simp [HandshakeState.Keyed])) fun _ => Moves.ret _
  · rw [if_neg hhello]
    cases c.stream.peekObject RecordHeader with
    | none => exact Moves.ret _
    | some header =>
      refine Moves.seq (updates_of_quiet (quiet_require _ _)) fun _ => ?_
      cases c.stream.peek (RecordHeader.sizeof + header.size) with
      | none => exact Moves.ret _
      | some _ =>
        dsimp only
        split
        · refine Moves.seq (processHandshake_updates env) fun _ => ?_
          refine Moves.seq Moves.read fun c => ?_
          split
          · exact Moves.ret _
          · exact Moves.ret _
        · exact Moves.seq (updates_of_quiet (receiveRecord_quiet _ _)) fun _ => Moves.ret _

/-- What one call of `receive` moves along a preorder, the recursion does. -/
theorem receiveFuel_moves {env : Env} {R : Client → Client → Prop} [Std.Refl R] [IsTrans Client R]
    (h : Moves R (receiveOnce env)) {fuel : Nat} {c : Client}
    {r : EStateM.Result Error Client (Option (List UInt8))}
    (hr : receiveFuel env fuel c = some r) : R c (after r) := by
  induction fuel generalizing c with
  | zero => cases hr
  | succ fuel ih =>
    have hc := h c
    rw [receiveFuel] at hr
    cases honce : receiveOnce env c with
    | error e t =>
      rw [honce] at hr hc
      cases hr
      exact hc
    | ok next t =>
      rw [honce] at hr hc
      cases next with
      | done plaintext => cases hr; exact hc
      | again => exact IsTrans.trans _ _ _ hc (ih hr)

theorem receive_moves {env : Env} {R : Client → Client → Prop} [Std.Refl R] [IsTrans Client R]
    (h : Moves R (receiveOnce env)) : Moves R (receive env) := by
  intro c
  unfold receive
  cases hr : receiveFuel env (c.stream.size + 1) c with
  | none => exact Std.Refl.refl c
  | some r => exact receiveFuel_moves h hr

/-- **One call of `receive`** is a sequence of updates. -/
theorem receive_updates (env : Env) : Moves Updates (receive env) :=
  receive_moves (receiveOnce_updates env)

theorem flushWith_updates (fails : Option EvpCall) (env : Env) :
    Moves Updates (flushWith fails env) := Moves.of_ends fun c =>
  (flushWith_reached fails env c).mono (fun _ _ h => h.1) (fun _ _ h => h.1)

/-- A packet leaves the handshake where it is. -/
theorem processPacket_state (env : Env) (p : Tcp.PacketView) :
    Moves (fun c c' => c'.handshakeState = c.handshakeState) (processPacket env p) := by
  have : IsTrans Client fun c c' => c'.handshakeState = c.handshakeState :=
    ⟨fun _ _ _ h h' => h'.trans h⟩
  refine Moves.seq (Moves.member (S := fun _ _ => True) (fun _ => trivial) fun _ _ _ => rfl)
    fun _ => ?_
  refine Moves.seq (Moves.update fun _ => rfl) fun _ => ?_
  exact Moves.member (S := fun _ _ => True) (fun _ => trivial) fun _ _ _ => rfl

/-! ## What updates keep -/

section Kept

variable {c c' : Client}

/-- Updates move the TCP client along `Sends`. -/
theorem Updates.sends (h : Updates c c') : Tcp.Client.Sends c.tcp c'.tcp := by
  refine h.invariant (I := fun t => Tcp.Client.Sends c.tcp t.tcp) ?_ .refl
  intro t t' hstep ht
  cases hstep with
  | sends u hs => exact ht.trans hs
  | scratch _ hcore => exact hcore.tcp.symm ▸ ht
  | _ => exact ht

/-- Updates only take bytes from the front of the stream. -/
theorem Updates.suffix (h : Updates c c') : c'.stream.content <:+ c.stream.content := by
  refine h.invariant (I := fun t => t.stream.content <:+ c.stream.content) ?_ List.suffix_rfl
  intro t t' hstep ht
  cases hstep with
  | reads n hn =>
    change (t.stream.advance n hn).content <:+ c.stream.content
    rw [Stream.content_advance]
    exact (List.drop_suffix n _).trans ht
  | scratch _ hcore => exact hcore.stream.symm ▸ ht
  | _ => exact ht

end Kept

/-! ## Sample parties -/

/-- An OpenSSL with constant answers. -/
def sampleOssl : OpenSsl where
  randBytes _ := some (.replicate 32 0)
  generateX25519Key _ := some (.replicate 32 0)
  rawPublicKey _ := .replicate 32 0
  derive _ _ := some (.replicate 32 0)
  sha256 _ := .replicate 32 0
  prf _ _ _ n := .replicate n 0
  gcmKeystream _ _ _ := 0
  gcmTag _ _ _ _ := .replicate 16 0

def sampleEnv : Env := ⟨sampleDpdk, sampleOssl⟩

end Client

end WsGateway.Network.Tls12
