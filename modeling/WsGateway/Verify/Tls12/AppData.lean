import WsGateway.Verify.Tls12.Keys

/-!
# Application records, one at a time

After the handshake `receive` pops the header, the explicit nonce and the
ciphertext one after the other, with the ciphertext's length computed by an
unsigned subtraction. A record that is shorter than the nonce takes the nonce
from the bytes behind it, or leaves its own bytes in the stream.
-/

namespace WsGateway.Network.Tls12

open Library

namespace Client

/-! ## Alignment -/

/-- The call does the same if the stream holds nothing but the first record. -/
def ReadsOnly (env : Env) (c : Client) (plaintext : Option (List UInt8)) (c' : Client) : Prop :=
  ∀ s, s.content = c.stream.content.take (RecordHeader.sizeof + (firstRecord c.stream).size) →
    s.capacity < 2 ^ 63 →
    ∃ s', receive env { c with stream := s } = .ok plaintext { c' with stream := s' }

/-- A call of `receive` that returns has waited for a record, or has taken just the first one. -/
def Aligned (env : Env) (c : Client) : Prop :=
  ∀ plaintext c', receive env c = .ok plaintext c' →
    (¬ HoldsRecord c.stream ∧ plaintext = none ∧ c' = c) ∨
      (HoldsRecord c.stream ∧ c'.stream.content = afterRecord c.stream ∧
        ReadsOnly env c plaintext c')

section Aligned

variable {env : Env} {ossl : OpenSsl} {c c' : Client} {s : Stream}

/-- Decrypting does not touch the stream. -/
theorem decrypt_frame {bytes plaintext : List UInt8} (h : decrypt ossl bytes c = .ok plaintext c')
    (s : Stream) : c'.stream = c.stream ∧
      decrypt ossl bytes { c with stream := s } = .ok plaintext { c' with stream := s } := by
  rw [decrypt, require_bind] at h ⊢
  split at h
  · rw [bind_of_ok (get_apply _)] at h ⊢
    rw [if_pos ‹_›]
    cases hctx : c.decCtx with
    | none =>
      rw [hctx] at h
      cases h
    | some ctx =>
      rw [hctx] at h
      cases h
      exact ⟨rfl, rfl⟩
  · cases h

/-- A record of another type is refused. -/
theorem receiveRecord_foreign (hrec : HoldsRecord c.stream)
    (htype : (firstRecord c.stream).contentType ≠ .ApplicationData) :
    threw (receiveRecord ossl (firstRecord c.stream) c) = true := by
  rw [receiveRecord, bind_of_ok (onStream_popObject_record hrec.header), require_bind,
    if_pos (by rfl), require_bind, if_neg (by simpa using htype)]
  rfl

/-- A stream with the first record of another one. -/
theorem firstRecord_take {n : Nat} (hn : RecordHeader.sizeof ≤ n)
    (hs : s.content = c.stream.content.take n) : firstRecord s = firstRecord c.stream := by
  rw [firstRecord, firstRecord, headerOf, headerOf, hs, List.take_take, Nat.min_eq_left hn]

theorem holdsRecord_take (hrec : HoldsRecord c.stream)
    (hs : s.content = c.stream.content.take (RecordHeader.sizeof + (firstRecord c.stream).size)) :
    HoldsRecord s ∧ s.size = RecordHeader.sizeof + (firstRecord c.stream).size := by
  have hfirst := firstRecord_take (Nat.le_add_right _ _) hs
  have hsize : s.size = RecordHeader.sizeof + (firstRecord c.stream).size := by
    rw [← Stream.length_content, hs, List.length_take, Stream.length_content]
    exact Nat.min_eq_left hrec.complete
  refine ⟨⟨by omega, ?_, ?_⟩, hsize⟩
  · rw [hfirst]
    exact hrec.version
  · rw [hfirst, hsize]

/-- A record with an explicit nonce is taken as it stands. -/
theorem aligned_of_long (hrec : HoldsRecord c.stream)
    (hstate : c.handshakeState = .ServerFinished) (hcap : c.stream.capacity < 2 ^ 63)
    (htype : (firstRecord c.stream).contentType = .ApplicationData)
    (hsize : kExplicitIvSize ≤ (firstRecord c.stream).size) : Aligned env c := by
  intro plaintext c' h
  obtain ⟨s, hcontent, -, hreceive⟩ := @receiveRecord_long c env.ossl hrec htype hsize hcap
  rw [receive_finished hrec hstate, hreceive] at h
  obtain ⟨p, c₁, hdecrypt, hret⟩ := bind_eq_ok h
  cases hret
  refine Or.inr ⟨hrec, ?_, ?_⟩
  · rw [(decrypt_frame hdecrypt s).1]
    exact hcontent
  · intro s₀ hs₀ hcap₀
    obtain ⟨hrec₀, hsize₀⟩ := holdsRecord_take hrec hs₀
    have hfirst := firstRecord_take (Nat.le_add_right _ _) hs₀
    obtain ⟨s', -, -, hreceive₀⟩ := @receiveRecord_long { c with stream := s₀ } env.ossl hrec₀
      (by rw [hfirst]; exact htype) (by rw [hfirst]; exact hsize) hcap₀
    have hiv : explicitIvOf s₀ = explicitIvOf c.stream := by
      have hmin : min kExplicitIvSize (RecordHeader.sizeof + (firstRecord c.stream).size - 5) =
          kExplicitIvSize := by
        unfold RecordHeader.sizeof
        omega
      rw [explicitIvOf, explicitIvOf, hs₀, List.drop_take, List.take_take, hmin]
    have hct : ciphertextOf s₀ = ciphertextOf c.stream := by
      have hmin : min ((firstRecord c.stream).size - kExplicitIvSize)
          (RecordHeader.sizeof + (firstRecord c.stream).size - 13) =
            (firstRecord c.stream).size - kExplicitIvSize := by
        unfold RecordHeader.sizeof kExplicitIvSize
        omega
      rw [ciphertextOf, ciphertextOf, hfirst, hs₀, List.drop_take, List.take_take, hmin]
    have hpops : ({ c with stream := s₀ } : Client).afterPops s' =
        { c.afterPops s with stream := s' } := by
      simp only [afterPops, hiv]
    refine ⟨s', ?_⟩
    rw [@receive_finished env { c with stream := s₀ } hrec₀ hstate, hreceive₀, hpops, hct]
    exact bind_of_ok (decrypt_frame hdecrypt s').2

/-- What a record shorter than the nonce leaves of the stream. -/
theorem receive_tiny (hrec : HoldsRecord c.stream) (hstate : c.handshakeState = .ServerFinished)
    (hcap : c.stream.capacity < 2 ^ 63)
    (htype : (firstRecord c.stream).contentType = .ApplicationData)
    (hsize : (firstRecord c.stream).size < kExplicitIvSize) :
    (c.stream.size < 13 ∧ receive env c = .ok none (c.afterHeader hrec.header)) ∨
      (13 ≤ c.stream.size ∧ ∃ c', receive env c = .ok none c' ∧
        c'.stream.content = c.stream.content.drop 13) := by
  rw [receive_finished hrec hstate]
  exact receiveRecord_tiny hrec htype hsize hcap

/-- An empty record without the bytes of a nonce behind it is taken off. -/
theorem aligned_of_empty (hrec : HoldsRecord c.stream)
    (hstate : c.handshakeState = .ServerFinished) (hcap : c.stream.capacity < 2 ^ 63)
    (htype : (firstRecord c.stream).contentType = .ApplicationData)
    (hzero : (firstRecord c.stream).size = 0) (hlt : c.stream.size < 13) : Aligned env c := by
  have hshort : (firstRecord c.stream).size < kExplicitIvSize := by rw [hzero]; decide
  have hreceive : receive env c = .ok none (c.afterHeader hrec.header) := by
    rcases @receive_tiny env c hrec hstate hcap htype hshort with ⟨-, h⟩ | ⟨hge, -⟩
    · exact h
    · omega
  intro plaintext c' h
  rw [hreceive] at h
  cases h
  refine Or.inr ⟨hrec, ?_, ?_⟩
  · rw [afterRecord, hzero, Nat.add_zero, drop_afterHeader]
  · intro s₀ hs₀ hcap₀
    obtain ⟨hrec₀, hsize₀⟩ := holdsRecord_take hrec hs₀
    have hfirst := firstRecord_take (Nat.le_add_right _ _) hs₀
    have hsize₀ : s₀.size = 5 := by rw [hsize₀, hzero]; rfl
    rcases @receive_tiny env { c with stream := s₀ } hrec₀ hstate hcap₀ (by rw [hfirst]; exact htype)
      (by rw [hfirst]; exact hshort) with ⟨-, h⟩ | ⟨hge, -⟩
    · exact ⟨_, h⟩
    · have hge : 13 ≤ s₀.size := hge
      omega

/-- **Record framing after the handshake**: a call of `receive` that returns takes nothing or just
the first record, exactly if no complete application record is buffered that is shorter than an
explicit nonce, apart from an empty one with too few bytes behind it. -/
theorem aligned_iff (env : Env) (c : Client) (hstate : c.handshakeState = .ServerFinished)
    (hcap : c.stream.capacity < 2 ^ 63) :
    Aligned env c ↔
      (HoldsRecord c.stream → (firstRecord c.stream).contentType = .ApplicationData →
        8 ≤ (firstRecord c.stream).size ∨
          ((firstRecord c.stream).size = 0 ∧ c.stream.size < 13)) := by
  constructor
  · intro haligned hrec htype
    by_contra hno
    push Not at hno
    obtain ⟨hshort, hempty⟩ := hno
    have hcomplete := hrec.complete
    -- either way the stream is not left where the record ends
    have hleft : ∀ c', receive env c = .ok none c' →
        c'.stream.size = c.stream.size - (5 + (firstRecord c.stream).size) := by
      intro c' h
      rcases haligned none c' h with ⟨hnot, -⟩ | ⟨-, hcontent, -⟩
      · exact absurd hrec hnot
      · rw [← Stream.length_content, hcontent, length_afterRecord]
        rfl
    unfold RecordHeader.sizeof at hcomplete
    rcases @receive_tiny env c hrec hstate hcap htype hshort with ⟨hlt, h⟩ | ⟨hge, c', h, hcontent⟩
    · have hsize := hleft _ h
      rw [show (c.afterHeader hrec.header).stream.size = c.stream.size - 5 from
        c.stream.size_advance hrec.header] at hsize
      have hzero : (firstRecord c.stream).size = 0 := by omega
      exact absurd hlt (Nat.not_lt.mpr (hempty hzero))
    · have hsize := hleft c' h
      rw [← Stream.length_content, hcontent, List.length_drop, Stream.length_content] at hsize
      omega
  · intro hcond
    by_cases hrec : HoldsRecord c.stream
    · by_cases htype : (firstRecord c.stream).contentType = .ApplicationData
      · rcases hcond hrec htype with hlong | ⟨hzero, hlt⟩
        · exact aligned_of_long hrec hstate hcap htype hlong
        · exact aligned_of_empty hrec hstate hcap htype hzero hlt
      · intro plaintext c' h
        have hthrew := @receiveRecord_foreign env.ossl c hrec htype
        rw [← @receive_finished env c hrec hstate, h] at hthrew
        cases hthrew
    · intro plaintext c' h
      rcases receiveOnce_waits env (fun hhello => by simp [hstate] at hhello) hrec with
        honce | ⟨e, honce⟩
      · rw [receive_of_done honce] at h
        cases h
        exact Or.inl ⟨hrec, rfl, rfl⟩
      · rw [receive, receiveFuel, honce] at h
        cases h

end Aligned

theorem taggedClient_aligned : Aligned sampleEnv (taggedClient (List.replicate 16 0)) := by
  obtain ⟨hstate, hfirst, -, -⟩ := taggedClient_stream 0 (by decide)
  have hcap : (taggedClient (List.replicate 16 0)).stream.capacity < 2 ^ 63 := by
    rw [(taggedClient_reachable _).keyed.capacity]
    decide
  refine (aligned_iff sampleEnv _ hstate hcap).mpr fun _ _ => Or.inl ?_
  rw [hfirst]
  decide

/-- The client with a record of seven bytes in its stream. -/
def tinyRecordClient : Client :=
  after (processPacket sampleEnv
    (Tcp.Client.segment 128 ([0x17, 3, 3, 0, 7] ++ List.replicate 7 0)) handshakenClient)

/-- The header of the record is taken off, and its seven bytes stay. -/
theorem tiny_record_left :
    Reachable sampleEnv tinyRecordClient ∧ tinyRecordClient.handshakeState = .ServerFinished ∧
      HoldsRecord tinyRecordClient.stream ∧ afterRecord tinyRecordClient.stream = [] ∧
      ∃ c', receive sampleEnv tinyRecordClient = .ok none c' ∧
        c'.stream.content = List.replicate 7 0 := by
  have hreach : Reachable sampleEnv tinyRecordClient := .processPacket _ handshakenClient_reachable
  have hstream : tinyRecordClient.handshakeState = .ServerFinished ∧
      firstRecord tinyRecordClient.stream = ⟨.ApplicationData, kTls12, 7⟩ ∧
      tinyRecordClient.stream.content = [0x17, 3, 3, 0, 7] ++ List.replicate 7 0 := by
    decide +kernel
  obtain ⟨hstate, hfirst, hcontent⟩ := hstream
  have hsize : tinyRecordClient.stream.size = 12 := by
    rw [← Stream.length_content, hcontent]
    rfl
  have hrec : HoldsRecord tinyRecordClient.stream :=
    ⟨by rw [hsize]; decide, by rw [hfirst], by rw [hfirst, hsize]; decide⟩
  have hafter : afterRecord tinyRecordClient.stream = [] := by
    rw [afterRecord, hfirst, hcontent]
    rfl
  refine ⟨hreach, hstate, hrec, hafter, ?_⟩
  rcases @receive_tiny sampleEnv tinyRecordClient hrec hstate
    (by rw [hreach.keyed.capacity]; decide) (by rw [hfirst]) (by rw [hfirst]; decide) with ⟨-, h⟩ | ⟨hge, -⟩
  · refine ⟨_, h, ?_⟩
    rw [drop_afterHeader, hcontent]
    rfl
  · rw [hsize] at hge
    exact absurd hge (by decide)

end Client

end WsGateway.Network.Tls12
