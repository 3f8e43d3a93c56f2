import WsGateway.Verify.Tls12.Sending

/-!
# Application data from one client to another

What one client flushes, a client with the same keys the other way round gets
back from `receive`: counter mode undoes itself, and the sizes of the record, of
the nonce and of the tag agree on both sides. Only the empty message is lost, as
`decrypt` asks for more than a tag while `encrypt` is content with nothing.
-/

namespace WsGateway.Network.Tls12

open Library

namespace Client

/-! ## Sealing and opening -/

section Cipher

variable (ossl : OpenSsl) (key : AES128Key) (nonce aad plaintext : List UInt8)

/-- Counter mode undoes itself, and the tag is cut off. -/
theorem gcmPlaintext_gcmSeal :
    gcmPlaintext ossl key nonce (gcmSeal ossl key nonce aad plaintext) = plaintext := by
  rw [gcmPlaintext, length_gcmSeal, Nat.add_sub_cancel]
  apply List.ext_getElem
  · simp [length_gcmSeal]
  · intro i hi hi'
    have hct : i < (plaintext.mapIdx fun i b => b ^^^ ossl.gcmKeystream key nonce i).length := by
      rwa [List.length_mapIdx]
    simp only [gcmSeal, List.getElem_take, List.getElem_mapIdx, List.getElem_append_left hct]
    rw [UInt8.xor_assoc, UInt8.xor_self, UInt8.xor_zero]

end Cipher

/-! ## The round trip -/

section RoundTrip

variable {env : Env} {a a' b : Client}

/-- The client `a`, with the send buffer `p`, has sent one record of the right sizes and emptied its
send buffer, and the client `b` gets `p` back from it and takes just the record. -/
def RoundTrip (env : Env) (a a' b : Client) (p : List UInt8) : Prop :=
  ∃ body, Sent env a.tcp (recordBytes .ApplicationData body) a'.tcp ∧
    (recordBytes .ApplicationData body).length = 5 + 8 + p.length + 16 ∧
    (headerOf (recordBytes .ApplicationData body)).size = 8 + p.length + 16 ∧
    a'.sendBuffer.content = [] ∧
    ∀ s t, s.content = recordBytes .ApplicationData body ++ t →
      s.capacity = b.stream.capacity →
      ∃ b', receive env { b with stream := s } = .ok (some p) b' ∧ b'.stream.content = t

/-- A client keeps its keys when its stream is filled. -/
theorem Keyed.withStream {c : Client} (h : Keyed c) {s : Stream}
    (hcap : s.capacity = c.stream.capacity) : Keyed { c with stream := s } :=
  ⟨h.installed, h.key, hcap.trans h.capacity⟩

theorem explicitIvOf_recordBytes {s : Stream} {contentType : ContentType} {iv ct t : List UInt8}
    (hiv : iv.length = kExplicitIvSize)
    (hs : s.content = recordBytes contentType (iv ++ ct) ++ t) : explicitIvOf s = iv := by
  have hdrop : s.content.drop 5 = iv ++ ct ++ t := by
    rw [hs, recordBytes, List.append_assoc, List.drop_left' (by simp [RecordHeader.bytes])]
  rw [explicitIvOf, hdrop, List.append_assoc, List.take_left' hiv]

theorem ciphertextOf_recordBytes {s : Stream} {contentType : ContentType} {iv ct t : List UInt8}
    (hiv : iv.length = kExplicitIvSize) (hlt : (iv ++ ct).length < 2 ^ 16)
    (hs : s.content = recordBytes contentType (iv ++ ct) ++ t) : ciphertextOf s = ct := by
  have hdrop : s.content.drop 13 = ct ++ t := by
    have hlen : (RecordHeader.bytes ⟨contentType, kTls12, (iv ++ ct).length⟩ ++ iv).length = 13 := by
      rw [List.length_append, hiv]
      simp [RecordHeader.bytes, kExplicitIvSize]
    rw [hs, recordBytes, ← List.append_assoc, List.append_assoc, List.drop_left' hlen]
  have hsize : (firstRecord s).size = kExplicitIvSize + ct.length := by
    rw [firstRecord_recordBytes hlt hs]
    simp [hiv]
  rw [ciphertextOf, hsize, hdrop, Nat.add_sub_cancel_left, List.take_left]

/-- A record that holds nothing but a nonce and a tag is refused. -/
theorem not_roundTrip_nil (hb : Keyed b) (hbstate : b.handshakeState = .ServerFinished) :
    ¬ RoundTrip env a a' b [] := by
  rintro ⟨body, -, hlen, -, -, hreceive⟩
  have hbody : body.length = 24 := by
    rw [length_recordBytes] at hlen
    unfold RecordHeader.sizeof at hlen
    simp at hlen
    omega
  have hsize : (Stream.new 20600).availableSuffixBytes = 20600 := rfl
  obtain ⟨hgt, -⟩ | ⟨s, -, hcontent, hcap⟩ := (Stream.new 20600).pushBytes_cases
    (.ofList (recordBytes .ApplicationData body))
  · rw [hsize, ByteView.size_ofList, length_recordBytes, hbody] at hgt
    exact absurd hgt (by decide)
  · have hs : s.content = recordBytes .ApplicationData body ++ [] := by
      rw [hcontent, Stream.content_new, ByteView.toList_ofList, List.nil_append, List.append_nil]
    have hscap : s.capacity = b.stream.capacity := hcap.trans hb.capacity.symm
    have hfirst := firstRecord_recordBytes (by omega) hs
    obtain ⟨b', hreceived, -⟩ := hreceive s [] hs hscap
    refine receive_short (c := { b with stream := s }) (hb.withStream hscap) hbstate
      (holdsRecord_recordBytes (by omega) hs) ?_ ?_ hreceived
    · rw [hfirst]
    · rw [hfirst]
      exact Nat.le_of_eq hbody

/-- **Round trip of application data**: let `a` and `b` be after their handshakes, with the keys of
`a` for sending those of `b` for reading. What a `flush` of `a` that returns sends is received by
`b` as the bytes of the send buffer, with sizes as they should be, exactly if there are any. -/
theorem roundTrip_iff (env : Env) (a a' b : Client) (ha : Reachable env a) (hb : Reachable env b)
    (hbstate : b.handshakeState = .ServerFinished)
    (hkey : a.keys.clientWriteKey = b.keys.serverWriteKey)
    (hiv : a.keys.clientWriteIv = b.keys.serverWriteIv) (hflush : flush env a = .ok () a') :
    RoundTrip env a a' b a.sendBuffer.content ↔ a.sendBuffer.content ≠ [] := by
  obtain ⟨hakey, hacap⟩ := ha.sending
  have hbkey := hb.keyed
  constructor
  · intro htrip hnil
    rw [hnil] at htrip
    exact not_roundTrip_nil hbkey hbstate htrip
  · intro hne
    obtain ⟨hsent, hempty⟩ := flush_eq_ok hakey hflush
    have hbody := length_sealedBody env.ossl a a.sendBuffer.content
    have hpos : 0 < a.sendBuffer.content.length := List.length_pos_iff.mpr hne
    have hle := a.sendBuffer.size_le_capacity
    rw [hacap, ← Stream.length_content] at hle
    have hlt : (sealedBody env.ossl a a.sendBuffer.content).length < 2 ^ 16 := by omega
    refine ⟨_, hsent, ?_, ?_, hempty, fun s t hs hscap => ?_⟩
    · rw [length_recordBytes, hbody]
      unfold RecordHeader.sizeof
      omega
    · have hheader := @headerOf_recordBytes .ApplicationData _ [] hlt
      rw [List.append_nil] at hheader
      rw [hheader, hbody]
    · have hfirst := firstRecord_recordBytes hlt hs
      obtain ⟨ctx, s', -, hcontent, -, hreceive⟩ := @receive_long env { b with stream := s }
        (hbkey.withStream hscap) hbstate (holdsRecord_recordBytes hlt hs) (by rw [hfirst])
        (by rw [hfirst]; show 24 < List.length _; omega)
      have hexplicit : explicitIvOf s = beBytes 8 a.writeSequenceNumber.toNat :=
        explicitIvOf_recordBytes (length_beBytes 8 _) hs
      have hct := ciphertextOf_recordBytes (length_beBytes 8 _) hlt hs
      dsimp only at hreceive
      rw [hexplicit, hct, ← hkey, ← hiv, ← nextNonce, gcmPlaintext_gcmSeal] at hreceive
      exact ⟨_, hreceive, hcontent.trans (afterRecord_recordBytes hlt hs)⟩

end RoundTrip

/-! ### A short message and an empty one -/

/-- The client after its handshake with these bytes in its send buffer. -/
def loadedClient (bytes : List UInt8) : Client := after (pushString bytes handshakenClient)

theorem loadedClient_reachable (bytes : List UInt8) : Reachable sampleEnv (loadedClient bytes) :=
  .pushString bytes handshakenClient_reachable

theorem loadedClient_handshakeState (bytes : List UInt8) :
    (loadedClient bytes).handshakeState = handshakenClient.handshakeState := by
  rw [loadedClient, pushString, onSendBuffer, after_zoom]

theorem loadedClient_keys (bytes : List UInt8) :
    (loadedClient bytes).keys = handshakenClient.keys := by
  rw [loadedClient, pushString, onSendBuffer, after_zoom]

theorem loadedClient_roundTrip :
    RoundTrip sampleEnv (loadedClient [7, 8, 9]) (after (flush sampleEnv (loadedClient [7, 8, 9])))
      handshakenClient [7, 8, 9] := by
  have hsent : (loadedClient [7, 8, 9]).sendBuffer.content = [7, 8, 9] ∧
      threw (flush sampleEnv (loadedClient [7, 8, 9])) = false := by decide +kernel
  obtain ⟨hstate, -, hkey, hiv⟩ := handshakenClient_finished
  have htrip := (roundTrip_iff sampleEnv (loadedClient [7, 8, 9]) _ handshakenClient
    (loadedClient_reachable _) handshakenClient_reachable hstate
    (by rw [loadedClient_keys]; exact hkey) (by rw [loadedClient_keys]; exact hiv)
    (eq_ok_of_not_threw hsent.2)).mpr (by rw [hsent.1]; decide)
  rwa [hsent.1] at htrip

/-- An empty message is sent in a record that the other side refuses. -/
theorem empty_message_refused :
    Reachable sampleEnv (loadedClient []) ∧ Reachable sampleEnv handshakenClient ∧
      (loadedClient []).handshakeState = .ServerFinished ∧
      handshakenClient.handshakeState = .ServerFinished ∧
      (loadedClient []).keys.clientWriteKey = handshakenClient.keys.serverWriteKey ∧
      (loadedClient []).keys.clientWriteIv = handshakenClient.keys.serverWriteIv ∧
      flush sampleEnv (loadedClient []) = .ok () (after (flush sampleEnv (loadedClient []))) ∧
      threw (receive sampleEnv { handshakenClient with
        stream := sampleStream
          (recordBytes .ApplicationData (sealedBody sampleOssl (loadedClient []) [])) }) = true ∧
      ¬ RoundTrip sampleEnv (loadedClient []) (after (flush sampleEnv (loadedClient [])))
        handshakenClient [] := by
  obtain ⟨hstate, -, hkey, hiv⟩ := handshakenClient_finished
  have hcalls : threw (flush sampleEnv (loadedClient [])) = false ∧
      threw (receive sampleEnv { handshakenClient with
        stream := sampleStream
          (recordBytes .ApplicationData (sealedBody sampleOssl (loadedClient []) [])) }) = true := by
    decide +kernel
  refine ⟨loadedClient_reachable [], handshakenClient_reachable,
    (loadedClient_handshakeState []).trans hstate, hstate, ?_, ?_,
    eq_ok_of_not_threw hcalls.1, hcalls.2, ?_⟩
  · rw [loadedClient_keys]
    exact hkey
  · rw [loadedClient_keys]
    exact hiv
  · exact not_roundTrip_nil handshakenClient_reachable.keyed hstate

end Client

end WsGateway.Network.Tls12
