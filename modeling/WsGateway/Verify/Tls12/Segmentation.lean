import WsGateway.Library.Vectors
import WsGateway.Verify.Tls12.Keys

/-!
# Application data and its segmentation

The server's application records arrive in chunks of any size up to a segment.
`feed` is what happens to the TLS client for one chunk: the payload is pushed
behind the shifted stream, and `receive` is called until it returns nothing. However
the records are cut, the plaintexts are those of the records that are complete, in
order, and what stays in the stream is a proper part of one record, so that the
next chunk always fits.
-/

namespace WsGateway.Network.Tls12

open Library

/-! ## Records -/

/-- An application record with an explicit nonce and a ciphertext that ends with the tag. -/
structure AppRecord where
  explicitIv : Vector UInt8 8
  ciphertext : List UInt8
  size_ge : 25 ≤ 8 + ciphertext.length
  size_le : 8 + ciphertext.length ≤ 2 ^ 14 + 2048

namespace AppRecord

def payload (r : AppRecord) : List UInt8 := r.explicitIv.toList ++ r.ciphertext

def bytes (r : AppRecord) : List UInt8 := recordBytes .ApplicationData r.payload

/-- What the plaintext of a record is under the server's key and nonce. -/
def plaintext (ossl : OpenSsl) (keys : Keys) (r : AppRecord) : List UInt8 :=
  Client.gcmPlaintext ossl keys.serverWriteKey (keys.serverWriteIv.toList ++ r.explicitIv.toList)
    r.ciphertext

variable {r : AppRecord}

theorem length_payload (r : AppRecord) : r.payload.length = 8 + r.ciphertext.length := by
  simp [payload]

theorem payload_lt (r : AppRecord) : r.payload.length < 2 ^ 16 := by
  have hle := r.size_le
  rw [length_payload]
  omega

theorem length_bytes_le (r : AppRecord) : r.bytes.length ≤ 18437 := by
  have hle := r.size_le
  rw [bytes, length_recordBytes, length_payload]
  unfold RecordHeader.sizeof
  omega

theorem bytes_ne_nil (r : AppRecord) : r.bytes ≠ [] := by
  intro h
  have hlen := congrArg List.length h
  rw [bytes, length_recordBytes] at hlen
  simp [RecordHeader.sizeof] at hlen

end AppRecord

section Front

variable {s : Stream} {r : AppRecord} {t : List UInt8}

theorem explicitIvOf_app (hs : s.content = r.bytes ++ t) :
    Client.explicitIvOf s = r.explicitIv.toList := by
  rw [Client.explicitIvOf, hs, AppRecord.bytes, recordBytes, List.append_assoc,
    List.drop_left' (by rfl), AppRecord.payload, List.append_assoc,
    List.take_left' (by simp; rfl)]

theorem ciphertextOf_app (hs : s.content = r.bytes ++ t) :
    Client.ciphertextOf s = r.ciphertext := by
  have hdrop : s.content.drop 13 = r.ciphertext ++ t := by
    rw [hs, AppRecord.bytes, recordBytes, AppRecord.payload, ← List.append_assoc,
      List.append_assoc, List.drop_left' (by simp [RecordHeader.bytes])]
  rw [Client.ciphertextOf, hdrop, firstRecord_recordBytes r.payload_lt hs]
  apply List.take_left'
  simp [AppRecord.length_payload, kExplicitIvSize]

end Front

/-! ## Cutting a sequence of records -/

theorem length_le_flatMap (records : List AppRecord) :
    records.length ≤ (records.flatMap AppRecord.bytes).length := by
  induction records with
  | nil => exact Nat.le_refl _
  | cons r records ih =>
    have hpos : 0 < r.bytes.length := List.length_pos_iff.mpr r.bytes_ne_nil
    rw [List.flatMap_cons, List.length_append, List.length_cons]
    omega

/-- Any beginning of a sequence of records is some of them and a proper part of the next one. -/
theorem exists_record_cut {records : List AppRecord} {y future : List UInt8}
    (h : y ++ future = records.flatMap AppRecord.bytes) :
    ∃ done left x, records = done ++ left ∧ y = done.flatMap AppRecord.bytes ++ x ∧
      x ++ future = left.flatMap AppRecord.bytes ∧
      ∀ r rest, left = r :: rest → x.length < r.bytes.length := by
  obtain ⟨_, _, x, hsplit, hy, hx, hpart⟩ := exists_cut (h.trans (List.flatMap_def ..))
  obtain ⟨done, left, rfl, rfl, rfl⟩ := List.map_eq_append_iff.mp hsplit
  refine ⟨done, left, x, rfl, hy, hx, ?_⟩
  intro r rest hleft
  exact hpart r.bytes (rest.map AppRecord.bytes) (by rw [hleft, List.map_cons])

namespace Client

/-! ## The run -/

/-- The part of `process_packet` after the TCP client. -/
def pushChunk (chunk : ByteView) : Prog Client Unit := do
  modify fun c => { c with stream := c.stream.shift }
  onStream (Stream.pushBytes chunk)

theorem processPacket_eq (env : Env) (p : Tcp.PacketView) : processPacket env p =
    onTcp (Tcp.Client.processPacket env.dpdk p) >>= fun _ => pushChunk p.payload := rfl

/-- `receive` until it returns nothing. -/
def receiveWhile (env : Env) : Nat → Prog Client (List (List UInt8))
  | 0 => throw .diverges
  | fuel + 1 => do
    let some plaintext ← receive env | return []
    let plaintexts ← receiveWhile env fuel
    return plaintext :: plaintexts

/-- What is done with a chunk. -/
def feed (env : Env) (chunk : ByteView) : Prog Client (List (List UInt8)) := do
  pushChunk chunk
  let c ← get
  receiveWhile env (c.stream.size + 1)

def feedAll (env : Env) : List ByteView → Prog Client (List (List UInt8))
  | [] => return []
  | chunk :: chunks => do
    let plaintexts ← feed env chunk
    let more ← feedAll env chunks
    return plaintexts ++ more

/-- A client that reads application data under these keys. -/
structure Finished (keys : Keys) (c : Client) : Prop where
  keyed : Keyed c
  state : c.handshakeState = .ServerFinished
  keys : c.keys = keys

section Feeding

variable {env : Env} {keys : Keys} {c : Client} {r : AppRecord} {records : List AppRecord}
  {x t : List UInt8} {n : Nat}

theorem receive_app (hc : Finished keys c) (hs : c.stream.content = r.bytes ++ t) :
    ∃ c', receive env c = .ok (some (r.plaintext env.ossl keys)) c' ∧ c'.stream.content = t ∧
      Finished keys c' := by
  have hfirst := firstRecord_recordBytes r.payload_lt hs
  have hsize : 24 < (firstRecord c.stream).size := by
    have hge := r.size_ge
    rw [hfirst]
    simp only [r.length_payload]
    omega
  obtain ⟨ctx, s, -, hcontent, -, hreceive⟩ := @receive_long env c hc.keyed hc.state
    (holdsRecord_recordBytes r.payload_lt hs) (by rw [hfirst]) hsize
  rw [explicitIvOf_app hs, ciphertextOf_app hs, hc.keys] at hreceive
  have hkeyed := (receive_updates env c).keyed hc.keyed
  rw [hreceive] at hkeyed
  exact ⟨_, hreceive, hcontent.trans (afterRecord_recordBytes r.payload_lt hs), hkeyed, hc.state,
    hc.keys⟩

/-- The loop takes the complete records and leaves the part of the next one. -/
theorem receiveWhile_records (hc : Finished keys c) (hx : ProperPart x)
    (hs : c.stream.content = records.flatMap AppRecord.bytes ++ x) (hn : records.length < n) :
    ∃ c', receiveWhile env n c = .ok (records.map (AppRecord.plaintext env.ossl keys)) c' ∧
      c'.stream.content = x ∧ Finished keys c' := by
  induction records generalizing c n with
  | nil =>
    obtain ⟨n, rfl⟩ := Nat.exists_eq_add_of_lt hn
    have hreceive := @receive_properPart c env _ hx (by simp [hc.state]) hs
    refine ⟨c, ?_, hs, hc⟩
    rw [receiveWhile, bind_of_ok hreceive]
    rfl
  | cons r records ih =>
    obtain ⟨n, rfl⟩ := Nat.exists_eq_add_of_lt hn
    rw [List.flatMap_cons, List.append_assoc] at hs
    obtain ⟨c₁, hreceive, hs₁, hc₁⟩ := @receive_app env _ _ _ _ hc hs
    obtain ⟨c', hrest, hs', hc'⟩ := ih (n := (r :: records).length + n) hc₁ hs₁
      (by rw [List.length_cons]; omega)
    refine ⟨c', ?_, hs', hc'⟩
    rw [receiveWhile, bind_of_ok hreceive]
    dsimp only
    rw [bind_of_ok hrest]
    rfl

/-- A part of a record leaves room for another segment. -/
theorem pushChunk_fits {chunk : ByteView} (hc : Finished keys c) (hx : c.stream.size ≤ 18437)
    (hchunk : chunk.size ≤ 1460) : ∃ c', pushChunk chunk c = .ok () c' ∧
      c'.stream.content = c.stream.content ++ chunk.toList ∧ Finished keys c' := by
  have hroom : c.stream.shift.availableSuffixBytes = 20600 - c.stream.size := by
    rw [← hc.keyed.capacity]
    rfl
  obtain ⟨hlt, -⟩ | ⟨s, hok, hcontent, hcap⟩ := c.stream.shift.pushBytes_cases chunk
  · omega
  · refine ⟨{ c with stream := s }, ?_, by rw [hcontent, Stream.content_shift], ?_, hc.state,
      hc.keys⟩
    · rw [pushChunk, bind_of_ok (modify_apply _ c)]
      exact zoom_of_ok hok
    · exact ⟨hc.keyed.installed, hc.keyed.key, hcap.trans hc.keyed.capacity⟩

/-- The stream holds less than the first of these records. -/
def Pending (records : List AppRecord) (c : Client) : Prop :=
  ∀ r rest, records = r :: rest → c.stream.size < r.bytes.length

theorem Pending.size_le {future : List UInt8} (h : Pending records c)
    (hs : c.stream.content ++ future = records.flatMap AppRecord.bytes) :
    c.stream.size ≤ 18437 := by
  cases records with
  | nil =>
    obtain ⟨hnil, -⟩ := List.append_eq_nil_iff.mp hs
    rw [← Stream.length_content, hnil]
    exact Nat.zero_le _
  | cons r rest =>
    have hlt := h r rest rfl
    have hle := r.length_bytes_le
    omega

/-- A proper beginning of the records that are left is a proper part of one. -/
theorem properPart_of_left {left : List AppRecord} {future : List UInt8}
    (hx : x ++ future = left.flatMap AppRecord.bytes)
    (hpart : ∀ r rest, left = r :: rest → x.length < r.bytes.length) : ProperPart x := by
  cases left with
  | nil =>
    obtain ⟨rfl, -⟩ := List.append_eq_nil_iff.mp hx
    exact properPart_nil
  | cons r rest =>
    rw [List.flatMap_cons] at hx
    exact properPart_of_lt r.payload_lt hx (hpart r rest rfl)

/-- One chunk: the records it completes are returned, and less than a record stays. -/
theorem feed_records {chunk : ByteView} {future : List UInt8} (hc : Finished keys c)
    (hpending : Pending records c) (hchunk : chunk.size ≤ 1460)
    (hs : c.stream.content ++ (chunk.toList ++ future) = records.flatMap AppRecord.bytes) :
    ∃ done left c', records = done ++ left ∧
      feed env chunk c = .ok (done.map (AppRecord.plaintext env.ossl keys)) c' ∧
      c'.stream.content ++ future = left.flatMap AppRecord.bytes ∧ Pending left c' ∧
      Finished keys c' := by
  obtain ⟨c₁, hpush, hcontent, hc₁⟩ := pushChunk_fits hc (hpending.size_le hs) hchunk
  rw [← List.append_assoc, ← hcontent] at hs
  obtain ⟨done, left, x, hsplit, hy, hx, hpart⟩ := exists_record_cut hs
  have hfuel : done.length < c₁.stream.size + 1 := by
    have hlen := congrArg List.length hy
    have hdone := length_le_flatMap done
    rw [Stream.length_content, List.length_append] at hlen
    omega
  obtain ⟨c', hwhile, hs', hc'⟩ :=
    @receiveWhile_records env _ _ _ _ _ hc₁ (properPart_of_left hx hpart) hy hfuel
  refine ⟨done, left, c', hsplit, ?_, by rw [hs', hx], ?_, hc'⟩
  · rw [feed, bind_of_ok hpush, bind_of_ok (get_apply c₁)]
    exact hwhile
  · intro r rest hleft
    rw [← Stream.length_content, hs']
    exact hpart r rest hleft

theorem feedAll_records {chunks : List ByteView} {future : List UInt8} (hc : Finished keys c)
    (hpending : Pending records c) (hchunks : ∀ chunk ∈ chunks, chunk.size ≤ 1460)
    (hs : c.stream.content ++ (chunks.flatMap ByteView.toList ++ future) =
      records.flatMap AppRecord.bytes) :
    ∃ done left c', records = done ++ left ∧
      feedAll env chunks c = .ok (done.map (AppRecord.plaintext env.ossl keys)) c' ∧
      c'.stream.content ++ future = left.flatMap AppRecord.bytes ∧ Pending left c' ∧
      Finished keys c' := by
  induction chunks generalizing c records with
  | nil => exact ⟨[], records, c, rfl, rfl, by simpa using hs, hpending, hc⟩
  | cons chunk chunks ih =>
    rw [List.flatMap_cons, List.append_assoc] at hs
    obtain ⟨done₁, left₁, c₁, rfl, hfeed, hs₁, hpending₁, hc₁⟩ :=
      @feed_records env _ _ _ _ _ hc hpending (hchunks chunk (List.mem_cons_self ..)) hs
    obtain ⟨done, left, c', rfl, hrest, hs', hpending', hc'⟩ := ih hc₁ hpending₁
      (fun k hk => hchunks k (List.mem_cons_of_mem _ hk)) hs₁
    refine ⟨done₁ ++ done, left, c', (List.append_assoc ..).symm, ?_, hs', hpending', hc'⟩
    rw [feedAll, bind_of_ok hfeed, bind_of_ok hrest, List.map_append]
    rfl

end Feeding

/-- **Segmentation**: after the handshake, for every sequence of application records and every way
to cut it into chunks of at most a segment, of which these have arrived, no call throws; the
plaintexts returned are those of the records that are complete, in order, and less than one record
stays in the stream. -/
theorem feedAll_complete_records (env : Env) (c : Client) (records : List AppRecord)
    (chunks : List ByteView) (future : List UInt8) (hreach : Reachable env c)
    (hstate : c.handshakeState = .ServerFinished) (hempty : c.stream.content = [])
    (hchunks : ∀ chunk ∈ chunks, chunk.size ≤ 1460)
    (hcut : chunks.flatMap ByteView.toList ++ future = records.flatMap AppRecord.bytes) :
    ∃ done left c', records = done ++ left ∧
      feedAll env chunks c = .ok (done.map (AppRecord.plaintext env.ossl c.keys)) c' ∧
      c'.stream.content ++ future = left.flatMap AppRecord.bytes ∧
      ∀ r rest, left = r :: rest → c'.stream.size < r.bytes.length := by
  have hpending : Pending records c := by
    rintro r rest -
    rw [← Stream.length_content, hempty]
    exact List.length_pos_iff.mpr r.bytes_ne_nil
  obtain ⟨done, left, c', hsplit, hfeed, hs, hleft, -⟩ :=
    @feedAll_records env c.keys c records chunks future ⟨hreach.keyed, hstate, rfl⟩ hpending hchunks
      (by rw [hempty]; exact hcut)
  exact ⟨done, left, c', hsplit, hfeed, hs, hleft⟩

/-- A record with a plaintext of one byte. -/
def sampleRecord : AppRecord := ⟨.replicate 8 0, List.replicate 17 0, by decide, by decide⟩

theorem sampleRecord_in_two_chunks :
    ∃ done left c', [sampleRecord, sampleRecord] = done ++ left ∧
      feedAll sampleEnv [.ofList (sampleRecord.bytes.take 7),
          .ofList (sampleRecord.bytes.drop 7 ++ sampleRecord.bytes.take 3)] handshakenClient =
        .ok (done.map (AppRecord.plaintext sampleOssl handshakenClient.keys)) c' ∧
      c'.stream.content ++ sampleRecord.bytes.drop 3 = left.flatMap AppRecord.bytes ∧
      ∀ r rest, left = r :: rest → c'.stream.size < r.bytes.length :=
  feedAll_complete_records sampleEnv handshakenClient [sampleRecord, sampleRecord] _
    (sampleRecord.bytes.drop 3) handshakenClient_reachable (by decide +kernel) (by decide +kernel)
    (by decide) (by decide)

end Client

end WsGateway.Network.Tls12
