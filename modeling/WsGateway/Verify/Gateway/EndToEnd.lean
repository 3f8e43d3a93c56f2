import WsGateway.Verify.Gateway.Draining
import WsGateway.Verify.Gateway.Opening
import WsGateway.Verify.Tcp.Due
import WsGateway.Verify.Tls12.Segmentation

/-!
# Messages from end to end

The server puts messages into frames, the bytes of the frames into application records, and the
bytes of the records into segments; none of these boundaries has anything to do with the others.
The gateway undoes this layer by layer. `Delivering` is the state between two segments: each stream
holds the beginning of what its layer has not given on, less than one record and less than one
frame. One segment takes it to the next such state, with the payloads of the frames that the segment
completes.
-/

namespace WsGateway.Network.Tls12

open Library

namespace AppRecord

theorem length_plaintext_le (ossl : OpenSsl) (keys : Keys) (r : AppRecord) :
    (r.plaintext ossl keys).length ≤ r.bytes.length := by
  rw [plaintext, Client.length_gcmPlaintext, bytes, length_recordBytes, length_payload]
  omega

theorem length_plaintexts_le (ossl : OpenSsl) (keys : Keys) (records : List AppRecord) :
    (records.flatMap (plaintext ossl keys)).length ≤ (records.flatMap bytes).length := by
  induction records with
  | nil => exact Nat.le_refl _
  | cons r records ih =>
    have hle := length_plaintext_le ossl keys r
    rw [List.flatMap_cons, List.flatMap_cons, List.length_append, List.length_append]
    omega

end AppRecord

namespace Client

variable {env : Env} {keys : Keys} {c : Client}

/-- After the handshake `receive` sends nothing. -/
theorem receive_app_tcp {r : AppRecord} {t : List UInt8} (hc : Finished keys c)
    (hs : c.stream.content = r.bytes ++ t) :
    ∃ c', receive env c = .ok (some (r.plaintext env.ossl keys)) c' ∧ c'.stream.content = t ∧
      Finished keys c' ∧ c'.tcp = c.tcp := by
  obtain ⟨c', hreceive, hcontent, hc'⟩ := @receive_app env _ _ _ _ hc hs
  have hquiet := receiveRecord_quiet env.ossl (firstRecord c.stream) c
  rw [← receive_finished (holdsRecord_recordBytes r.payload_lt hs) hc.state, hreceive] at hquiet
  exact ⟨c', hreceive, hcontent, hc', hquiet.tcp⟩

theorem pushChunk_tcp (chunk : ByteView) :
    Moves (fun c t : Client => t.tcp = c.tcp) (pushChunk chunk) := by
  have : IsTrans Client fun c t => t.tcp = c.tcp := ⟨fun _ _ _ h h' => h'.trans h⟩
  refine Moves.seq (Moves.update fun _ => rfl) fun _ => ?_
  exact Moves.member (S := fun _ _ => True) (fun _ => trivial) fun _ _ _ => rfl

theorem Finished.withTcp (hc : Finished keys c) (t : Tcp.Client) :
    Finished keys { c with tcp := t } :=
  ⟨⟨hc.keyed.installed, hc.keyed.key, hc.keyed.capacity⟩, hc.state, hc.keys⟩

/-- A segment that the TCP client takes is pushed behind less than a record. -/
theorem processPacket_finished {p : Tcp.PacketView} {t : Tcp.Client} (hc : Finished keys c)
    (hx : c.stream.size ≤ 18437) (hpayload : p.payload.size ≤ 1460)
    (htcp : Tcp.Client.processPacket env.dpdk p c.tcp = .ok () t) :
    ∃ c', processPacket env p c = .ok () c' ∧
      c'.stream.content = c.stream.content ++ p.payload.toList ∧ Finished keys c' ∧ c'.tcp = t := by
  obtain ⟨c', hpush, hcontent, hc'⟩ := pushChunk_fits (hc.withTcp t) hx hpayload
  have htcp' := pushChunk_tcp p.payload { c with tcp := t }
  rw [hpush] at htcp'
  refine ⟨c', ?_, hcontent, hc', htcp'⟩
  rw [processPacket_eq, onTcp, bind_of_ok (zoom_of_ok htcp)]
  exact hpush

end Client

end WsGateway.Network.Tls12

namespace WsGateway.Network.Wss

open Library

open Tls12 (AppRecord ProperPart)

/-- Any beginning of a sequence of frames is some of them and less than the next one. -/
theorem exists_frame_cut {frames : List Frame} {y future : List UInt8}
    (h : y ++ future = frames.flatMap Frame.encode) :
    ∃ done left x, frames = done ++ left ∧ y = done.flatMap Frame.encode ++ x ∧
      x ++ future = left.flatMap Frame.encode ∧
      ∀ f rest, left = f :: rest → x.length < f.encode.length := by
  obtain ⟨_, _, x, hsplit, hy, hx, hpart⟩ := exists_cut (h.trans (List.flatMap_def ..))
  obtain ⟨done, left, rfl, rfl, rfl⟩ := List.map_eq_append_iff.mp hsplit
  refine ⟨done, left, x, rfl, hy, hx, ?_⟩
  intro f rest hleft
  exact hpart f.encode (rest.map Frame.encode) (by rw [hleft, List.map_cons])

/-- A message that the client reads back, and that leaves room for a segment in its stream. -/
structure Deliverable (f : Frame) : Prop where
  data : f.header.isData = true
  readable : f.payload.length ≠ 125
  size : f.encode.length ≤ 180000

theorem Frame.length_encode_pos (f : Frame) : 0 < f.encode.length := by
  rw [Frame.encode, List.length_append, List.length_cons]
  omega

theorem length_le_flatMap_encode (frames : List Frame) :
    frames.length ≤ (frames.flatMap Frame.encode).length := by
  induction frames with
  | nil => exact Nat.le_refl _
  | cons f frames ih =>
    have hpos := f.length_encode_pos
    rw [List.flatMap_cons, List.length_append, List.length_cons]
    omega

/-- Less than a frame is incomplete. -/
theorem incomplete_of_left {left : List Frame} {x future : List UInt8}
    (hdeliverable : ∀ f ∈ left, Deliverable f) (hx : x ++ future = left.flatMap Frame.encode)
    (hpart : ∀ f rest, left = f :: rest → x.length < f.encode.length) : Incomplete x := by
  cases left with
  | nil =>
    obtain ⟨rfl, -⟩ := List.append_eq_nil_iff.mp hx
    exact incomplete_nil
  | cons f rest =>
    obtain ⟨-, hreadable, hsize⟩ := hdeliverable f List.mem_cons_self
    have hlt := hpart f rest rfl
    rw [List.flatMap_cons] at hx
    obtain ⟨y, hy, -⟩ | ⟨y, hy, -⟩ := List.append_eq_append_iff.mp hx
    · refine incomplete_encode hreadable (by omega) hy.symm ?_
      rintro rfl
      rw [List.append_nil] at hy
      rw [hy] at hlt
      exact Nat.lt_irrefl _ hlt
    · have hlen := congrArg List.length hy
      rw [List.length_append] at hlen
      omega

namespace Client

variable {env : Env} {keys : Tls12.Keys} {c : Client}

theorem processPacket_of_tls {p : Tcp.PacketView} {tls : Tls12.Client}
    (h : Tls12.Client.processPacket env.toEnv p c.tls = .ok () tls) :
    processPacket env p c = .ok () { c with tls := tls } := by
  rw [processPacket, onTls]
  exact zoom_of_ok h

theorem receiveAll_step {bytes : List UInt8} {tls : Tls12.Client} {stream : Stream} {n : Nat}
    (hreceive : Tls12.Client.receive env.toEnv c.tls = .ok (some bytes) tls)
    (hpush : Stream.pushBytes (.ofList bytes) c.stream.shift = .ok () stream) :
    receiveAll env (n + 1) c = receiveAll env n { c with tls := tls, stream := stream } := by
  rw [receiveAll, onTls, bind_of_ok (zoom_of_ok hreceive)]
  dsimp only
  rw [bind_of_ok (modify_apply _ _)]
  exact bind_of_ok (zoom_of_ok hpush)

/-- The loop over the received records moves their plaintexts from one stream to the other. -/
theorem receiveAll_records {records : List AppRecord} {x : List UInt8} {n : Nat}
    (hc : Tls12.Client.Finished keys c.tls) (hx : ProperPart x)
    (hs : c.tls.stream.content = records.flatMap AppRecord.bytes ++ x) (hn : records.length < n)
    (hroom : c.stream.size + (records.flatMap (AppRecord.plaintext env.ossl keys)).length ≤
      c.stream.capacity) :
    ∃ c₁, receiveAll env n c = .ok () c₁ ∧
      c₁.stream.content = c.stream.content ++ records.flatMap (AppRecord.plaintext env.ossl keys) ∧
      c₁.tls.stream.content = x ∧ Tls12.Client.Finished keys c₁.tls ∧ c₁.tls.tcp = c.tls.tcp := by
  induction records generalizing c n with
  | nil =>
    obtain ⟨n, rfl⟩ := Nat.exists_eq_add_of_lt hn
    have hwait : Waiting env c :=
      Tls12.Client.receive_properPart hx (by simp [hc.state]) hs
    exact ⟨c, receiveAll_waiting hwait _, (List.append_nil _).symm, hs, hc, rfl⟩
  | cons r records ih =>
    obtain ⟨n, rfl⟩ := Nat.exists_eq_add_of_lt hn
    rw [List.flatMap_cons, List.append_assoc] at hs
    rw [List.flatMap_cons, List.length_append] at hroom
    obtain ⟨tls, hreceive, hs₁, hc₁, htcp⟩ :=
      @Tls12.Client.receive_app_tcp env.toEnv _ _ _ _ hc hs
    have hfree : c.stream.shift.availableSuffixBytes = c.stream.capacity - c.stream.size := rfl
    obtain ⟨hlt, -⟩ | ⟨stream, hpush, hcontent, hcap⟩ :=
      c.stream.shift.pushBytes_cases (.ofList (r.plaintext env.ossl keys))
    · rw [hfree, ByteView.size_ofList] at hlt
      omega
    · rw [Stream.content_shift, ByteView.toList_ofList] at hcontent
      have hsize : stream.size = c.stream.size + (r.plaintext env.ossl keys).length := by
        rw [← Stream.length_content, hcontent, List.length_append, Stream.length_content]
      have hcap' : stream.capacity = c.stream.capacity := hcap
      obtain ⟨c₁, hrest, hcontent₁, hs', hc', htcp'⟩ :=
        ih (c := { c with tls := tls, stream := stream }) (n := (r :: records).length + n) hc₁ hs₁
          (by rw [List.length_cons]; omega) (by show stream.size + _ ≤ stream.capacity; omega)
      refine ⟨c₁, (receiveAll_step hreceive hpush).trans hrest, ?_, hs', hc', htcp'.trans htcp⟩
      rw [hcontent₁, List.flatMap_cons, ← List.append_assoc, ← hcontent]

/-- A segment went from `c` to `c'` into the first stream and, as far as it completes the records
`done`, from there to `c₁` into the second; `left` and the TCP client `t` remain. -/
structure SegmentReceived (env : Env) (keys : Tls12.Keys) (p : Tcp.PacketView) (c c' c₁ : Client)
    (done left : List AppRecord) (future : List UInt8) (t : Tcp.Client) : Prop where
  processed : processPacket env p c = .ok () c'
  state : c'.state = c.state
  stream : c'.stream = c.stream
  received : receiveAll env (c'.tls.stream.size + 1) c' = .ok () c₁
  content : c₁.stream.content = c.stream.content ++ done.flatMap (AppRecord.plaintext env.ossl keys)
  plain : (done.flatMap (AppRecord.plaintext env.ossl keys)).length ≤ c'.tls.stream.size
  tls : Tls12.Client.Finished keys c₁.tls
  pending : Tls12.Client.Pending left c₁.tls
  recordsLeft : c₁.tls.stream.content ++ future = left.flatMap AppRecord.bytes
  waiting : Waiting env c₁
  tcp : c₁.tls.tcp = t

theorem SegmentReceived.refilled {p : Tcp.PacketView} {c' c₁ : Client} {done left : List AppRecord}
    {future : List UInt8} {t : Tcp.Client}
    (h : SegmentReceived env keys p c c' c₁ done left future t) : Refilled c c₁ := by
  obtain ⟨hstate, hcap, more, hmore⟩ := receiveAll_refilled h.received
  exact ⟨hstate.trans h.state, hcap.trans (congrArg Stream.capacity h.stream), more, h.stream ▸ hmore⟩

/-- Behind less than a record, and with room in the second stream, a segment is received. -/
theorem segment_received {p : Tcp.PacketView} {t : Tcp.Client} {records : List AppRecord}
    {future : List UInt8} (htls : Tls12.Client.Finished keys c.tls)
    (hpending : Tls12.Client.Pending records c.tls)
    (hrecords : c.tls.stream.content ++ (p.payload.toList ++ future) =
      records.flatMap AppRecord.bytes)
    (hroom : c.stream.size + 19897 ≤ c.stream.capacity) (hpayload : p.payload.size ≤ 1460)
    (htcp : Tcp.Client.processPacket env.dpdk p c.tls.tcp = .ok () t) :
    ∃ done left c' c₁, records = done ++ left ∧
      SegmentReceived env keys p c c' c₁ done left future t := by
  have hsize := hpending.size_le hrecords
  obtain ⟨tls, hprocess, hcontent, htls', hsame⟩ :=
    Tls12.Client.processPacket_finished htls hsize hpayload htcp
  rw [← List.append_assoc, ← hcontent] at hrecords
  obtain ⟨done, left, x, rfl, hdone, hleft, hpart⟩ := Tls12.exists_record_cut hrecords
  have hplain := Tls12.AppRecord.length_plaintexts_le env.ossl keys done
  have hlen := congrArg List.length hdone
  have hlen' := congrArg List.length hcontent
  rw [List.length_append, Stream.length_content] at hlen
  rw [List.length_append, Stream.length_content, Stream.length_content,
    ByteView.length_toList] at hlen'
  have hfuel : done.length < tls.stream.size + 1 := by
    have hle := Tls12.length_le_flatMap done
    omega
  have hproper := Tls12.Client.properPart_of_left hleft hpart
  have hfits : c.stream.size + (done.flatMap (AppRecord.plaintext env.ossl keys)).length ≤
      c.stream.capacity := by omega
  obtain ⟨c₁, hall, hplaintexts, hx, hfinished, htcp₁⟩ :=
    @receiveAll_records env _ { c with tls := tls } _ _ _ htls' hproper hdone hfuel hfits
  refine ⟨done, left, { c with tls := tls }, c₁, rfl, processPacket_of_tls hprocess, rfl, rfl, hall,
    hplaintexts, ?_, hfinished, ?_, hx ▸ hleft, ?_, htcp₁.trans hsame⟩
  · change _ ≤ tls.stream.size
    omega
  · intro r rest hrest
    rw [← Stream.length_content, hx]
    exact hpart r rest hrest
  · exact Tls12.Client.receive_properPart hproper (by simp [hfinished.state]) hx

end Client

end WsGateway.Network.Wss

namespace WsGateway.Gateway.Service

open Library Network Wss

open Tls12 (AppRecord ProperPart)

open Tls12.Client (Finished)

variable {env : Wss.Env} {keys : Tls12.Keys} {s : Service} {c₁ : Wss.Client}

/-! ## The inner loop -/

/-- On complete messages the inner loop ends with all their payloads handed over. -/
theorem drain_messages {fs : List (FrameHeader × List UInt8)} {t : List UInt8} {n : Nat}
    (h : Holding env s c₁ fs t)
    (hdata : ∀ f ∈ fs, f.1.mask = false ∧ f.1.code.toNat ≤ 10 ∧ f.1.isData = true)
    (hn : fs.length < n) :
    ∃ stream, drain env n s = .ok () (s.takeOut c₁ stream (fs.map Prod.snd)) ∧
      stream.content = t ∧ stream.capacity = c₁.stream.capacity := by
  -- every frame carries data, so the loop goes on until no complete frame is left
  induction n generalizing s c₁ fs with
  | zero => omega
  | succ n ih =>
    obtain ⟨rfl, hnext⟩ | ⟨header, payload, fs, stream, rfl, hcap, hbuf, hnext⟩ :=
      nextMessage_holding h
    · have hcontent : c₁.stream.content = t := by
        generalize hbs : c₁.stream.content = bs
        have hbuf := h.buffered
        rw [hbs] at hbuf
        cases hbuf
        rfl
      refine ⟨c₁.stream, ?_, hcontent, rfl⟩
      rw [drain_of_none hnext, Service.takeOut, List.map_nil, List.append_nil]
    · obtain ⟨hmask, hcode, hisData⟩ := hdata _ List.mem_cons_self
      dsimp only at hmask hcode hisData
      rw [hmask, if_neg Bool.false_ne_true, if_neg (Nat.not_lt.mpr hcode), hisData,
        if_pos rfl] at hnext
      obtain ⟨stream', hdrain, hcontent, hcap'⟩ := ih (h.takeOut hcap hbuf [payload])
        (fun f hf => hdata f (List.mem_cons_of_mem _ hf)) (by simpa using hn)
      refine ⟨stream', ?_, hcontent, hcap'.trans hcap⟩
      rw [drain_of_some hnext, hdrain]
      simp [Service.takeOut]

/-- Received messages are what the inner loop works on. -/
theorem holding_messages {taken : List Frame} {y : List UInt8}
    (hstate : s.connection.state = .Connected) (hcapacity : s.connection.stream.capacity = 200000)
    (hall : Client.receiveAll env (s.connection.tls.stream.size + 1) s.connection = .ok () c₁)
    (hwait : Client.Waiting env c₁) (htaken : c₁.stream.content = taken.flatMap Frame.encode ++ y)
    (hfs : ∀ f ∈ taken, Deliverable f) (hy : Incomplete y) :
    Holding env s c₁ (taken.map fun f => (f.header, f.payload)) y := by
  have hcap : c₁.stream.capacity = 200000 := (Client.receiveAll_refilled hall).capacity.trans hcapacity
  have hbytes : c₁.stream.content.length < 2 ^ 63 := by
    have hle := c₁.stream.size_le_capacity
    rw [Stream.length_content]
    omega
  refine ⟨hstate, by omega, hall, hwait, ?_⟩
  rw [htaken] at hbytes ⊢
  exact buffered_encode (fun f hf => (hfs f hf).readable) hy hbytes

/-- It takes them out and hands their payloads over. -/
theorem drain_taken {taken : List Frame} {y : List UInt8} {n : Nat}
    (hstate : s.connection.state = .Connected) (hcapacity : s.connection.stream.capacity = 200000)
    (hall : Client.receiveAll env (s.connection.tls.stream.size + 1) s.connection = .ok () c₁)
    (hwait : Client.Waiting env c₁) (htaken : c₁.stream.content = taken.flatMap Frame.encode ++ y)
    (hfs : ∀ f ∈ taken, Deliverable f) (hy : Incomplete y)
    (hn : (taken.flatMap Frame.encode).length < n) :
    ∃ stream, drain env n s = .ok () (s.takeOut c₁ stream (taken.map Frame.payload)) ∧
      stream.content = y ∧ stream.capacity = c₁.stream.capacity := by
  have hholding := holding_messages hstate hcapacity hall hwait htaken hfs hy
  have hlength := length_le_flatMap_encode taken
  obtain ⟨stream, hdrain, hstream⟩ := drain_messages hholding (n := n) (by
    intro f hf
    obtain ⟨frame, hmem, rfl⟩ := List.mem_map.mp hf
    exact ⟨rfl, frame.code_le, (hfs frame hmem).data⟩) (by rw [List.length_map]; omega)
  rw [List.map_map] at hdrain
  exact ⟨stream, hdrain, hstream⟩

/-- The branch for a segment is `process_packet` and the inner loop. -/
theorem onSegment_of_drain {p : Tcp.PacketView} {c' : Wss.Client} {s' : Service}
    (hprocess : onConnection (Wss.Client.processPacket env p) s =
      .ok () { s with connection := c' })
    (hdrain : drain env (buffered { s with connection := c' } + 1) { s with connection := c' } =
      .ok () s') : onSegment env p s = .ok () s' := by
  rw [onSegment, bind_of_ok hprocess, bind_of_ok (get_apply _)]
  exact hdrain

/-! ## One segment -/

/-- Between two segments: these frames, records and bytes are still to come, apart from what the
streams hold of the first frame and the first record. -/
structure Delivering (env : Wss.Env) (keys : Tls12.Keys) (s : Service) (frames : List Frame)
    (records : List AppRecord) (future : List UInt8) : Prop where
  tls : Finished keys s.tls
  pending : Tls12.Client.Pending records s.tls
  recordsLeft : s.tls.stream.content ++ future = records.flatMap AppRecord.bytes
  state : s.connection.state = .Connected
  capacity : s.connection.stream.capacity = 200000
  framesLeft : s.connection.stream.content ++
    records.flatMap (AppRecord.plaintext env.ossl keys) = frames.flatMap Frame.encode
  waiting : ∀ f rest, frames = f :: rest → s.connection.stream.size < f.encode.length

/-- The stream of the WebSocket client holds less than a frame. -/
theorem Delivering.size_lt {frames : List Frame} {records : List AppRecord} {future : List UInt8}
    (h : Delivering env keys s frames records future) (hfs : ∀ f ∈ frames, Deliverable f) :
    s.connection.stream.size ≤ 180000 := by
  cases frames with
  | nil =>
    obtain ⟨hnil, -⟩ := List.append_eq_nil_iff.mp h.framesLeft
    rw [← Stream.length_content, hnil]
    exact Nat.zero_le _
  | cons f rest =>
    have hlt := h.waiting f rest rfl
    have hle := (hfs f List.mem_cons_self).size
    omega

/-- **One segment**: it completes some records, and these some frames, whose payloads are handed
over. -/
theorem onSegment_delivering {p : Tcp.PacketView} {t : Tcp.Client} {frames : List Frame}
    {records : List AppRecord} {future : List UInt8}
    (h : Delivering env keys s frames records (p.payload.toList ++ future))
    (hfs : ∀ f ∈ frames, Deliverable f) (hpayload : p.payload.size ≤ 1460)
    (htcp : Tcp.Client.processPacket env.dpdk p s.tls.tcp = .ok () t) :
    ∃ done left complete coming s', frames = done ++ left ∧ records = complete ++ coming ∧
      onSegment env p s = .ok () s' ∧ s'.payloads = s.payloads ++ done.map Frame.payload ∧
      s'.tls.tcp = t ∧ Delivering env keys s' left coming future := by
  have hroom := h.size_lt hfs
  have hcapacity := h.capacity
  obtain ⟨complete, coming, c', c₁, rfl, hreceived⟩ := Client.segment_received (c := s.connection)
    h.tls h.pending h.recordsLeft (by omega) hpayload htcp
  have hcut : c₁.stream.content ++ coming.flatMap (AppRecord.plaintext env.ossl keys) =
      frames.flatMap Frame.encode := by
    rw [hreceived.content, List.append_assoc, ← List.flatMap_append]
    exact h.framesLeft
  obtain ⟨taken, rest, y, rfl, htaken, hrest, hshort⟩ := exists_frame_cut hcut
  obtain ⟨stream, hdrain, hstream, hcap⟩ := drain_taken (s := { s with connection := c' })
    (hreceived.state.trans h.state) ((congrArg Stream.capacity hreceived.stream).trans hcapacity)
    hreceived.received hreceived.waiting htaken
    (fun f hf => hfs f (List.mem_append_left _ hf))
    (incomplete_of_left (fun f hf => hfs f (List.mem_append_right _ hf)) hrest hshort)
    (n := buffered { s with connection := c' } + 1) (by
      have hle := congrArg List.length htaken
      have hlen := congrArg List.length hreceived.content
      have hplain := hreceived.plain
      have hsecond : s.connection.stream.content.length = c'.stream.size := by
        rw [Stream.length_content, hreceived.stream]
      rw [List.length_append] at hle hlen
      rw [buffered]
      change _ < c'.tls.stream.size + c'.stream.size + 1
      omega)
  refine ⟨taken, rest, complete, coming, _, rfl, rfl,
    onSegment_of_drain (zoom_of_ok hreceived.processed) hdrain, by simp [Service.takeOut],
    hreceived.tcp, hreceived.tls, hreceived.pending, hreceived.recordsLeft,
    hreceived.refilled.state.trans h.state,
    hcap.trans (hreceived.refilled.capacity.trans hcapacity), hstream ▸ hrest, ?_⟩
  intro f rest' hrest'
  rw [← Stream.length_content]
  exact hstream ▸ hshort f rest' hrest'

/-! ## The run -/

instance (frame : ByteView) : Decidable (IsSegment frame) :=
  inferInstanceAs (Decidable (_ ∧ _))

/-- The TCP segments among the frames. -/
def segmentsOf (arrivals : List ByteView) : List Tcp.PacketView :=
  (arrivals.filter fun frame => IsSegment frame).map segmentOf

/-- The payload bytes of segments. -/
def payloadBytes (segments : List Tcp.PacketView) : List UInt8 :=
  segments.flatMap fun p => p.payload.toList

theorem onFrame_ignored (env : Wss.Env) {frame : ByteView}
    (harp : (EthernetPacketView.mk frame).header.type ≠ EthernetType.Arp)
    (hseg : ¬ IsSegment frame) : onFrame env frame s = .ok () s := by
  unfold onFrame
  dsimp only
  rw [if_neg (by simpa using harp)]
  split
  · rfl
  · rename_i htype
    split
    · rfl
    · rename_i hproto
      exact absurd ⟨by simpa using htype, by simpa using hproto⟩ hseg

/-- What a segment does to the state between two segments: messages, records and bytes are used up,
and the payloads of the messages handed over. -/
def SegmentStep (env : Wss.Env)
    (Inv : Service → List Frame → List AppRecord → List UInt8 → Prop) : Prop :=
  ∀ (s : Service) (p : Tcp.PacketView) (t : Tcp.Client) (frames : List Frame)
    (records : List AppRecord) (future : List UInt8),
    Inv s frames records (p.payload.toList ++ future) → (∀ f ∈ frames, Deliverable f) →
    p.payload.size ≤ 1460 → Tcp.Client.processPacket env.dpdk p s.tls.tcp = .ok () t →
    ∃ done left complete coming s', frames = done ++ left ∧ records = complete ++ coming ∧
      onSegment env p s = .ok () s' ∧ s'.payloads = s.payloads ++ done.map Frame.payload ∧
      s'.tls.tcp = t ∧ Inv s' left coming future

/-- The loop over segments that are due, and frames that are ignored. -/
theorem SegmentStep.runWorker {Inv : Service → List Frame → List AppRecord → List UInt8 → Prop}
    (hstep : SegmentStep env Inv) {arrivals : List ByteView} {frames : List Frame}
    {records : List AppRecord} {future : List UInt8} (hserves : Tcp.Serves env.dpdk)
    (h : Inv s frames records (payloadBytes (segmentsOf arrivals) ++ future))
    (hconn : s.tls.tcp.state = .Connected) (hfs : ∀ f ∈ frames, Deliverable f)
    (harp : ∀ frame ∈ arrivals, (EthernetPacketView.mk frame).header.type ≠ EthernetType.Arp)
    (hpayload : ∀ p ∈ segmentsOf arrivals, p.payload.size ≤ 1460)
    (hdue : Along (Tcp.Client.receiveStep env.dpdk) Tcp.Client.Due s.tls.tcp
      (segmentsOf arrivals)) :
    ∃ done left complete coming s', frames = done ++ left ∧ records = complete ++ coming ∧
      Service.runWorker env arrivals s = .ok () s' ∧
      s'.payloads = s.payloads ++ done.map Frame.payload ∧ Inv s' left coming future := by
  induction arrivals generalizing s frames records with
  | nil => exact ⟨[], frames, [], records, s, rfl, rfl, rfl, (List.append_nil _).symm, h⟩
  | cons frame arrivals ih =>
    have hrest : ∀ frame' ∈ arrivals,
        (EthernetPacketView.mk frame').header.type ≠ EthernetType.Arp :=
      fun frame' hmem => harp frame' (List.mem_cons_of_mem _ hmem)
    by_cases hseg : IsSegment frame
    · have hsegments : segmentsOf (frame :: arrivals) = segmentOf frame :: segmentsOf arrivals := by
        rw [segmentsOf, List.filter_cons_of_pos (by simpa using hseg), List.map_cons]
        rfl
      rw [hsegments] at hdue hpayload
      rw [hsegments, payloadBytes, List.flatMap_cons, List.append_assoc] at h
      obtain ⟨hdue₁, hdue⟩ := hdue
      obtain ⟨done₁, left₁, complete₁, coming₁, s₁, rfl, rfl, hsegment, hpayloads₁, htcp, h₁⟩ :=
        hstep s _ _ _ _ _ h hfs (hpayload _ List.mem_cons_self)
          (Tcp.Client.processPacket_due hserves hconn hdue₁)
      have hconn₁ : s₁.tls.tcp.state = .Connected := by
        rw [htcp]
        exact Tcp.Client.receiveStep_due hconn hdue₁
      obtain ⟨done, left, complete, coming, s', rfl, rfl, hrun, hpayloads, h'⟩ :=
        ih h₁ hconn₁ (fun f hf => hfs f (List.mem_append_right _ hf)) hrest
          (fun p hp => hpayload p (List.mem_cons_of_mem _ hp)) (htcp ▸ hdue)
      refine ⟨done₁ ++ done, left, complete₁ ++ complete, coming, s', by simp, by simp, ?_, ?_, h'⟩
      · rw [Service.runWorker, onFrame_segment env hseg, bind_of_ok hsegment]
        exact hrun
      · rw [hpayloads, hpayloads₁, List.map_append, List.append_assoc]
    · have hsegments : segmentsOf (frame :: arrivals) = segmentsOf arrivals := by
        rw [segmentsOf, List.filter_cons_of_neg (by simpa using hseg)]
        rfl
      rw [hsegments] at h hdue hpayload
      obtain ⟨done, left, complete, coming, s', hframes, hrecords, hrun, hpayloads, h'⟩ :=
        ih h hconn hfs hrest hpayload hdue
      refine ⟨done, left, complete, coming, s', hframes, hrecords, ?_, hpayloads, h'⟩
      rw [Service.runWorker, bind_of_ok (onFrame_ignored env (harp _ List.mem_cons_self) hseg)]
      exact hrun

theorem delivering_segmentStep (env : Wss.Env) (keys : Tls12.Keys) :
    SegmentStep env (Delivering env keys) :=
  fun _ _ _ _ _ _ h hfs hpayload htcp => onSegment_delivering h hfs hpayload htcp

/-- The messages that are complete when the first `n` bytes of the records have arrived. -/
def messagesIn (ossl : Tls12.OpenSsl) (keys : Tls12.Keys) (frames : List Frame)
    (records : List AppRecord) (n : Nat) : List Frame :=
  completed (fun f => f.encode.length) frames
    ((completed (fun r => r.bytes.length) records n).flatMap (AppRecord.plaintext ossl keys)).length

section Counting

variable {frames done left : List Frame} {records complete coming : List AppRecord}
  {arrived future : List UInt8}

/-- The records that a connected gateway has given on are those that are complete. -/
theorem completed_records (hsplit : records = complete ++ coming)
    (hcut : arrived ++ future = records.flatMap AppRecord.bytes)
    (hpending : Tls12.Client.Pending coming s.tls)
    (hleft : s.tls.stream.content ++ future = coming.flatMap AppRecord.bytes) :
    completed (fun r => r.bytes.length) records arrived.length = complete := by
  subst hsplit
  have hcutlen := congrArg List.length hcut
  have hleftlen := congrArg List.length hleft
  rw [List.flatMap_append, List.length_append, List.length_append] at hcutlen
  rw [List.length_append, Stream.length_content] at hleftlen
  have hsum : (complete.flatMap AppRecord.bytes).length =
      (complete.map fun r => r.bytes.length).sum := List.length_flatMap
  refine completed_append (by omega) fun r rest hcoming => ?_
  have hshort := hpending r rest hcoming
  omega

/-- The messages handed over are those that the complete records complete. -/
theorem completed_frames (hsplit : frames = done ++ left) (hrecords : records = complete ++ coming)
    (hplain : records.flatMap (AppRecord.plaintext env.ossl keys) = frames.flatMap Frame.encode)
    (h : Delivering env keys s left coming future) :
    completed (fun f => f.encode.length) frames
      (complete.flatMap (AppRecord.plaintext env.ossl keys)).length = done := by
  subst hsplit hrecords
  have hplainlen := congrArg List.length hplain
  have hleftlen := congrArg List.length h.framesLeft
  rw [List.flatMap_append, List.flatMap_append, List.length_append, List.length_append] at hplainlen
  rw [List.length_append, Stream.length_content] at hleftlen
  have hsum : (done.flatMap Frame.encode).length = (done.map fun f => f.encode.length).sum :=
    List.length_flatMap
  refine completed_append (by omega) fun f rest hleft => ?_
  have hshort := h.waiting f rest hleft
  omega

theorem messagesIn_all {ossl : Tls12.OpenSsl}
    (hplain : records.flatMap (AppRecord.plaintext ossl keys) = frames.flatMap Frame.encode) :
    messagesIn ossl keys frames records (records.flatMap AppRecord.bytes).length = frames := by
  have hrecords : (records.flatMap AppRecord.bytes).length =
      (records.map fun r => r.bytes.length).sum := List.length_flatMap
  rw [messagesIn, hrecords, completed_all, hplain, List.length_flatMap, completed_all]

end Counting

/-- A gateway with an open connection and nothing buffered. -/
structure Open (keys : Tls12.Keys) (s : Service) : Prop where
  tcp : s.tls.tcp.state = .Connected
  tls : Finished keys s.tls
  tlsEmpty : s.tls.stream.content = []
  state : s.connection.state = .Connected
  capacity : s.connection.stream.capacity = 200000
  empty : s.connection.stream.content = []

theorem Open.delivering {frames : List Frame} {records : List AppRecord} {future : List UInt8}
    (h : Open keys s)
    (hplain : records.flatMap (AppRecord.plaintext env.ossl keys) = frames.flatMap Frame.encode)
    (hcut : future = records.flatMap AppRecord.bytes) :
    Delivering env keys s frames records future := by
  refine ⟨h.tls, fun r rest _ => ?_, ?_, h.state, h.capacity, ?_, fun f rest _ => ?_⟩
  · rw [← Stream.length_content, h.tlsEmpty]
    exact List.length_pos_of_ne_nil r.bytes_ne_nil
  · rw [h.tlsEmpty, List.nil_append, hcut]
  · rw [h.empty, List.nil_append, hplain]
  · rw [← Stream.length_content, h.empty]
    exact f.length_encode_pos

/-- **Delivery**: on an open connection the gateway takes segments that are due, however the server
has cut messages into records and records into segments, without an exception; it has then handed
over the payloads of exactly the messages that are complete in the records that are complete, in
order, and of all messages when all bytes have arrived. -/
theorem messages_delivered (env : Wss.Env) (s : Service) (frames : List Frame)
    (records : List AppRecord) (arrivals : List ByteView) (future : List UInt8)
    (hserves : Tcp.Serves env.dpdk) (hopen : Open keys s) (hfs : ∀ f ∈ frames, Deliverable f)
    (hplain : records.flatMap (AppRecord.plaintext env.ossl keys) = frames.flatMap Frame.encode)
    (hcut : payloadBytes (segmentsOf arrivals) ++ future = records.flatMap AppRecord.bytes)
    (harp : ∀ frame ∈ arrivals, (EthernetPacketView.mk frame).header.type ≠ EthernetType.Arp)
    (hpayload : ∀ p ∈ segmentsOf arrivals, p.payload.size ≤ 1460)
    (hdue : Along (Tcp.Client.receiveStep env.dpdk) Tcp.Client.Due s.tls.tcp
      (segmentsOf arrivals)) :
    ∃ s', runWorker env arrivals s = .ok () s' ∧
      s'.payloads = s.payloads ++ (messagesIn env.ossl keys frames records
        (payloadBytes (segmentsOf arrivals)).length).map Frame.payload ∧
      (future = [] → s'.payloads = s.payloads ++ frames.map Frame.payload) := by
  obtain ⟨done, left, complete, coming, s', hframes, hrecords, hrun, hpayloads, h'⟩ :=
    (delivering_segmentStep env keys).runWorker hserves (hopen.delivering hplain hcut) hopen.tcp hfs
      harp hpayload hdue
  have hmessages : messagesIn env.ossl keys frames records
      (payloadBytes (segmentsOf arrivals)).length = done := by
    rw [messagesIn, completed_records hrecords hcut h'.pending h'.recordsLeft,
      completed_frames hframes hrecords hplain h']
  refine ⟨s', hrun, ?_, fun hfuture => ?_⟩
  · rw [hmessages]
    exact hpayloads
  · rw [hfuture, List.append_nil] at hcut
    rw [hcut, messagesIn_all hplain] at hmessages
    rw [hmessages]
    exact hpayloads

/-- The record of a server whose keystream is zero, with a frame of one byte in it. -/
def zeroRecord : AppRecord :=
  ⟨.replicate 8 0, (zeroFrame 1).encode ++ List.replicate 16 0, by decide, by decide⟩

/-- A gateway behind the handshakes. -/
def openService : Service where
  connection :=
    { Wss.Client.init ⟨[], []⟩ Tls12.Client.handshakenClient.tcp with
      tls := Tls12.Client.handshakenClient
      state := .Connected }
  localHost := Tcp.Client.sampleConnection.session.src
  payloads := []

/-- The record in two segments. -/
def recordInTwo : List ByteView :=
  [(Tcp.Client.segment 128 (zeroRecord.bytes.take 10)).ip.eth.rawBytes,
    (Tcp.Client.segment 138 (zeroRecord.bytes.drop 10)).ip.eth.rawBytes]

theorem handshakenClient_keyed :
    Finished Tls12.Client.handshakenClient.keys Tls12.Client.handshakenClient :=
  ⟨Tls12.Client.handshakenClient_reachable.keyed, Tls12.Client.handshakenClient_finished.1, rfl⟩

theorem openService_open : Open Tls12.Client.handshakenClient.keys openService := by
  have htls : openService.tls = Tls12.Client.handshakenClient := by
    rw [Service.tls, openService]
  refine ⟨?_, htls.symm ▸ handshakenClient_keyed, ?_, rfl, ?_, ?_⟩
  all_goals decide +kernel

theorem messages_delivered_in_two :
    ∃ s', runWorker Client.sampleEnv recordInTwo openService = .ok () s' ∧
      s'.payloads = [[0]] := by
  obtain ⟨s', hrun, -, hall⟩ := messages_delivered Client.sampleEnv openService [zeroFrame 1]
    [zeroRecord] recordInTwo [] Tcp.sampleDpdk_serves openService_open
    (by
      intro f hf
      rw [List.mem_singleton.mp hf]
      exact ⟨by decide, by decide, by decide⟩)
    (by decide +kernel) (by decide +kernel) (by decide +kernel) (by decide +kernel)
    (by
      refine ⟨⟨?_, ?_, ?_, ⟨?_, ?_⟩, ?_⟩, ⟨?_, ?_, ?_, ⟨?_, ?_⟩, ?_⟩, trivial⟩
      all_goals first | decide +kernel | (unfold Tcp.Client.WindowCovers; decide +kernel))
  exact ⟨s', hrun, hall rfl⟩

end WsGateway.Gateway.Service
