import WsGateway.Verify.Gateway.EndToEnd
import WsGateway.Verify.Wss.Upgrade

/-!
# From the response to the messages

After its upgrade request the gateway waits for the response, and the server may send messages right
behind it, in the same record or the same segment. `accept_handshake` takes the response off when
the end of its header has come, and what stands behind it is handed over in the same round.
-/

namespace WsGateway.Network.Wss

open Library

open Client (statusLine headerEnd)

/-- The header of a 101 response, up to its end. -/
structure Response where
  bytes : List UInt8
  status : statusLine <+: bytes
  ends : FirstAt headerEnd bytes (bytes.length - 4)
  size : bytes.length ≤ 180000

namespace Response

variable {R : Response} {x y z : List UInt8}

theorem length_headerEnd : headerEnd.length = 4 := by decide

theorem four_le (R : Response) : 4 ≤ R.bytes.length := by
  have hle := Client.FirstAt.le R.ends (by decide)
  rw [length_headerEnd] at hle
  omega

/-- A part of the response does not have its end. -/
theorem not_headerEnd (h : x ++ y = R.bytes ++ z) (hlt : x.length < R.bytes.length) :
    ¬ headerEnd <:+: x := by
  rintro ⟨before, behind, rfl⟩
  have hle : (before ++ headerEnd ++ behind) <+: R.bytes :=
    List.prefix_of_prefix_length_le (List.prefix_append _ y) (h ▸ List.prefix_append _ z)
      (Nat.le_of_lt hlt)
  obtain ⟨rest, hbytes⟩ := hle
  have hlen : before.length < R.bytes.length - 4 := by
    rw [List.length_append, List.length_append, length_headerEnd] at hlt
    omega
  refine R.ends.2 before.length hlen ?_
  rw [← hbytes, List.append_assoc, List.append_assoc, List.drop_left]
  exact List.prefix_append _ _

/-- The first header end behind the response is its own. -/
theorem firstAt_eq {i : Nat} (h : FirstAt headerEnd (R.bytes ++ z) i) : i + 4 = R.bytes.length := by
  have hfour := R.four_le
  have hat : headerEnd <+: (R.bytes ++ z).drop (R.bytes.length - 4) := by
    rw [List.drop_append_of_le_length (by omega)]
    exact R.ends.1.trans (List.prefix_append _ _)
  have hle : i ≤ R.bytes.length - 4 := by
    by_contra hlt
    exact h.2 _ (Nat.lt_of_not_le hlt) hat
  have hge : R.bytes.length - 4 ≤ i := by
    by_contra hlt
    refine R.ends.2 i (Nat.lt_of_not_le hlt) ?_
    have hfirst := h.1
    rw [List.drop_append_of_le_length (by omega)] at hfirst
    refine List.prefix_of_prefix_length_le hfirst (List.prefix_append _ z) ?_
    rw [length_headerEnd, List.length_drop]
    omega
  omega

end Response

namespace Client

variable {env : Env} {c c₁ : Client} {R : Response}

/-- A response that is not complete is waited for. -/
theorem acceptHandshake_waits {y z : List UInt8} (hstate : c.state = .HttpHandshake)
    (h : c.stream.content ++ y = R.bytes ++ z) (hlt : c.stream.content.length < R.bytes.length) :
    acceptHandshake c = .ok false c :=
  acceptHandshake_false hstate fun hfound => R.not_headerEnd h hlt hfound.2

/-- A complete response is taken off. -/
theorem acceptHandshake_takes {z : List UInt8} (hstate : c.state = .HttpHandshake)
    (h : c.stream.content = R.bytes ++ z) :
    ∃ stream, acceptHandshake c = .ok true { c with stream := stream } ∧ stream.content = z ∧
      stream.capacity = c.stream.capacity := by
  have hstatus : statusLine <:+: c.stream.content := by
    rw [h]
    exact (R.status.trans (List.prefix_append _ _)).isInfix
  have hend : headerEnd <:+: c.stream.content := by
    rw [h]
    exact (R.ends.1.isInfix.trans (List.drop_suffix _ _).isInfix).trans
      (List.prefix_append _ _).isInfix
  obtain ⟨i, stream, hfirst, hcontent, hcap, haccept⟩ := acceptHandshake_true hstate hstatus hend
  rw [h] at hfirst
  refine ⟨stream, haccept, ?_, hcap⟩
  rw [hcontent, h, R.firstAt_eq hfirst, List.drop_left]

/-- The rest of `next_message` when the response is awaited. -/
theorem nextMessage_responding (hstate : c.state = .HttpHandshake)
    (hfinished : c₁.tls.handshakeState = .ServerFinished)
    (hall : receiveAll env (c.tls.stream.size + 1) c = .ok () c₁) :
    (acceptHandshake c₁ = .ok false c₁ → nextMessage env c = .ok none c₁) ∧
      ∀ c₂, acceptHandshake c₁ = .ok true c₂ →
        nextMessage env c = takeMessage { c₂ with state := .Connected } := by
  have hstate₁ : c₁.state = .HttpHandshake := (receiveAll_refilled hall).state.trans hstate
  have hcomplete : c₁.tls.isHandshakeComplete = true := by
    rw [Tls12.Client.isHandshakeComplete, hfinished]
    rfl
  constructor
  · intro haccept
    have hadvance : advanceState env c₁ = .ok false c₁ := by
      rw [advanceState, bind_of_ok (get_apply c₁), if_pos hcomplete, hstate₁]
      dsimp only
      rw [bind_of_ok haccept]
      rfl
    rw [nextMessage, bind_of_ok (get_apply c), bind_of_ok hall, bind_of_ok hadvance]
    rfl
  · intro c₂ haccept
    have hadvance : advanceState env c₁ = .ok true { c₂ with state := .Connected } := by
      rw [advanceState, bind_of_ok (get_apply c₁), if_pos hcomplete, hstate₁]
      dsimp only
      rw [bind_of_ok haccept]
      rfl
    rw [nextMessage, bind_of_ok (get_apply c), bind_of_ok hall, bind_of_ok hadvance]
    rfl

end Client

end WsGateway.Network.Wss

namespace WsGateway.Gateway.Service

open Library Network Wss

open Tls12 (AppRecord)

open Tls12.Client (Finished)

variable {env : Wss.Env} {keys : Tls12.Keys} {s : Service} {R : Response} {frames : List Frame}
  {records : List AppRecord} {future : List UInt8}

/-- Between two segments, while the response is awaited: it, these frames, and these records and
bytes are still to come, apart from what the streams hold. -/
structure Upgrading (env : Wss.Env) (keys : Tls12.Keys) (R : Response) (s : Service)
    (frames : List Frame) (records : List AppRecord) (future : List UInt8) : Prop where
  tls : Finished keys s.tls
  pending : Tls12.Client.Pending records s.tls
  recordsLeft : s.tls.stream.content ++ future = records.flatMap AppRecord.bytes
  state : s.connection.state = .HttpHandshake
  capacity : s.connection.stream.capacity = 200000
  bytesLeft : s.connection.stream.content ++
    records.flatMap (AppRecord.plaintext env.ossl keys) = R.bytes ++ frames.flatMap Frame.encode
  waiting : s.connection.stream.content.length < R.bytes.length

/-- The response is awaited and with it all messages, or the rest of the messages is. -/
def Serving (env : Wss.Env) (keys : Tls12.Keys) (R : Response) (messages : List Frame) (s : Service)
    (frames : List Frame) (records : List AppRecord) (future : List UInt8) : Prop :=
  (frames = messages ∧ Upgrading env keys R s frames records future) ∨
    Delivering env keys s frames records future

/-- The inner loop depends on what `next_message` does to the connection. -/
theorem drain_congr {c : Wss.Client} {n : Nat}
    (h : Client.nextMessage env s.connection = Client.nextMessage env c) :
    drain env (n + 1) s = drain env (n + 1) { s with connection := c } := by
  have hcall : onConnection (Client.nextMessage env) s =
      onConnection (Client.nextMessage env) { s with connection := c } := by
    unfold onConnection zoom
    rw [h]
  rw [drain, bind_apply, bind_apply, hcall]

/-- **One segment** while the response is awaited: it is still awaited afterwards, or it was taken
off, and the payloads of the messages behind it were handed over. -/
theorem onSegment_upgrading {p : Tcp.PacketView} {t : Tcp.Client}
    (h : Upgrading env keys R s frames records (p.payload.toList ++ future))
    (hfs : ∀ f ∈ frames, Deliverable f) (hpayload : p.payload.size ≤ 1460)
    (htcp : Tcp.Client.processPacket env.dpdk p s.tls.tcp = .ok () t) :
    ∃ done left complete coming s', frames = done ++ left ∧ records = complete ++ coming ∧
      onSegment env p s = .ok () s' ∧ s'.payloads = s.payloads ++ done.map Frame.payload ∧
      s'.tls.tcp = t ∧ ((done = [] ∧ Upgrading env keys R s' left coming future) ∨
        Delivering env keys s' left coming future) := by
  have hwaiting := h.waiting
  have hRsize := R.size
  have hcapacity := h.capacity
  rw [Stream.length_content] at hwaiting
  obtain ⟨complete, coming, c', c₁, rfl, hreceived⟩ := Client.segment_received (c := s.connection)
    h.tls h.pending h.recordsLeft (by omega) hpayload htcp
  have hcut : c₁.stream.content ++ coming.flatMap (AppRecord.plaintext env.ossl keys) =
      R.bytes ++ frames.flatMap Frame.encode := by
    rw [hreceived.content, List.append_assoc, ← List.flatMap_append]
    exact h.bytesLeft
  have hstate : c'.state = .HttpHandshake := hreceived.state.trans h.state
  have hstate₁ : c₁.state = .HttpHandshake := hreceived.refilled.state.trans h.state
  have hcap₁ : c₁.stream.capacity = 200000 := hreceived.refilled.capacity.trans hcapacity
  obtain ⟨hwaits, htakes⟩ := Client.nextMessage_responding hstate hreceived.tls.state
    hreceived.received
  by_cases hshort : c₁.stream.content.length < R.bytes.length
  · have hnext := hwaits (Client.acceptHandshake_waits hstate₁ hcut hshort)
    have hdrain : drain env (buffered { s with connection := c' } + 1) { s with connection := c' } =
        .ok () { s with connection := c₁ } := drain_of_none hnext
    refine ⟨[], frames, complete, coming, { s with connection := c₁ }, rfl, rfl,
      onSegment_of_drain (zoom_of_ok hreceived.processed) hdrain,
      (List.append_nil _).symm, hreceived.tcp, Or.inl ⟨rfl, hreceived.tls, hreceived.pending,
        hreceived.recordsLeft, hstate₁, hcap₁, hcut, hshort⟩⟩
  · -- the response is complete, and `z` stands behind it
    obtain ⟨z, hz, hrest⟩ : ∃ z, c₁.stream.content = R.bytes ++ z ∧
        z ++ coming.flatMap (AppRecord.plaintext env.ossl keys) = frames.flatMap Frame.encode := by
      obtain ⟨z, hz, hframes⟩ | ⟨z, hz, hframes⟩ := List.append_eq_append_iff.mp hcut
      · have hlen := congrArg List.length hz
        rw [List.length_append] at hlen
        have hnil : z = [] := List.eq_nil_of_length_eq_zero (by omega)
        subst hnil
        exact ⟨[], by simpa using hz.symm, by simpa using hframes⟩
      · exact ⟨z, hz, hframes.symm⟩
    obtain ⟨stream, haccept, hcontent, hcap⟩ := Client.acceptHandshake_takes hstate₁ hz
    have hnext := htakes _ haccept
    generalize hc₂ : ({ c₁ with stream := stream, state := .Connected } : Wss.Client) = c₂ at hnext
    have htls₂ : c₂.tls = c₁.tls := by rw [← hc₂]
    have hstream₂ : c₂.stream = stream := by rw [← hc₂]
    have hstate₂ : c₂.state = .Connected := by rw [← hc₂]
    have hfinished₂ : Finished keys c₂.tls := htls₂ ▸ hreceived.tls
    have hpending₂ : Tls12.Client.Pending coming c₂.tls := htls₂ ▸ hreceived.pending
    have hleft₂ : c₂.tls.stream.content ++ future = coming.flatMap AppRecord.bytes :=
      htls₂ ▸ hreceived.recordsLeft
    have hwait₂ : Client.Waiting env c₂ := by
      unfold Client.Waiting
      rw [htls₂]
      exact hreceived.waiting
    have hall₂ : Client.receiveAll env (c₂.tls.stream.size + 1) c₂ = .ok () c₂ :=
      Client.receiveAll_waiting hwait₂ _
    rw [← Client.nextMessage_eq hstate₂ hall₂] at hnext
    have hcontent₂ : c₂.stream.content = z := hstream₂ ▸ hcontent
    have hcap₂ : c₂.stream.capacity = 200000 := (congrArg Stream.capacity hstream₂).trans
      (hcap.trans hcap₁)
    rw [← hcontent₂] at hrest
    obtain ⟨taken, left, y, rfl, htaken, hleft, hless⟩ := exists_frame_cut hrest
    obtain ⟨stream', hdrain, hstream', hcap'⟩ := drain_taken (s := { s with connection := c₂ })
      hstate₂ hcap₂ hall₂ hwait₂ htaken (fun f hf => hfs f (List.mem_append_left _ hf))
      (incomplete_of_left (fun f hf => hfs f (List.mem_append_right _ hf)) hleft hless)
      (n := buffered { s with connection := c' } + 1) (by
        have hle := congrArg List.length htaken
        have hlen := congrArg List.length hreceived.content
        have hlen' := congrArg List.length hz
        have hplain := hreceived.plain
        have hsecond : s.connection.stream.content.length = c'.stream.size := by
          rw [Stream.length_content, hreceived.stream]
        rw [List.length_append] at hle hlen hlen'
        rw [hcontent₂] at hle
        rw [buffered]
        change _ < c'.tls.stream.size + c'.stream.size + 1
        omega)
    have hsame : drain env (buffered { s with connection := c' } + 1) { s with connection := c' } =
        drain env (buffered { s with connection := c' } + 1) { s with connection := c₂ } :=
      drain_congr (s := { s with connection := c' }) hnext
    have hdrain' := hsame.trans hdrain
    refine ⟨taken, left, complete, coming, _, rfl, rfl,
      onSegment_of_drain (zoom_of_ok hreceived.processed) hdrain', by simp [Service.takeOut],
      (congrArg Tls12.Client.tcp htls₂).trans hreceived.tcp, Or.inr ⟨hfinished₂, hpending₂, hleft₂,
        hstate₂, hcap'.trans hcap₂, hstream' ▸ hleft, ?_⟩⟩
    intro f rest hrest'
    rw [← Stream.length_content]
    exact hstream' ▸ hless f rest hrest'

theorem serving_segmentStep (env : Wss.Env) (keys : Tls12.Keys) (R : Response)
    (messages : List Frame) : SegmentStep env (Serving env keys R messages) := by
  intro s p t frames records future h hfs hpayload htcp
  rcases h with ⟨rfl, h⟩ | h
  · obtain ⟨done, left, complete, coming, s', hframes, hrecords, hsegment, hpayloads, hsame, h'⟩ :=
      onSegment_upgrading h hfs hpayload htcp
    refine ⟨done, left, complete, coming, s', hframes, hrecords, hsegment, hpayloads, hsame, ?_⟩
    rcases h' with ⟨rfl, h'⟩ | h'
    · exact Or.inl ⟨hframes.symm, h'⟩
    · exact Or.inr h'
  · obtain ⟨done, left, complete, coming, s', hframes, hrecords, hsegment, hpayloads, hsame, h'⟩ :=
      onSegment_delivering h hfs hpayload htcp
    exact ⟨done, left, complete, coming, s', hframes, hrecords, hsegment, hpayloads, hsame,
      Or.inr h'⟩

/-! ## The run -/

/-- A gateway that has sent its upgrade request and has nothing buffered. -/
structure Requested (keys : Tls12.Keys) (s : Service) : Prop where
  tcp : s.tls.tcp.state = .Connected
  tls : Finished keys s.tls
  tlsEmpty : s.tls.stream.content = []
  state : s.connection.state = .HttpHandshake
  capacity : s.connection.stream.capacity = 200000
  empty : s.connection.stream.content = []

theorem Requested.upgrading (h : Requested keys s)
    (hplain : records.flatMap (AppRecord.plaintext env.ossl keys) =
      R.bytes ++ frames.flatMap Frame.encode)
    (hcut : future = records.flatMap AppRecord.bytes) :
    Upgrading env keys R s frames records future := by
  have hfour := R.four_le
  refine ⟨h.tls, fun r rest _ => ?_, ?_, h.state, h.capacity, ?_, ?_⟩
  · rw [← Stream.length_content, h.tlsEmpty]
    exact List.length_pos_of_ne_nil r.bytes_ne_nil
  · rw [h.tlsEmpty, List.nil_append, hcut]
  · rw [h.empty, List.nil_append, hplain]
  · rw [h.empty, List.length_nil]
    omega

/-- The bytes of the server's application data in these records that `n` bytes complete. -/
def plainLength (ossl : Tls12.OpenSsl) (keys : Tls12.Keys) (records : List AppRecord) (n : Nat) :
    Nat :=
  ((completed (fun r => r.bytes.length) records n).flatMap (AppRecord.plaintext ossl keys)).length

/-- **Upgrade and delivery**: a gateway that waits for the response takes segments that are due,
however the server has cut the response and its messages into records and records into segments,
without an exception. It counts as connected exactly if the response is complete in the records that
are complete, and has then handed over the payloads of exactly the messages that are complete behind
it, in order. -/
theorem response_and_messages_delivered (env : Wss.Env) (s : Service) (R : Response)
    (frames : List Frame) (records : List AppRecord) (arrivals : List ByteView)
    (future : List UInt8) (hserves : Tcp.Serves env.dpdk) (hrequested : Requested keys s)
    (hfs : ∀ f ∈ frames, Deliverable f)
    (hplain : records.flatMap (AppRecord.plaintext env.ossl keys) =
      R.bytes ++ frames.flatMap Frame.encode)
    (hcut : payloadBytes (segmentsOf arrivals) ++ future = records.flatMap AppRecord.bytes)
    (harp : ∀ frame ∈ arrivals, (EthernetPacketView.mk frame).header.type ≠ EthernetType.Arp)
    (hpayload : ∀ p ∈ segmentsOf arrivals, p.payload.size ≤ 1460)
    (hdue : Along (Tcp.Client.receiveStep env.dpdk) Tcp.Client.Due s.tls.tcp
      (segmentsOf arrivals)) :
    let n := plainLength env.ossl keys records (payloadBytes (segmentsOf arrivals)).length
    ∃ s', runWorker env arrivals s = .ok () s' ∧
      (s'.connection.state = .Connected ↔ R.bytes.length ≤ n) ∧
      s'.payloads = s.payloads ++
        (completed (fun f => f.encode.length) frames (n - R.bytes.length)).map Frame.payload := by
  intro n
  obtain ⟨done, left, complete, coming, s', hframes, rfl, hrun, hpayloads, h'⟩ :=
    (serving_segmentStep env keys R frames).runWorker hserves
      (Or.inl ⟨rfl, hrequested.upgrading hplain hcut⟩) hrequested.tcp hfs harp hpayload hdue
  have hlen := congrArg List.length hplain
  rw [List.flatMap_append, List.length_append, List.length_append] at hlen
  refine ⟨s', hrun, ?_⟩
  rcases h' with ⟨hleft, h'⟩ | h'
  · -- the response is not complete, and nothing was handed over
    have hn : n = (complete.flatMap (AppRecord.plaintext env.ossl keys)).length :=
      congrArg (fun records => (records.flatMap (AppRecord.plaintext env.ossl keys)).length)
        (completed_records rfl hcut h'.pending h'.recordsLeft)
    have hbytes := congrArg List.length h'.bytesLeft
    have hwaiting := h'.waiting
    rw [List.length_append, List.length_append, hleft] at hbytes
    obtain rfl : done = [] := by
      rw [hleft] at hframes
      exact List.append_left_eq_self.mp hframes.symm
    have hshort : n < R.bytes.length := by omega
    refine ⟨?_, ?_⟩
    · rw [h'.state]
      exact ⟨fun hconn => (by cases hconn), fun hle => absurd hshort (Nat.not_lt.mpr hle)⟩
    · have hnone : completed (fun f => f.encode.length) ([] ++ frames) (n - R.bytes.length) = [] := by
        refine completed_append (Nat.zero_le _) fun f rest _ => ?_
        have hpos := f.length_encode_pos
        rw [Nat.sub_eq_zero_of_le (Nat.le_of_lt hshort)]
        simpa using hpos
      rw [List.nil_append] at hnone
      rw [hnone]
      exact hpayloads
  · have hn : n = (complete.flatMap (AppRecord.plaintext env.ossl keys)).length :=
      congrArg (fun records => (records.flatMap (AppRecord.plaintext env.ossl keys)).length)
        (completed_records rfl hcut h'.pending h'.recordsLeft)
    have hbytes := congrArg List.length h'.framesLeft
    have hsum : (done.flatMap Frame.encode).length = (done.map fun f => f.encode.length).sum :=
      List.length_flatMap
    rw [List.length_append, Stream.length_content] at hbytes
    rw [hframes, List.flatMap_append, List.length_append] at hlen
    refine ⟨⟨fun _ => by omega, fun _ => h'.state⟩, ?_⟩
    rw [hframes, completed_append (by omega)]
    · exact hpayloads
    · intro f rest hleft
      have hshort := h'.waiting f rest hleft
      omega

/-- The shortest response. -/
def shortResponse : Response where
  bytes := ascii "HTTP/1.1 101\r\n\r\n"
  status := by decide
  ends := by
    refine ⟨by decide, fun j hj => ?_⟩
    have hcheck : ∀ j < 12, ¬ Client.headerEnd <+: (ascii "HTTP/1.1 101\r\n\r\n").drop j := by decide
    exact hcheck j hj
  size := by decide

/-- A gateway that waits for the response. -/
def requestedService : Service where
  connection :=
    { Wss.Client.init ⟨[], []⟩ Tls12.Client.handshakenClient.tcp with
      tls := Tls12.Client.handshakenClient
      state := .HttpHandshake }
  localHost := Tcp.Client.sampleConnection.session.src
  payloads := []

/-- The record of a server whose keystream is zero, with the response and a frame of one byte. -/
def responseRecord : AppRecord :=
  ⟨.replicate 8 0, shortResponse.bytes ++ (zeroFrame 1).encode ++ List.replicate 16 0, by decide,
    by decide⟩

/-- The record in two segments, cut within the response. -/
def responseInTwo : List ByteView :=
  [(Tcp.Client.segment 128 (responseRecord.bytes.take 20)).ip.eth.rawBytes,
    (Tcp.Client.segment 148 (responseRecord.bytes.drop 20)).ip.eth.rawBytes]

theorem requestedService_requested :
    Requested Tls12.Client.handshakenClient.keys requestedService := by
  have htls : requestedService.tls = Tls12.Client.handshakenClient := by
    rw [Service.tls, requestedService]
  refine ⟨?_, htls.symm ▸ handshakenClient_keyed, ?_, rfl, ?_, ?_⟩
  all_goals decide +kernel

theorem response_and_message_in_two :
    ∃ s', runWorker Client.sampleEnv responseInTwo requestedService = .ok () s' ∧
      s'.connection.state = .Connected ∧ s'.payloads = [[0]] := by
  obtain ⟨s', hrun, hstate, hpayloads⟩ := response_and_messages_delivered Client.sampleEnv
    requestedService shortResponse [zeroFrame 1] [responseRecord] responseInTwo []
    Tcp.sampleDpdk_serves requestedService_requested
    (by
      intro f hf
      rw [List.mem_singleton.mp hf]
      exact ⟨by decide, by decide, by decide⟩)
    (by decide +kernel) (by decide +kernel) (by decide +kernel) (by decide +kernel)
    (by
      refine ⟨⟨?_, ?_, ?_, ⟨?_, ?_⟩, ?_⟩, ⟨?_, ?_, ?_, ⟨?_, ?_⟩, ?_⟩, trivial⟩
      all_goals first | decide +kernel | (unfold Tcp.Client.WindowCovers; decide +kernel))
  refine ⟨s', hrun, hstate.mpr (by decide +kernel), hpayloads.trans ?_⟩
  decide +kernel

end WsGateway.Gateway.Service
