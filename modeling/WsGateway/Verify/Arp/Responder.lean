import WsGateway.Network.Arp
import WsGateway.Verify.Dpdk.SendQueue
import WsGateway.Verify.Tcp.Frame

/-!
# The ARP responder

The handler answers a request for its address with one reply, whose bytes follow
from the request's sender and its own host, and a reply makes no handler send. Its
length test is made on the size of the Ethernet payload, a subtraction that wraps
for frames shorter than an Ethernet header. Such a frame passes the test, and what
lies behind it in memory is read as the ARP header.
-/

namespace WsGateway.Network.Arp

open Library

/-! ## Frames -/

@[simp] theorem Header.length_bytes (h : Header) : h.bytes.length = 28 := by
  simp [Header.bytes]

/-- A header laid out in memory is read back. -/
theorem Header.read_of_holds {v : ByteView} {h : Header} (hv : v.mem.Holds v.data h.bytes) :
    Header.read v = h := by
  obtain ⟨hardwareType, protocolType, hardwareLen, protocolLen, operation, senderMac, senderIp,
    targetMac, targetIp⟩ := h
  unfold Header.bytes at hv
  simp only [Memory.holds_append, Memory.holds_cons, List.length_append, List.length_cons,
    List.length_nil, length_beBytes, Vector.length_toList, Nat.add_assoc, Nat.reduceAdd] at hv
  obtain ⟨⟨⟨⟨⟨⟨⟨hhw, hproto⟩, hhlen, hplen, -⟩, hop⟩, hsmac⟩, hsip⟩, htmac⟩, htip⟩ := hv
  have hhw' := hhw.be (by simpa using hardwareType.toNat_lt)
  have hproto' := hproto.be (by simpa using protocolType.toNat_lt)
  have hop' := hop.be (by simpa using operation.toNat_lt)
  simp only [Header.read, ByteView.get, ByteView.be, ByteView.array, Nat.add_zero,
    Header.mk.injEq]
  refine ⟨?_, ?_, hhlen, hplen, ?_, ?_, ?_, ?_, ?_⟩
  · rw [hhw', UInt16.ofNat_toNat]
  · rw [hproto', UInt16.ofNat_toNat]
  · rw [hop', UInt16.ofNat_toNat]
  · simpa [Nat.add_assoc] using hsmac.vector
  · simpa [Nat.add_assoc] using hsip.vector
  · simpa [Nat.add_assoc] using htmac.vector
  · simpa [Nat.add_assoc] using htip.vector

/-- The bytes of an ARP frame. -/
def frame (dstMac : Mac) (hdr : Header) : List UInt8 :=
  EthernetHeader.bytes ⟨dstMac, hdr.senderMac, .Arp⟩ ++ hdr.bytes

/-- The header that `init_request` and `init_reply` write. -/
def etherHeader (operation : Operation) (senderMac : Mac) (senderIp : Ip) (targetMac : Mac)
    (targetIp : Ip) : Header where
  hardwareType := HardwareType.Ethernet
  protocolType := ProtocolType.Ipv4
  hardwareLen := 6
  protocolLen := 4
  operation := operation
  senderMac := senderMac
  senderIp := senderIp
  targetMac := targetMac
  targetIp := targetIp

@[simp] theorem length_frame (dstMac : Mac) (hdr : Header) : (frame dstMac hdr).length = 42 := by
  simp [frame]

/-- A view over an ARP frame reads its header, whatever its size. -/
theorem header_of_holds {raw : ByteView} {dstMac : Mac} {hdr : Header}
    (h : raw.mem.Holds raw.data (frame dstMac hdr)) : PacketView.header ⟨⟨raw⟩⟩ = hdr := by
  rw [frame, Memory.holds_append, EthernetHeader.length_bytes] at h
  exact Header.read_of_holds h.2

/-- A view whose first bytes are an ARP frame, perhaps padded, holds it. -/
theorem holds_of_take {raw : ByteView} {dstMac : Mac} {hdr : Header}
    (h : raw.toList.take 42 = frame dstMac hdr) :
    42 ≤ raw.size ∧ raw.mem.Holds raw.data (frame dstMac hdr) := by
  have hle : 42 ≤ raw.size := by
    have hlength := congrArg List.length h
    rw [List.length_take, ByteView.length_toList, length_frame] at hlength
    omega
  refine ⟨hle, ?_⟩
  rw [ByteView.toList, Memory.take_bytes _ hle] at h
  rw [Memory.Holds, length_frame]
  exact h

/-- `init_request` and `init_reply` write a whole frame into a buffer that has room for an Ethernet
header. -/
theorem initOperation_apply (v : PacketView) (operation : Operation) (senderMac targetMac : Mac)
    (senderIp targetIp : Ip) :
    v.initOperation operation senderMac senderIp targetMac targetIp =
      if EthernetHeader.sizeof ≤ v.ethView.data.size then
        .ok ⟨⟨v.ethView.data.write 0
          (frame targetMac (etherHeader operation senderMac senderIp targetMac targetIp))⟩⟩
      else .error (.runtimeError "ethernet packet is not valid") := by
  obtain ⟨⟨mem, data, size⟩⟩ := v
  unfold PacketView.initOperation EthernetPacketView.init EthernetPacketView.isValid
  simp only [ByteView.write, decide_eq_true_eq, ge_iff_le]
  by_cases hsize : EthernetHeader.sizeof ≤ size
  · rw [if_pos hsize, if_pos hsize]
    have hwrite : mem.write (data + 0)
        (frame targetMac (etherHeader operation senderMac senderIp targetMac targetIp)) =
        (mem.write (data + 0) (EthernetHeader.bytes ⟨targetMac, senderMac, .Arp⟩)).write
          (data + 0 + 14) (etherHeader operation senderMac senderIp targetMac targetIp).bytes := by
      rw [frame, Memory.write_append, EthernetHeader.length_bytes]
      rfl
    rw [hwrite]
    rfl
  · rw [if_neg hsize, if_neg hsize]
    rfl

/-- A whole frame with such a header is valid. -/
theorem isValid_of_toList {raw : ByteView} {operation : Operation} {dstMac senderMac targetMac : Mac}
    {senderIp targetIp : Ip}
    (hop : operation = Operation.Request ∨ operation = Operation.Reply) (hsize : raw.size = 42)
    (h : raw.toList =
      frame dstMac (etherHeader operation senderMac senderIp targetMac targetIp)) :
    PacketView.isValid ⟨⟨raw⟩⟩ = true := by
  have htake : raw.toList.take 42 = raw.toList := List.take_of_length_le (by simp [hsize])
  have hheader := header_of_holds (holds_of_take (htake.trans h)).2
  have hroom : Header.sizeof ≤ sizeSub raw.size EthernetHeader.sizeof := by
    rw [hsize]
    decide
  simp [PacketView.isValid, hheader, etherHeader, EthernetPacketView.payload, hroom, hop]

/-! ## Sending one packet -/

section Sending

variable {dpdk : Dpdk} {d d' : Device} {packet : ByteView} {mem : Memory} {size : Nat}

/-- One packet more was given to the device, behind those queued before, and the card was offered
the queue; a card that takes a packet has it, if nothing was queued before. -/
structure Sends (dpdk : Dpdk) (d d' : Device) (packet : ByteView) : Prop where
  queued : d'.transmitted ++ d'.sendMbufs = d.transmitted ++ d.sendMbufs ++ [packet]
  offered : d.bursts < d'.bursts
  taken : d.sendMbufs = [] → dpdk.ethTxBurst d.bursts ≠ 0 →
    d'.transmitted = d.transmitted ++ [packet]

/-- The device with a packet added. -/
def queuedWith (dpdk : Dpdk) (d : Device) (packet : ByteView) : Device :=
  { d.madeRoom dpdk with
    allocs := d.allocs + 1
    sendMbufs := (d.madeRoom dpdk).sendMbufs ++ [packet] }

/-- Queueing a packet, filling it through the view that was returned, and flushing. -/
theorem enqueue_fill_flush {k : ByteView → Prog Device Unit}
    (halloc : dpdk.pktmbufAlloc d.allocs = some mem)
    (hk : k ⟨mem, 0, size⟩ = (do Device.writeLast packet; Device.flushSendQueue dpdk)) :
    (Device.enqueueForSend dpdk size >>= k) d =
      .ok () ((queuedWith dpdk d packet).flushed dpdk) := by
  have henqueue := Device.enqueueForSend_apply dpdk size d
  rw [halloc] at henqueue
  rw [bind_of_ok henqueue, hk, Device.writeLast, bind_of_ok (modify_apply _ _),
    Device.flushSendQueue_apply, if_neg (by simp)]
  simp [queuedWith]

theorem sends_queuedWith (dpdk : Dpdk) (d : Device) (packet : ByteView) :
    Sends dpdk d ((queuedWith dpdk d packet).flushed dpdk) packet := by
  constructor
  · rw [Device.flushed_packets, queuedWith, ← List.append_assoc, Device.madeRoom_packets]
  · have hbursts : d.bursts ≤ (d.madeRoom dpdk).bursts := by
      unfold Device.madeRoom
      split
      · exact Nat.le_succ _
      · exact Nat.le_refl _
    exact Nat.lt_succ_of_le hbursts
  · intro hempty hburst
    have hroom : d.madeRoom dpdk = d := by
      rw [Device.madeRoom, if_neg (by simp [hempty, Device.kSendBurstSize])]
    have hone : min (dpdk.ethTxBurst d.bursts) 1 = 1 := by omega
    simp [Device.flushed, Device.accepted, queuedWith, hroom, hempty, hone]

end Sending

/-! ## The handler -/

/-- An Ethernet and IPv4 request for this address. -/
def Header.Asks (h : Header) (ip : Ip) : Prop :=
  h.hardwareType = HardwareType.Ethernet ∧ h.protocolType = ProtocolType.Ipv4 ∧
    h.hardwareLen = 6 ∧ h.protocolLen = 4 ∧ h.operation = Operation.Request ∧ h.targetIp = ip

instance (h : Header) (ip : Ip) : Decidable (h.Asks ip) :=
  inferInstanceAs (Decidable (_ ∧ _))

/-- The header that the handler reads in a frame. -/
def headerOf (raw : ByteView) : Header := PacketView.header ⟨⟨raw⟩⟩

/-- The reply of a host to a header. -/
def replyTo (host : Host) (h : Header) : List UInt8 :=
  frame h.senderMac (etherHeader .Reply host.mac host.ip h.senderMac h.senderIp)

namespace ArpHandler

section Handler

variable {dpdk : Dpdk} {host : Host} {raw : ByteView} {d : Device} {mem : Memory}

/-- What the handler takes for a request to itself: its length test is on the wrapped size. -/
def Taken (host : Host) (raw : ByteView) : Prop :=
  Header.sizeof ≤ sizeSub raw.size EthernetHeader.sizeof ∧ (headerOf raw).Asks host.ip

/-- The part of `handle_packet` that answers a header. -/
def answer (dpdk : Dpdk) (host : Host) (h : Header) : Prog Device Unit := do
  let replyBuffer ← Device.enqueueForSend dpdk PacketView.predictSize
  match PacketView.initReply ⟨⟨replyBuffer⟩⟩ host.mac host.ip h.senderMac h.senderIp with
  | .error e => throw e
  | .ok reply =>
    Device.writeLast reply.ethView.data
    Device.flushSendQueue dpdk

theorem handlePacket_taken (dpdk : Dpdk) (h : Taken host raw) :
    handlePacket dpdk host raw = answer dpdk host (headerOf raw) := by
  obtain ⟨hroom, hhw, hproto, hhlen, hplen, hop, hip⟩ := h
  unfold headerOf at hhw hproto hhlen hplen hop hip
  have hvalid : PacketView.isValid ⟨⟨raw⟩⟩ = true := by
    simp [PacketView.isValid, EthernetPacketView.payload, hhw, hproto, hhlen, hplen, hop, hroom]
  simp only [handlePacket, hvalid, hop, hip, Bool.not_true, Bool.false_eq_true, if_false,
    beq_self_eq_true, Bool.and_self, if_true]
  rfl

theorem handlePacket_not_taken (dpdk : Dpdk) (h : ¬ Taken host raw) :
    handlePacket dpdk host raw = pure () := by
  by_cases hvalid : PacketView.isValid ⟨⟨raw⟩⟩ = true
  · have hother : ¬ ((PacketView.header ⟨⟨raw⟩⟩).operation = Operation.Request ∧
        (PacketView.header ⟨⟨raw⟩⟩).targetIp = host.ip) := by
      rintro ⟨hop, hip⟩
      simp only [PacketView.isValid, Bool.and_eq_true, decide_eq_true_eq, beq_iff_eq] at hvalid
      obtain ⟨⟨⟨⟨⟨hroom, hhw⟩, hproto⟩, hhlen⟩, hplen⟩, -⟩ := hvalid
      exact h ⟨hroom, hhw, hproto, hhlen, hplen, hop, hip⟩
    simp [handlePacket, hvalid, hother]
  · simp [handlePacket, hvalid]

/-- The answer is one reply, if there is a buffer for it. -/
theorem answer_eq_ok (host : Host) (h : Header) (halloc : dpdk.pktmbufAlloc d.allocs = some mem) :
    ∃ d' reply, answer dpdk host h d = .ok () d' ∧ Sends dpdk d d' reply ∧
      PacketView.isValid ⟨⟨reply⟩⟩ = true ∧ reply.toList = replyTo host h := by
  have hinit := initOperation_apply ⟨⟨⟨mem, 0, PacketView.predictSize⟩⟩⟩ .Reply host.mac
    h.senderMac host.ip h.senderIp
  rw [if_pos (show EthernetHeader.sizeof ≤ PacketView.predictSize by decide)] at hinit
  have hbytes := Memory.bytes_write_same mem 0 (replyTo host h)
  rw [replyTo, length_frame] at hbytes
  refine ⟨_, ByteView.write ⟨mem, 0, PacketView.predictSize⟩ 0 (replyTo host h),
    enqueue_fill_flush halloc ?_, sends_queuedWith _ _ _, ?_, hbytes⟩
  · rw [PacketView.initReply, hinit]
    rfl
  · exact isValid_of_toList (Or.inr rfl) rfl hbytes

/-- Without a buffer the call throws and no packet is added. -/
theorem answer_eq_error (host : Host) (h : Header)
    (halloc : dpdk.pktmbufAlloc d.allocs = none) :
    ∃ d', answer dpdk host h d = .error (.runtimeError "Failed to allocate mbuf") d' ∧
      d'.transmitted ++ d'.sendMbufs = d.transmitted ++ d.sendMbufs := by
  have henqueue := Device.enqueueForSend_apply dpdk PacketView.predictSize d
  rw [halloc] at henqueue
  exact ⟨_, bind_of_error henqueue, Device.madeRoom_packets dpdk d⟩

/-- `send_request` sends one request for the address to all hosts. -/
theorem sendRequest_eq_ok (host : Host) (ip : Ip) (halloc : dpdk.pktmbufAlloc d.allocs = some mem) :
    ∃ d' request, sendRequest dpdk host ip d = .ok () d' ∧ Sends dpdk d d' request ∧
      request.size = 42 ∧ request.toList = frame (.replicate 6 0xFF)
        (etherHeader .Request host.mac host.ip (.replicate 6 0) ip) := by
  have hinit := initOperation_apply ⟨⟨⟨mem, 0, PacketView.predictSize⟩⟩⟩ .Request host.mac
    (.replicate 6 0) host.ip ip
  rw [if_pos (show EthernetHeader.sizeof ≤ PacketView.predictSize by decide)] at hinit
  refine ⟨_, ByteView.write (ByteView.write ⟨mem, 0, PacketView.predictSize⟩ 0
    (frame (.replicate 6 0) (etherHeader .Request host.mac host.ip (.replicate 6 0) ip))) 0
      (List.replicate 6 0xFF), enqueue_fill_flush halloc ?_, sends_queuedWith _ _ _, rfl, ?_⟩
  · rw [PacketView.initRequest, hinit]
  · -- the broadcast address goes over the first six bytes
    have hsplit : ∀ dstMac : Mac, frame dstMac
        (etherHeader .Request host.mac host.ip (.replicate 6 0) ip) =
        [] ++ dstMac.toList ++ (host.mac.toList ++ beBytes 2 EthernetType.Arp.toNat ++
          (etherHeader .Request host.mac host.ip (.replicate 6 0) ip).bytes) := by
      intro dstMac
      simp [frame, EthernetHeader.bytes, etherHeader]
    have hholds := Memory.holds_write mem 0 (frame (.replicate 6 0)
      (etherHeader .Request host.mac host.ip (.replicate 6 0) ip))
    rw [hsplit] at hholds
    have hpatched := hholds.patch (Vector.replicate 6 0xFF : Mac).toList (by simp)
    rw [← hsplit (.replicate 6 0), ← hsplit (.replicate 6 0xFF), Memory.Holds, length_frame]
      at hpatched
    exact hpatched

end Handler

/-! ## Requests and replies -/

/-- A frame of a whole request for the host's address. -/
def Asks (host : Host) (raw : ByteView) : Prop :=
  PacketView.predictSize ≤ raw.size ∧ (headerOf raw).Asks host.ip

/-- The handler adds nothing for other frames, and one reply of 42 bytes for a request, for which
it needs a buffer. -/
structure Responds (dpdk : Dpdk) (host : Host) (raw : ByteView) (d : Device) : Prop where
  silent : ¬ Asks host raw → handlePacket dpdk host raw d = .ok () d
  answered : Asks host raw → ∀ mem, dpdk.pktmbufAlloc d.allocs = some mem →
    ∃ d' reply, handlePacket dpdk host raw d = .ok () d' ∧ Sends dpdk d d' reply ∧
      PacketView.isValid ⟨⟨reply⟩⟩ = true ∧ reply.toList = replyTo host (headerOf raw)
  starved : Asks host raw → dpdk.pktmbufAlloc d.allocs = none →
    ∃ d', handlePacket dpdk host raw d = .error (.runtimeError "Failed to allocate mbuf") d' ∧
      d'.transmitted ++ d'.sendMbufs = d.transmitted ++ d.sendMbufs

section Requests

variable {dpdk : Dpdk} {host : Host} {raw : ByteView} {d : Device}

/-- The handler also takes frames shorter than an Ethernet header. -/
theorem taken_iff (hsize : raw.size < 2 ^ 64) :
    Taken host raw ↔ Asks host raw ∨
      raw.size < EthernetHeader.sizeof ∧ (headerOf raw).Asks host.ip := by
  have hroom : Header.sizeof ≤ sizeSub raw.size EthernetHeader.sizeof ↔
      PacketView.predictSize ≤ raw.size ∨ raw.size < EthernetHeader.sizeof := by
    simp only [Header.sizeof, EthernetHeader.sizeof, PacketView.predictSize,
      EthernetPacketView.predictSize, sizeSub]
    omega
  unfold Taken Asks
  rw [hroom, or_and_right]

/-- A frame that is taken though it asks nothing is answered. -/
theorem not_responds (hasks : ¬ Asks host raw) (htaken : Taken host raw) :
    ¬ Responds dpdk host raw d := by
  intro h
  have hsilent := h.silent hasks
  rw [handlePacket_taken dpdk htaken] at hsilent
  cases halloc : dpdk.pktmbufAlloc d.allocs with
  | none =>
    obtain ⟨d', hanswer, -⟩ := answer_eq_error host (headerOf raw) halloc
    rw [hanswer] at hsilent
    cases hsilent
  | some mem =>
    obtain ⟨d', reply, hanswer, hsends, -⟩ := answer_eq_ok host (headerOf raw) halloc
    rw [hanswer] at hsilent
    injection hsilent with _ hsame
    have hoffered := hsends.offered
    rw [hsame] at hoffered
    exact Nat.lt_irrefl _ hoffered

theorem responds_of_taken_iff (h : Taken host raw ↔ Asks host raw) :
    Responds dpdk host raw d := by
  refine ⟨fun hasks => ?_, fun hasks mem halloc => ?_, fun hasks halloc => ?_⟩
  · rw [handlePacket_not_taken dpdk fun htaken => hasks (h.mp htaken)]
    rfl
  · rw [handlePacket_taken dpdk (h.mpr hasks)]
    exact answer_eq_ok host _ halloc
  · rw [handlePacket_taken dpdk (h.mpr hasks)]
    exact answer_eq_error host _ halloc

/-- A frame built by `init_reply`, in whatever buffer and perhaps padded on the way, makes no handler
send. -/
theorem handlePacket_reply {v reply : PacketView} {senderMac targetMac : Mac}
    {senderIp targetIp : Ip}
    (hinit : v.initReply senderMac senderIp targetMac targetIp = .ok reply)
    (hsize : raw.size < 2 ^ 64)
    (hraw : raw.toList.take 42 = reply.ethView.data.toList.take 42) :
    handlePacket dpdk host raw d = .ok () d := by
  rw [PacketView.initReply, initOperation_apply] at hinit
  split at hinit
  · rename_i hmin
    have hreply := Except.ok.inj hinit
    subst hreply
    have hlength := congrArg List.length hraw
    rw [List.length_take, List.length_take, ByteView.length_toList, ByteView.length_toList]
      at hlength
    have hnot : ¬ Taken host raw := by
      rw [taken_iff hsize]
      by_cases hfull : 42 ≤ raw.size
      · -- the whole header is there, and it is one of a reply
        have hfits : 42 ≤ v.ethView.data.size := by
          simp only [ByteView.write] at hlength
          omega
        have hwritten := Memory.bytes_write_same v.ethView.data.mem v.ethView.data.data
          (frame targetMac (etherHeader .Reply senderMac senderIp targetMac targetIp))
        rw [length_frame] at hwritten
        have hframe : raw.toList.take 42 = _ :=
          hraw.trans ((Memory.take_bytes _ hfits).trans hwritten)
        have hheader : headerOf raw = _ := header_of_holds (holds_of_take hframe).2
        have hother : ¬ (headerOf raw).Asks host.ip := by
          rw [hheader]
          rintro ⟨-, -, -, -, hop, -⟩
          exact absurd hop (show Operation.Reply ≠ Operation.Request by decide)
        rintro (⟨-, hasks⟩ | ⟨-, hasks⟩)
        · exact hother hasks
        · exact hother hasks
      · -- a shorter one is no ARP frame, and has an Ethernet header
        rintro (⟨hroom, -⟩ | ⟨hshort, -⟩)
        · exact hfull hroom
        · simp only [ByteView.write] at hlength
          omega
    rw [handlePacket_not_taken dpdk hnot]
    rfl
  · cases hinit

/-- The request that `send_request` sends, perhaps padded on the way, is answered by the host with
that address. -/
theorem handlePacket_request {asker : Host} {ip : Ip} {mem : Memory} (hip : host.ip = ip)
    (hraw : raw.toList.take 42 = frame (.replicate 6 0xFF)
      (etherHeader .Request asker.mac asker.ip (.replicate 6 0) ip))
    (hsize : raw.size < 2 ^ 64)
    (halloc : dpdk.pktmbufAlloc d.allocs = some mem) :
    ∃ d' reply, handlePacket dpdk host raw d = .ok () d' ∧ Sends dpdk d d' reply ∧
      reply.toList =
        frame asker.mac (etherHeader .Reply host.mac host.ip asker.mac asker.ip) := by
  obtain ⟨hle, hholds⟩ := holds_of_take hraw
  have hheader : headerOf raw = _ := header_of_holds hholds
  have htaken : Taken host raw := (taken_iff hsize).mpr
    (Or.inl ⟨hle, by rw [hheader]; exact ⟨rfl, rfl, rfl, rfl, rfl, hip.symm⟩⟩)
  rw [handlePacket_taken dpdk htaken]
  obtain ⟨d', reply, hanswer, hsends, -, hbytes⟩ := answer_eq_ok host (headerOf raw) halloc
  rw [hheader] at hbytes
  exact ⟨d', reply, hanswer, hsends, hbytes⟩

end Requests

/-- **The ARP responder**: it answers the requests for its address, and only these, exactly if the
frame is not shorter than an Ethernet header with what reads as a request behind it. A reply makes
no handler send, and a request is answered by the host that has the address. -/
theorem responds_iff (dpdk : Dpdk) (host : Host) (raw : ByteView) (d : Device)
    (hsize : raw.size < 2 ^ 64) :
    (Responds dpdk host raw d ↔
      ¬ (raw.size < EthernetHeader.sizeof ∧ (headerOf raw).Asks host.ip)) ∧
    (∀ (v reply : PacketView) (sender target : Host),
      v.initReply sender.mac sender.ip target.mac target.ip = .ok reply →
      raw.toList.take 42 = reply.ethView.data.toList.take 42 →
      handlePacket dpdk host raw d = .ok () d) ∧
    (∀ (asker : Host) (dpdk' : Dpdk) (e : Device) (mem mem' : Memory),
      dpdk'.pktmbufAlloc e.allocs = some mem → ∃ e' request,
        sendRequest dpdk' asker host.ip e = .ok () e' ∧ Sends dpdk' e e' request ∧
        (raw.toList.take 42 = request.toList → dpdk.pktmbufAlloc d.allocs = some mem' →
          ∃ d' reply, handlePacket dpdk host raw d = .ok () d' ∧ Sends dpdk d d' reply ∧
            reply.toList =
              frame asker.mac (etherHeader .Reply host.mac host.ip asker.mac asker.ip))) := by
  refine ⟨⟨?_, ?_⟩, ?_, ?_⟩
  · rintro h ⟨hshort, hasks⟩
    refine not_responds ?_ ((taken_iff hsize).mpr (Or.inr ⟨hshort, hasks⟩)) h
    rintro ⟨hroom, -⟩
    exact absurd (Nat.lt_of_le_of_lt hroom hshort) (by decide)
  · intro hcond
    refine responds_of_taken_iff ?_
    rw [taken_iff hsize, or_iff_left hcond]
  · intro v reply sender target hinit hraw
    exact handlePacket_reply hinit hsize hraw
  · intro asker dpdk' e mem mem' halloc
    obtain ⟨e', request, hsend, hsends, -, hbytes⟩ := sendRequest_eq_ok asker host.ip halloc
    refine ⟨e', request, hsend, hsends, fun hraw halloc' => ?_⟩
    exact handlePacket_request rfl (hraw.trans hbytes) hsize halloc'

/-! ### Frames in memory -/

def owner : Host := Tcp.Client.sampleConnection.session.src

def asker : Host := Tcp.Client.sampleConnection.session.dst

/-- A request for the owner's address. -/
def requestBytes : List UInt8 :=
  frame (.replicate 6 0xFF) (etherHeader .Request asker.mac asker.ip (.replicate 6 0) owner.ip)

theorem requestBytes_responds : Responds sampleDpdk owner (.ofList requestBytes) {} :=
  (responds_iff sampleDpdk owner (.ofList requestBytes) {} (by decide)).1.mpr
    fun h => absurd h.1 (by decide)

/-- A frame of ten bytes, over memory that still holds a request. -/
def shortFrame : ByteView := ⟨.ofList requestBytes, 0, 10⟩

/-- The short frame is answered. -/
theorem shortFrame_answered : ¬ Responds sampleDpdk owner shortFrame {} ∧
    (after (handlePacket sampleDpdk owner shortFrame {})).transmitted.length = 1 := by
  refine ⟨?_, by decide +kernel⟩
  refine not_responds (fun h => ?_) ((taken_iff (by decide)).mpr (Or.inr ⟨by decide, ?_⟩))
  · exact absurd h.1 (by decide)
  · decide

end ArpHandler

end WsGateway.Network.Arp
