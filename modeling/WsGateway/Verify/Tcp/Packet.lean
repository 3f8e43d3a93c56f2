import WsGateway.Network.Tcp.Client

/-!
# The sequence number of a built packet

A packet is built by writing headers into a transmit buffer and patching single
fields afterwards. `Stamped v seq` says that the buffer holds a packet with this
sequence number at the place where a reader looks for it; the writes that follow
`init` all miss the bytes it depends on.
-/

namespace WsGateway.Network.Tcp

open Library

namespace PacketView

/-- The frame under the view. -/
def raw (v : PacketView) : ByteView := v.ipPacketView.ethView.data

/-- The frame has a plain IP header, a TCP header of at least 20 bytes and the sequence number
`seq`. -/
structure Stamped (v : PacketView) (seq : SeqNumber) : Prop where
  ihl : v.raw.mem (v.raw.data + 14) &&& 0x0F = 5
  offset : 20 ≤ (v.raw.mem (v.raw.data + 46) >>> 4).toNat * 4
  seq_bytes : v.raw.mem.bytes (v.raw.data + 38) 4 = beBytes 4 seq.value.toNat

namespace Stamped

variable {v v' : PacketView} {seq : SeqNumber}

theorem ip_payload_data (h : v.Stamped seq) : v.ipPacketView.payload.data = v.raw.data + 34 := by
  change v.raw.data + 14 + (v.raw.mem (v.raw.data + 14 + 0) &&& 0x0F).toNat * 4 = v.raw.data + 34
  rw [Nat.add_zero, h.ihl]
  rfl

theorem header_seq (h : v.Stamped seq) : v.header.seq = seq := by
  have hbe : v.ipPacketView.payload.be 4 4 = seq.value.toNat := by
    change beNat (v.raw.mem.bytes (v.ipPacketView.payload.data + 4) 4) = seq.value.toNat
    rw [h.ip_payload_data, Nat.add_assoc, h.seq_bytes]
    exact beNat_beBytes_of_lt seq.value.toNat_lt
  change (⟨UInt32.ofNat (v.ipPacketView.payload.be 4 4)⟩ : SeqNumber) = seq
  rw [hbe, UInt32.ofNat_toNat]

theorem dataOffset_ge (h : v.Stamped seq) : 20 ≤ v.header.dataOffset := by
  have hd : v.header.dataOffset = (v.raw.mem (v.ipPacketView.payload.data + 12) >>> 4).toNat * 4 :=
    rfl
  rw [hd, h.ip_payload_data]
  exact h.offset

/-- A write that misses the three places keeps the stamp. -/
theorem of_write (h : v.Stamped seq) {pos : Nat} {bs : List UInt8}
    (hdata : v'.raw.data = v.raw.data) (hmem : v'.raw.mem = v.raw.mem.write pos bs)
    (hlow : v.raw.data + 15 ≤ pos)
    (hmid : pos + bs.length ≤ v.raw.data + 38 ∨ v.raw.data + 47 ≤ pos) : v'.Stamped seq := by
  refine ⟨?_, ?_, ?_⟩
  · rw [hdata, hmem, Memory.write_apply_of_lt _ _ (by omega)]
    exact h.ihl
  · rw [hdata, hmem]
    rcases hmid with hb | hb
    · rw [Memory.write_apply_of_ge _ (by omega)]
      exact h.offset
    · rw [Memory.write_apply_of_lt _ _ (by omega)]
      exact h.offset
  · rw [hdata, hmem]
    rcases hmid with hb | hb
    · rw [Memory.bytes_write_after _ (by omega)]
      exact h.seq_bytes
    · rw [Memory.bytes_write_before _ _ (by omega)]
      exact h.seq_bytes

theorem setIpId (h : v.Stamped seq) (id : UInt16) : (v.setIpId id).Stamped seq :=
  h.of_write rfl rfl (by show _ ≤ v.raw.data + (14 + 4); omega)
    (Or.inl (by show v.raw.data + (14 + 4) + _ ≤ _; simp))

theorem resizePayload (h : v.Stamped seq) (n : Nat) : (v.resizePayload n).Stamped seq :=
  h.of_write rfl rfl (by show _ ≤ v.raw.data + (14 + 2); omega)
    (Or.inl (by show v.raw.data + (14 + 2) + _ ≤ _; simp))

theorem updateChecksum (h : v.Stamped seq) (dpdk : Dpdk) : (v.updateChecksum dpdk).Stamped seq :=
  h.of_write rfl rfl (by rw [h.ip_payload_data]; omega) (Or.inr (by rw [h.ip_payload_data]; omega))

theorem updateIpChecksum (h : v.Stamped seq) (dpdk : Dpdk) :
    (v.updateIpChecksum dpdk).Stamped seq :=
  h.of_write rfl rfl (by show _ ≤ v.raw.data + (14 + 10); omega)
    (Or.inl (by show v.raw.data + (14 + 10) + _ ≤ _; simp))

theorem writePayload (h : v.Stamped seq) (bs : List UInt8) : (v.writePayload bs).Stamped seq := by
  have hd := h.dataOffset_ge
  exact h.of_write rfl rfl (by rw [h.ip_payload_data]; omega)
    (Or.inr (by rw [h.ip_payload_data]; omega))

theorem finishPacket (h : v.Stamped seq) (dpdk : Dpdk) (n : Nat) :
    (Client.finishPacket dpdk ⟨v⟩ n).Stamped seq :=
  ((h.resizePayload n).updateChecksum dpdk).updateIpChecksum dpdk

end Stamped

/-- A written TCP header stamps the packet. -/
theorem stamped_of_header {v : PacketView} (hihl : v.raw.mem (v.raw.data + 14) &&& 0x0F = 5)
    (hdr : Header) (hoff : 20 ≤ ((hdr.dataOffsetScaled <<< 4 ||| hdr.reserved) >>> 4).toNat * 4) :
    (v.write 0 hdr.bytes).Stamped hdr.seq := by
  have hpos : v.ipPacketView.payload.data + 0 = v.raw.data + 34 := by
    change v.raw.data + 14 + (v.raw.mem (v.raw.data + 14 + 0) &&& 0x0F).toNat * 4 + 0 = _
    rw [Nat.add_zero, hihl]
    rfl
  have hmem : (v.write 0 hdr.bytes).raw.mem = v.raw.mem.write (v.raw.data + 34) hdr.bytes := by
    change v.raw.mem.write (v.ipPacketView.payload.data + 0) hdr.bytes = _
    rw [hpos]
  have hbytes : hdr.bytes = (beBytes 2 hdr.srcPort.toNat ++ beBytes 2 hdr.dstPort.toNat) ++
      beBytes 4 hdr.seq.value.toNat ++ (beBytes 4 hdr.ack.value.toNat ++
        [hdr.dataOffsetScaled <<< 4 ||| hdr.reserved, hdr.flags] ++
        beBytes 2 hdr.window.toNat ++ beBytes 2 hdr.checksum.toNat ++
        beBytes 2 hdr.urgPtr.toNat) := by
    simp [Header.bytes]
  refine ⟨?_, ?_, ?_⟩
  · rw [hmem]
    change (v.raw.mem.write (v.raw.data + 34) hdr.bytes) (v.raw.data + 14) &&& 0x0F = 5
    rw [Memory.write_apply_of_lt _ _ (by omega)]
    exact hihl
  · have hlen : 12 < hdr.bytes.length := by simp [Header.bytes]
    have hget : hdr.bytes[12] = hdr.dataOffsetScaled <<< 4 ||| hdr.reserved := by
      simp [Header.bytes]
    rw [hmem]
    change 20 ≤ ((v.raw.mem.write (v.raw.data + 34) hdr.bytes) (v.raw.data + 34 + 12) >>> 4).toNat * 4
    rw [Memory.write_apply_in _ hlen, hget]
    exact hoff
  · rw [hmem, hbytes]
    exact Memory.bytes_write_mid v.raw.mem (v.raw.data + 34) _ _ _

/-- The IP header that `init` writes has its plain length. -/
theorem ihl_of_init {v v' : IPPacketView} {session : Session} {protocol : IpProtocol}
    (h : v.init session protocol = .ok v') :
    v'.ethView.data.mem (v'.ethView.data.data + 14) &&& 0x0F = 5 := by
  unfold IPPacketView.init at h
  cases heth : v.ethView.init session.dst.mac session.src.mac .Ipv4 with
  | error e => rw [heth] at h; cases h
  | ok eth =>
    rw [heth] at h
    simp only [Except.bind, bind] at h
    split at h
    · obtain rfl := Except.ok.inj h
      change (eth.data.mem.write (eth.data.data + (14 + 0)) _) (eth.data.data + 14 + 0) &&& 0x0F = 5
      rw [Memory.write_apply_in eth.data.mem (by simp [IpHeader.bytes])]
      change ((4 : UInt8) <<< 4 ||| 5) &&& 0x0F = 5
      decide
    · cases h

/-- A packet that `init` accepts carries the sequence number it was given. -/
theorem stamped_of_init {v v' : PacketView} {connection : Connection} {flags : Flags}
    {seq ackSeq : SeqNumber} {options : Bool}
    (h : v.init connection flags seq ackSeq options = .ok v') : v'.Stamped seq := by
  unfold init at h
  cases hip : v.ipPacketView.init connection.session .Tcp with
  | error e => rw [hip] at h; cases h
  | ok ip =>
    rw [hip] at h
    obtain rfl := Except.ok.inj h
    have hoff : ∀ b : Bool, 20 ≤ (((if b then (5 + 3 : UInt8) else 5) <<< 4 ||| 0) >>> 4).toNat * 4 :=
      by decide
    have hst := stamped_of_header (v := ⟨ip⟩) (ihl_of_init hip)
      { srcPort := connection.srcPort
        dstPort := connection.dstPort
        dataOffsetScaled := if options then 5 + 3 else 5
        flags := flags
        reserved := 0
        window := kDefaultWindowSize
        checksum := 0
        urgPtr := 0
        seq := seq
        ack := ackSeq } (hoff options)
    cases options
    · exact hst
    · exact hst.of_write rfl rfl (by rw [hst.ip_payload_data]; unfold Header.sizeof; omega)
        (Or.inr (by rw [hst.ip_payload_data]; unfold Header.sizeof; omega))

/-- The header `init` writes passes `is_valid` if it fits the buffer. -/
theorem ip_write_isValid {eth : EthernetPacketView} (hsize : eth.data.size < 2 ^ 16)
    (hmin : 14 ≤ eth.data.size) (hdr : IpHeader) (hver : hdr.version <<< 4 ||| hdr.ihl = 0x45)
    (htotal : hdr.totalLength = eth.payload.size) :
    (IPPacketView.write ⟨eth⟩ 0 hdr.bytes).isValid = decide (34 ≤ eth.data.size) := by
  have hpay : eth.payload.size = eth.data.size - 14 := sizeSub_of_le hmin (by omega)
  let v := IPPacketView.write ⟨eth⟩ 0 hdr.bytes
  have hihl : v.header.ihl = 5 := by
    change eth.data.mem.write (eth.data.data + (14 + 0)) hdr.bytes (eth.data.data + 14 + 0) &&&
      0x0F = 5
    rw [Memory.write_apply_in eth.data.mem (by simp [IpHeader.bytes])]
    change (hdr.version <<< 4 ||| hdr.ihl) &&& 0x0F = 5
    rw [hver]
    rfl
  have hlen : v.header.totalLength = eth.payload.size := by
    change beNat ((eth.data.mem.write (eth.data.data + 14) hdr.bytes).bytes
      (eth.data.data + 14 + 2) 2) = eth.payload.size
    have hbytes : hdr.bytes = [hdr.version <<< 4 ||| hdr.ihl, hdr.tos] ++
        beBytes 2 hdr.totalLength ++ (beBytes 2 hdr.id.toNat ++ beBytes 2 hdr.fragOff.toNat ++
          [hdr.ttl, hdr.protocol] ++ beBytes 2 hdr.check.toNat ++ hdr.srcAddr.toList ++
          hdr.dstAddr.toList) := by
      simp [IpHeader.bytes]
    have hmid := Memory.bytes_write_mid eth.data.mem (eth.data.data + 14)
      [hdr.version <<< 4 ||| hdr.ihl, hdr.tos] (beBytes 2 hdr.totalLength)
    rw [hbytes]
    simp only [List.length_cons, List.length_nil, length_beBytes] at hmid
    rw [hmid, htotal]
    exact beNat_beBytes_of_lt (by omega)
  have hhdr : v.header.size = 20 := by
    change v.header.ihl.toNat * 4 = 20
    rw [hihl]
    rfl
  have hvpay : v.ethView.payload.size = eth.payload.size := rfl
  change ((decide (v.header.totalLength < 60) || v.header.totalLength == v.ethView.payload.size) &&
    decide (v.header.size ≤ v.ethView.payload.size)) = decide (34 ≤ eth.data.size)
  rw [hlen, hhdr, hvpay, hpay]
  simp only [BEq.rfl, Bool.or_true, Bool.true_and, decide_eq_decide]
  omega

/-- `init` accepts exactly the buffers that hold an Ethernet and an IP header. -/
theorem init_isOk (v : PacketView) (connection : Connection) (flags : Flags)
    (seq ackSeq : SeqNumber) (options : Bool) (hsize : v.raw.size < 2 ^ 16) :
    (v.init connection flags seq ackSeq options).isOk = decide (34 ≤ v.raw.size) := by
  unfold init IPPacketView.init
  by_cases hmin : 14 ≤ v.raw.size
  · obtain ⟨eth, heth, hdata⟩ : ∃ eth, v.ipPacketView.ethView.init connection.session.dst.mac
        connection.session.src.mac .Ipv4 = .ok eth ∧ eth.data.size = v.raw.size :=
      ⟨_, if_pos (decide_eq_true hmin), rfl⟩
    rw [heth]
    simp only [bind, Except.bind]
    rw [ip_write_isValid (hdata ▸ hsize) (hdata ▸ hmin), hdata]
    · by_cases h34 : 34 ≤ v.raw.size
      · rw [if_pos (decide_eq_true h34), decide_eq_true h34]
        rfl
      · rw [if_neg (fun h => h34 (of_decide_eq_true h)), decide_eq_false h34]
        rfl
    · change (4 : UInt8) <<< 4 ||| 5 = 0x45
      decide
    · rfl
  · have heth : v.ipPacketView.ethView.init connection.session.dst.mac
        connection.session.src.mac .Ipv4 = .error (.runtimeError "ethernet packet is not valid") :=
      if_neg fun h => hmin (of_decide_eq_true h)
    rw [heth, decide_eq_false (by omega)]
    rfl

/-- The frame of a segment with plain headers, as the other end of `connection` sends it. -/
def received (connection : Connection) (flags : Flags) (seq ack : SeqNumber)
    (payload : List UInt8) : PacketView :=
  let session := connection.session
  .ofBytes (.ofList (
    EthernetHeader.bytes ⟨session.src.mac, session.dst.mac, .Ipv4⟩ ++
    IpHeader.bytes {
      version := 4
      ihl := 5
      tos := 0
      totalLength := IpHeader.sizeof + Header.sizeof + payload.length
      id := 0
      fragOff := 0
      ttl := 64
      protocol := .Tcp
      srcAddr := session.dst.ip
      dstAddr := session.src.ip
      check := 0 } ++
    Header.bytes {
      srcPort := connection.dstPort
      dstPort := connection.srcPort
      dataOffsetScaled := 5
      flags := flags
      reserved := 0
      window := kDefaultWindowSize
      checksum := 0
      urgPtr := 0
      seq := seq
      ack := ack } ++
    payload))

/-- The same with options and a window of its own. -/
def receivedWith (connection : Connection) (flags : Flags) (seq ack : SeqNumber) (window : UInt16)
    (options payload : List UInt8) : PacketView :=
  let session := connection.session
  .ofBytes (.ofList (
    EthernetHeader.bytes ⟨session.src.mac, session.dst.mac, .Ipv4⟩ ++
    IpHeader.bytes {
      version := 4
      ihl := 5
      tos := 0
      totalLength := IpHeader.sizeof + Header.sizeof + options.length + payload.length
      id := 0
      fragOff := 0
      ttl := 64
      protocol := .Tcp
      srcAddr := session.dst.ip
      dstAddr := session.src.ip
      check := 0 } ++
    Header.bytes {
      srcPort := connection.dstPort
      dstPort := connection.srcPort
      dataOffsetScaled := 5 + UInt8.ofNat (options.length / 4)
      flags := flags
      reserved := 0
      window := window
      checksum := 0
      urgPtr := 0
      seq := seq
      ack := ack } ++
    options ++ payload))

end PacketView

end WsGateway.Network.Tcp
