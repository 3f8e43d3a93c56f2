import WsGateway.Verify.Tcp.Window

/-!
# Built frames

`Laid v eth ip tcp rest` says that the buffer under a view holds an Ethernet, an
IP and a TCP header and the bytes `rest` behind them. `init` lays the headers out
over whatever the buffer held, and each of the steps up to `send` changes one
field of them; so the frame that goes out is a function of the connection, the
counters and the payload. A reader who finds these bytes in a frame, padded or
not, gets the headers and the payload back.
-/

namespace WsGateway.Network

open Library

/-! ## Reading headers back -/

section Headers

variable {v : ByteView}

theorem EthernetPacketView.header_of_holds {v : EthernetPacketView} {h : EthernetHeader}
    (hv : v.data.mem.Holds v.data.data h.bytes) : v.header = h := by
  unfold EthernetHeader.bytes at hv
  rw [Memory.holds_append, Memory.holds_append] at hv
  obtain ⟨⟨hdst, hsrc⟩, htype⟩ := hv
  simp only [List.length_append, Vector.length_toList] at hsrc htype
  have hnum := htype.be (by simpa using h.type.toNat_lt)
  have hdst' : v.data.array 0 6 = h.dstMac := by
    simpa [ByteView.array, ByteView.get] using hdst.vector
  have hsrc' : v.data.array 6 6 = h.srcMac := by
    simpa [ByteView.array, ByteView.get, Nat.add_assoc] using hsrc.vector
  have htype' : UInt16.ofNat (v.data.be 12 2) = h.type := by
    change UInt16.ofNat (v.data.mem.be (v.data.data + 12) 2) = h.type
    rw [hnum, UInt16.ofNat_toNat]
  unfold EthernetPacketView.header
  rw [hdst', hsrc', htype']

/-- The first byte of an IP header holds the version and the length. -/
structure IpHeader.Plain (h : IpHeader) : Prop where
  version : h.version = 4
  ihl : h.ihl = 5
  total : h.totalLength < 2 ^ 16

theorem IpHeader.read_of_holds {h : IpHeader} (hplain : h.Plain)
    (hv : v.mem.Holds v.data h.bytes) : IpHeader.read v = h := by
  obtain ⟨ihl, version, tos, totalLength, id, fragOff, ttl, protocol, check, srcAddr, dstAddr⟩ := h
  obtain ⟨rfl, rfl, htotalLt⟩ := hplain
  unfold IpHeader.bytes at hv
  simp only [Memory.holds_append, Memory.holds_cons, List.length_append, List.length_cons,
    List.length_nil, length_beBytes, Vector.length_toList, Nat.add_assoc, Nat.reduceAdd] at hv
  obtain ⟨⟨⟨⟨⟨⟨⟨⟨hfirst, htos, -⟩, htotal⟩, hid⟩, hfrag⟩, httl, hproto, -⟩, hcheck⟩, hsrc⟩, hdst⟩ :=
    hv
  have hid' := hid.be (by simpa using id.toNat_lt)
  have hfrag' := hfrag.be (by simpa using fragOff.toNat_lt)
  have hcheck' := hcheck.be (by simpa using check.toNat_lt)
  simp only [IpHeader.read, ByteView.get, ByteView.be, ByteView.array, Nat.add_zero,
    IpHeader.mk.injEq]
  refine ⟨?_, ?_, htos, htotal.be (by simpa using htotalLt), ?_, ?_, httl, hproto, ?_, ?_, ?_⟩
  · rw [hfirst]
    decide
  · rw [hfirst]
    decide
  · rw [hid', UInt16.ofNat_toNat]
  · rw [hfrag', UInt16.ofNat_toNat]
  · rw [hcheck', UInt16.ofNat_toNat]
  · simpa [Nat.add_assoc] using hsrc.vector
  · simpa [Nat.add_assoc] using hdst.vector

/-- The offset byte of a TCP header holds the header's length. -/
structure Tcp.Header.Plain (h : Tcp.Header) : Prop where
  reserved : h.reserved = 0
  offset : h.dataOffsetScaled = 5 ∨ h.dataOffsetScaled = 8

theorem Tcp.Header.read_of_holds {h : Tcp.Header} (hplain : h.Plain)
    (hv : v.mem.Holds v.data h.bytes) : Tcp.Header.read v = h := by
  obtain ⟨srcPort, dstPort, ⟨seq⟩, ⟨ack⟩, reserved, offset, flags, window, checksum, urgPtr⟩ := h
  obtain ⟨rfl, hoffset⟩ := hplain
  unfold Tcp.Header.bytes at hv
  simp only [Memory.holds_append, Memory.holds_cons, List.length_append, List.length_cons,
    List.length_nil, length_beBytes, Nat.add_assoc, Nat.reduceAdd] at hv
  obtain ⟨⟨⟨⟨⟨⟨⟨hsrc, hdst⟩, hseq⟩, hack⟩, hoff, hflags, -⟩, hwindow⟩, hchecksum⟩, hurg⟩ := hv
  have hsrc' := hsrc.be (by simpa using srcPort.toNat_lt)
  have hdst' := hdst.be (by simpa using dstPort.toNat_lt)
  have hseq' := hseq.be (by simpa using seq.toNat_lt)
  have hack' := hack.be (by simpa using ack.toNat_lt)
  have hwindow' := hwindow.be (by simpa using window.toNat_lt)
  have hchecksum' := hchecksum.be (by simpa using checksum.toNat_lt)
  have hurg' := hurg.be (by simpa using urgPtr.toNat_lt)
  simp only [Tcp.Header.read, ByteView.get, ByteView.be, Nat.add_zero, Tcp.Header.mk.injEq,
    Tcp.SeqNumber.mk.injEq]
  refine ⟨?_, ?_, ?_, ?_, ?_, ?_, hflags, ?_, ?_, ?_⟩
  · rw [hsrc', UInt16.ofNat_toNat]
  · rw [hdst', UInt16.ofNat_toNat]
  · rw [hseq', UInt32.ofNat_toNat]
  · rw [hack', UInt32.ofNat_toNat]
  · rw [hoff]
    rcases hoffset with h | h
    · rw [show offset = 5 from h]
      decide
    · rw [show offset = 8 from h]
      decide
  · rw [hoff]
    rcases hoffset with h | h
    · rw [show offset = 5 from h]
      decide
    · rw [show offset = 8 from h]
      decide
  · rw [hwindow', UInt16.ofNat_toNat]
  · rw [hchecksum', UInt16.ofNat_toNat]
  · rw [hurg', UInt16.ofNat_toNat]

@[simp] theorem EthernetHeader.length_bytes (h : EthernetHeader) : h.bytes.length = 14 := by
  simp [bytes]

@[simp] theorem IpHeader.length_bytes (h : IpHeader) : h.bytes.length = 20 := by
  simp [bytes]

@[simp] theorem Tcp.Header.length_bytes (h : Tcp.Header) : h.bytes.length = 20 := by
  simp [bytes]

end Headers

namespace Tcp.PacketView

/-! ## The layout of a packet -/

/-- The buffer holds these headers and the bytes `rest` behind them. -/
structure Laid (v : PacketView) (eth : EthernetHeader) (ip : IpHeader) (tcp : Header)
    (rest : List UInt8) : Prop where
  holds : v.raw.mem.Holds v.raw.data (eth.bytes ++ ip.bytes ++ tcp.bytes ++ rest)
  ipPlain : ip.Plain
  tcpPlain : tcp.Plain

namespace Laid

variable {v : PacketView} {eth : EthernetHeader} {ip : IpHeader} {tcp : Header}
  {rest : List UInt8}

theorem parts (h : v.Laid eth ip tcp rest) :
    v.raw.mem.Holds v.raw.data eth.bytes ∧ v.raw.mem.Holds (v.raw.data + 14) ip.bytes ∧
      v.raw.mem.Holds (v.raw.data + 34) tcp.bytes ∧ v.raw.mem.Holds (v.raw.data + 54) rest := by
  have hall := h.holds
  simp only [Memory.holds_append, List.length_append, EthernetHeader.length_bytes,
    IpHeader.length_bytes, Header.length_bytes, Nat.reduceAdd] at hall
  obtain ⟨⟨⟨heth, hip⟩, htcp⟩, hrest⟩ := hall
  exact ⟨heth, hip, htcp, hrest⟩

theorem eth_header (h : v.Laid eth ip tcp rest) : v.eth.header = eth :=
  EthernetPacketView.header_of_holds h.parts.1

theorem ip_header (h : v.Laid eth ip tcp rest) : v.ipPacketView.header = ip :=
  IpHeader.read_of_holds h.ipPlain h.parts.2.1

theorem ip_payload_data (h : v.Laid eth ip tcp rest) :
    v.ipPacketView.payload.data = v.raw.data + 34 := by
  change v.raw.data + 14 + v.ipPacketView.header.ihl.toNat * 4 = v.raw.data + 34
  rw [h.ip_header, h.ipPlain.ihl]
  rfl

theorem header_eq (h : v.Laid eth ip tcp rest) : v.header = tcp := by
  refine Header.read_of_holds h.tcpPlain ?_
  rw [h.ip_payload_data]
  exact h.parts.2.2.1

/-- A patch of one field of the headers. -/
theorem patch {v' : PacketView} {eth' : EthernetHeader} {ip' : IpHeader} {tcp' : Header}
    (h : v.Laid eth ip tcp rest) (pre old post new : List UInt8)
    (hold : eth.bytes ++ ip.bytes ++ tcp.bytes ++ rest = pre ++ old ++ post)
    (hnew : eth'.bytes ++ ip'.bytes ++ tcp'.bytes ++ rest = pre ++ new ++ post)
    (hlen : new.length = old.length) (hdata : v'.raw.data = v.raw.data)
    (hmem : v'.raw.mem = v.raw.mem.write (v.raw.data + pre.length) new)
    (hip : ip'.Plain) (htcp : tcp'.Plain) : v'.Laid eth' ip' tcp' rest := by
  refine ⟨?_, hip, htcp⟩
  have hholds := h.holds
  rw [hold] at hholds
  rw [hnew, hdata, hmem]
  exact hholds.patch new hlen

theorem setIpId (h : v.Laid eth ip tcp rest) (id : UInt16) :
    (v.setIpId id).Laid eth { ip with id := id } tcp rest := by
  refine h.patch
    (eth.bytes ++ [ip.version <<< 4 ||| ip.ihl, ip.tos] ++ beBytes 2 ip.totalLength)
    (beBytes 2 ip.id.toNat)
    (beBytes 2 ip.fragOff.toNat ++ [ip.ttl, ip.protocol] ++ beBytes 2 ip.check.toNat ++
      ip.srcAddr.toList ++ ip.dstAddr.toList ++ tcp.bytes ++ rest)
    (beBytes 2 id.toNat)
    (by simp [IpHeader.bytes]) (by simp [IpHeader.bytes]) (by simp) rfl ?_ ?_ h.tcpPlain
  · simp [PacketView.setIpId, PacketView.raw, IPPacketView.write, ByteView.write,
      EthernetHeader.sizeof]
  · exact ⟨h.ipPlain.version, h.ipPlain.ihl, h.ipPlain.total⟩

/-- `resize_payload` cuts the frame and stores its length, in two bytes. -/
theorem resizePayload_mod (h : v.Laid eth ip tcp rest) (n : Nat) :
    (v.resizePayload n).Laid eth
        { ip with totalLength := sizeSub (34 + tcp.dataOffset + n) 14 % 2 ^ 16 } tcp rest ∧
      (v.resizePayload n).raw.size = 34 + tcp.dataOffset + n := by
  have hsize : v.ipPacketView.header.size = 20 := by
    change v.ipPacketView.header.ihl.toNat * 4 = 20
    rw [h.ip_header, h.ipPlain.ihl]
    rfl
  have hframe : (v.resizePayload n).raw.size = 34 + tcp.dataOffset + n := by
    change 14 + (v.ipPacketView.header.size + (v.header.dataOffset + n)) = _
    rw [hsize, h.header_eq]
    omega
  refine ⟨?_, hframe⟩
  have htotal : beBytes 2 (sizeSub (34 + tcp.dataOffset + n) 14 % 2 ^ 16) =
      beBytes 2 (sizeSub (v.resizePayload n).raw.size 14) := by
    rw [hframe]
    exact beBytes_mod (u := 2) (Nat.le_refl 2) _
  refine h.patch (eth.bytes ++ [ip.version <<< 4 ||| ip.ihl, ip.tos]) (beBytes 2 ip.totalLength)
    (beBytes 2 ip.id.toNat ++ beBytes 2 ip.fragOff.toNat ++ [ip.ttl, ip.protocol] ++
      beBytes 2 ip.check.toNat ++ ip.srcAddr.toList ++ ip.dstAddr.toList ++ tcp.bytes ++ rest)
    (beBytes 2 (sizeSub (34 + tcp.dataOffset + n) 14 % 2 ^ 16))
    (by simp [IpHeader.bytes]) (by simp [IpHeader.bytes]) (by simp) rfl ?_ ?_ h.tcpPlain
  · rw [htotal]
    simp [PacketView.resizePayload, PacketView.raw, IPPacketView.write, ByteView.write,
      IPPacketView.resizePayload, EthernetPacketView.resizePayload, EthernetPacketView.payload,
      EthernetHeader.sizeof]
  · exact ⟨h.ipPlain.version, h.ipPlain.ihl, Nat.mod_lt _ (by decide)⟩

/-- A length that fits into them is the one stored. -/
theorem resizePayload (h : v.Laid eth ip tcp rest) {n : Nat}
    (hn : 20 + tcp.dataOffset + n < 2 ^ 16) :
    (v.resizePayload n).Laid eth { ip with totalLength := 20 + tcp.dataOffset + n } tcp rest ∧
      (v.resizePayload n).raw.size = 34 + tcp.dataOffset + n := by
  obtain ⟨hcut, hframe⟩ := h.resizePayload_mod n
  have htotal : sizeSub (34 + tcp.dataOffset + n) 14 % 2 ^ 16 = 20 + tcp.dataOffset + n := by
    rw [sizeSub_of_le (by omega) (by omega), Nat.mod_eq_of_lt (by omega)]
    omega
  rw [htotal] at hcut
  exact ⟨hcut, hframe⟩

theorem updateIpChecksum (h : v.Laid eth ip tcp rest) {dpdk : Dpdk} {cksum : UInt16}
    (hck : cksumBytes (dpdk.ipv4Cksum v.raw.mem (v.raw.data + 14)) = beBytes 2 cksum.toNat) :
    (v.updateIpChecksum dpdk).Laid eth { ip with check := cksum } tcp rest := by
  refine h.patch
    (eth.bytes ++ [ip.version <<< 4 ||| ip.ihl, ip.tos] ++ beBytes 2 ip.totalLength ++
      beBytes 2 ip.id.toNat ++ beBytes 2 ip.fragOff.toNat ++ [ip.ttl, ip.protocol])
    (beBytes 2 ip.check.toNat) (ip.srcAddr.toList ++ ip.dstAddr.toList ++ tcp.bytes ++ rest)
    (beBytes 2 cksum.toNat)
    (by simp [IpHeader.bytes]) (by simp [IpHeader.bytes]) (by simp) rfl ?_ ?_ h.tcpPlain
  · rw [← hck]
    simp [PacketView.updateIpChecksum, PacketView.raw, IPPacketView.write, ByteView.write,
      EthernetHeader.sizeof, EthernetPacketView.payload]
  · exact ⟨h.ipPlain.version, h.ipPlain.ihl, h.ipPlain.total⟩

theorem updateChecksum (h : v.Laid eth ip tcp rest) {dpdk : Dpdk} {cksum : UInt16}
    (hck : cksumBytes (dpdk.ipv4UdptcpCksum v.raw.mem (v.raw.data + 14) (v.raw.data + 34)) =
      beBytes 2 cksum.toNat) :
    (v.updateChecksum dpdk).Laid eth ip { tcp with checksum := cksum } rest := by
  refine h.patch
    (eth.bytes ++ ip.bytes ++ beBytes 2 tcp.srcPort.toNat ++ beBytes 2 tcp.dstPort.toNat ++
      beBytes 4 tcp.seq.value.toNat ++ beBytes 4 tcp.ack.value.toNat ++
      [tcp.dataOffsetScaled <<< 4 ||| tcp.reserved, tcp.flags] ++ beBytes 2 tcp.window.toNat)
    (beBytes 2 tcp.checksum.toNat) (beBytes 2 tcp.urgPtr.toNat ++ rest) (beBytes 2 cksum.toNat)
    (by simp [Header.bytes]) (by simp [Header.bytes]) (by simp) rfl ?_ h.ipPlain ?_
  · rw [← hck]
    change v.raw.mem.write (v.ipPacketView.payload.data + 16) (cksumBytes (dpdk.ipv4UdptcpCksum
      v.raw.mem (v.raw.data + 14) v.ipPacketView.payload.data)) = _
    rw [h.ip_payload_data]
    simp
  · exact ⟨h.tcpPlain.reserved, h.tcpPlain.offset⟩

/-- The payload goes right behind the options. -/
theorem writePayload (h : v.Laid eth ip tcp rest) (hrest : 20 + rest.length = tcp.dataOffset)
    (bs : List UInt8) : (v.writePayload bs).Laid eth ip tcp (rest ++ bs) := by
  refine ⟨?_, h.ipPlain, h.tcpPlain⟩
  change (v.raw.mem.write (v.ipPacketView.payload.data + v.header.dataOffset) bs).Holds v.raw.data _
  have hend := h.holds.write_end bs
  have hpos : v.raw.data + (eth.bytes ++ ip.bytes ++ tcp.bytes ++ rest).length =
      v.raw.data + 34 + (20 + rest.length) := by
    simp only [List.length_append, EthernetHeader.length_bytes, IpHeader.length_bytes,
      Header.length_bytes]
    omega
  rw [hpos, List.append_assoc _ rest] at hend
  rw [h.ip_payload_data, h.header_eq, ← hrest]
  exact hend

/-- The payload view has the size that the total length leaves behind the headers, computed in
`size_t`. -/
theorem payload_size_eq (h : v.Laid eth ip tcp rest) (hle : 20 ≤ ip.totalLength) :
    v.payload.size = sizeSub (ip.totalLength - 20) tcp.dataOffset := by
  have htotal := h.ipPlain.total
  have hip : v.ipPacketView.payload.size = ip.totalLength - 20 := by
    change sizeSub v.ipPacketView.header.totalLength (v.ipPacketView.header.ihl.toNat * 4) = _
    rw [h.ip_header, h.ipPlain.ihl]
    exact sizeSub_of_le (by show 20 ≤ _; omega) (by omega)
  change sizeSub v.ipPacketView.payload.size v.header.dataOffset = _
  rw [hip, h.header_eq]

theorem payload_size (h : v.Laid eth ip tcp rest) (hle : 20 + tcp.dataOffset ≤ ip.totalLength) :
    v.payload.size = ip.totalLength - 20 - tcp.dataOffset := by
  have htotal := h.ipPlain.total
  rw [h.payload_size_eq (by omega), sizeSub_of_le (by omega) (by omega)]

end Laid

/-! ## The packet `init` lays out -/

def ethHeader (session : Session) : EthernetHeader := ⟨session.dst.mac, session.src.mac, .Ipv4⟩

def ipHeader (session : Session) (total : Nat) (id : UInt16) : IpHeader where
  version := 4
  ihl := 5
  tos := 0
  totalLength := total
  id := id
  fragOff := 0
  ttl := 64
  protocol := .Tcp
  srcAddr := session.src.ip
  dstAddr := session.dst.ip
  check := 0

def tcpHeader (connection : Connection) (flags : Flags) (seq ack : SeqNumber) (options : Bool) :
    Header where
  srcPort := connection.srcPort
  dstPort := connection.dstPort
  dataOffsetScaled := if options then 5 + 3 else 5
  flags := flags
  reserved := 0
  window := kDefaultWindowSize
  checksum := 0
  urgPtr := 0
  seq := seq
  ack := ack

def optionBytes (options : Bool) : List UInt8 := if options then kDefaultOptionsBlock else []

section Init

variable {v v' : PacketView} {connection : Connection} {flags : Flags} {seq ack : SeqNumber}
  {options : Bool}

theorem tcpHeader_plain (connection : Connection) (flags : Flags) (seq ack : SeqNumber)
    (options : Bool) : (tcpHeader connection flags seq ack options).Plain := by
  refine ⟨rfl, ?_⟩
  cases options
  · exact Or.inl rfl
  · exact Or.inr rfl

theorem tcpHeader_dataOffset (connection : Connection) (flags : Flags) (seq ack : SeqNumber)
    (options : Bool) : (tcpHeader connection flags seq ack options).dataOffset =
      20 + (optionBytes options).length := by
  cases options <;> rfl

theorem laid_of_init (hmin : 14 ≤ v.raw.size) (hmax : v.raw.size < 2 ^ 16)
    (h : v.init connection flags seq ack options = .ok v') :
    v'.Laid (ethHeader connection.session) (ipHeader connection.session (v.raw.size - 14) 0)
        (tcpHeader connection flags seq ack options) (optionBytes options) ∧
      v'.raw.data = v.raw.data ∧ v'.raw.size = v.raw.size := by
  unfold init at h
  cases hip : v.ipPacketView.init connection.session .Tcp with
  | error e =>
    rw [hip] at h
    cases h
  | ok ip =>
    rw [hip] at h
    obtain rfl := Except.ok.inj h
    have hihl := ihl_of_init hip
    have hplain : (ipHeader connection.session (v.raw.size - 14) 0).Plain :=
      ⟨rfl, rfl, by show v.raw.size - 14 < 2 ^ 16; omega⟩
    obtain ⟨hmem, hdata, hsize⟩ : ip.ethView.data.mem =
          (v.raw.mem.write v.raw.data (ethHeader connection.session).bytes).write
            (v.raw.data + 14) (ipHeader connection.session (v.raw.size - 14) 0).bytes ∧
        ip.ethView.data.data = v.raw.data ∧ ip.ethView.data.size = v.raw.size := by
      unfold IPPacketView.init at hip
      rw [show v.ipPacketView.ethView.init connection.session.dst.mac connection.session.src.mac
        .Ipv4 = .ok ⟨v.raw.write 0 (ethHeader connection.session).bytes⟩ from
          if_pos (decide_eq_true hmin)] at hip
      simp only [bind, Except.bind] at hip
      split at hip
      · obtain rfl := Except.ok.inj hip
        refine ⟨?_, rfl, rfl⟩
        have htotal : sizeSub v.raw.size 14 = v.raw.size - 14 := sizeSub_of_le hmin (by omega)
        rw [← htotal]
        rfl
      · cases hip
    have hpayload : (⟨ip⟩ : PacketView).ipPacketView.payload.data = v.raw.data + 34 := by
      change ip.ethView.data.data + 14 +
        (ip.ethView.data.mem (ip.ethView.data.data + 14) &&& 0x0F).toNat * 4 = _
      rw [hihl, hdata]
      rfl
    have hheaders : ip.ethView.data.mem.Holds v.raw.data ((ethHeader connection.session).bytes ++
        (ipHeader connection.session (v.raw.size - 14) 0).bytes) := by
      have hwrite := (Memory.holds_write v.raw.mem v.raw.data
        (ethHeader connection.session).bytes).write_end
          (ipHeader connection.session (v.raw.size - 14) 0).bytes
      rw [EthernetHeader.length_bytes] at hwrite
      rw [hmem]
      exact hwrite
    have hlaid : (PacketView.write ⟨ip⟩ 0 (tcpHeader connection flags seq ack options).bytes).Laid
        (ethHeader connection.session) (ipHeader connection.session (v.raw.size - 14) 0)
        (tcpHeader connection flags seq ack options) [] := by
      refine ⟨?_, hplain, tcpHeader_plain ..⟩
      change (ip.ethView.data.mem.write ((⟨ip⟩ : PacketView).ipPacketView.payload.data + 0)
        _).Holds ip.ethView.data.data _
      have hwrite := hheaders.write_end (tcpHeader connection flags seq ack options).bytes
      rw [List.length_append, EthernetHeader.length_bytes, IpHeader.length_bytes] at hwrite
      rw [hpayload, hdata, List.append_nil]
      exact hwrite
    cases options with
    | false => exact ⟨hlaid, hdata, hsize⟩
    | true =>
      refine ⟨⟨?_, hplain, tcpHeader_plain ..⟩, hdata, hsize⟩
      have hwrite := hlaid.holds.write_end kDefaultOptionsBlock
      have hpos := hlaid.ip_payload_data
      rw [List.append_nil] at hwrite
      simp only [List.length_append, EthernetHeader.length_bytes, IpHeader.length_bytes,
        Header.length_bytes] at hwrite
      change ((PacketView.write ⟨ip⟩ 0 (tcpHeader connection flags seq ack true).bytes).write
        Header.sizeof kDefaultOptionsBlock).raw.mem.Holds (PacketView.write ⟨ip⟩ 0
          (tcpHeader connection flags seq ack true).bytes).raw.data _
      generalize PacketView.write ⟨ip⟩ 0 (tcpHeader connection flags seq ack true).bytes = w at *
      change (w.raw.mem.write (w.ipPacketView.payload.data + 20) kDefaultOptionsBlock).Holds
        w.raw.data _
      rw [hpos]
      exact hwrite

end Init

end Tcp.PacketView

/-! ## Checksums -/

/-- The sum of the 16-bit words of a byte string, a single last byte filled up with zero. -/
def wordSum : List UInt8 → Nat
  | [] => 0
  | [a] => a.toNat * 256
  | a :: b :: rest => a.toNat * 256 + b.toNat + wordSum rest

/-- The Internet checksum: the complement of the sum of the words with carries added back. -/
def internetChecksum (bs : List UInt8) : UInt16 :=
  UInt16.ofNat (0xFFFF - if wordSum bs = 0 then 0 else (wordSum bs - 1) % 0xFFFF + 1)

/-- The checksum functions leave in memory the Internet checksum of the IP header, and of the
pseudo header and the TCP segment that the IP header tells the length of. -/
structure Dpdk.ChecksumsCorrect (dpdk : Dpdk) : Prop where
  ip : ∀ m a, cksumBytes (dpdk.ipv4Cksum m a) =
    beBytes 2 (internetChecksum (m.bytes a ((m a &&& 0x0F).toNat * 4))).toNat
  tcp : ∀ m a b n, m (a + 9) = IpProtocol.Tcp →
    m.be (a + 2) 2 = (m a &&& 0x0F).toNat * 4 + n →
    cksumBytes (dpdk.ipv4UdptcpCksum m a b) =
      beBytes 2 (internetChecksum (m.bytes (a + 12) 8 ++ [0, IpProtocol.Tcp] ++ beBytes 2 n ++
        m.bytes b n)).toNat

theorem IpHeader.pseudo_of_holds {m : Memory} {a : Nat} {h : IpHeader} (hv : m.Holds a h.bytes) :
    m.bytes (a + 12) 8 = h.srcAddr.toList ++ h.dstAddr.toList ∧ m (a + 9) = h.protocol := by
  unfold IpHeader.bytes at hv
  simp only [Memory.holds_append, Memory.holds_cons, List.length_append, List.length_cons,
    List.length_nil, length_beBytes, Vector.length_toList, Nat.add_assoc, Nat.reduceAdd] at hv
  obtain ⟨⟨⟨⟨-, -, hproto, -⟩, -⟩, hsrc⟩, hdst⟩ := hv
  have haddrs : m.Holds (a + 12) (h.srcAddr.toList ++ h.dstAddr.toList) := by
    rw [Memory.holds_append, Vector.length_toList]
    exact ⟨hsrc, hdst⟩
  unfold Memory.Holds at haddrs
  rw [List.length_append, Vector.length_toList, Vector.length_toList] at haddrs
  exact ⟨haddrs, hproto⟩

namespace Tcp.PacketView

section Sums

variable {v : PacketView} {eth : EthernetHeader} {ip : IpHeader} {tcp : Header} {rest : List UInt8}
  {dpdk : Dpdk}

theorem Laid.ihl_byte (h : v.Laid eth ip tcp rest) :
    (v.raw.mem (v.raw.data + 14) &&& 0x0F).toNat * 4 = 20 := by
  have hihl : v.raw.mem (v.raw.data + 14) &&& 0x0F = ip.ihl := congrArg IpHeader.ihl h.ip_header
  rw [hihl, h.ipPlain.ihl]
  rfl

theorem Laid.ipSum (h : v.Laid eth ip tcp rest) (hck : dpdk.ChecksumsCorrect) :
    cksumBytes (dpdk.ipv4Cksum v.raw.mem (v.raw.data + 14)) =
      beBytes 2 (internetChecksum ip.bytes).toNat := by
  have hbytes : v.raw.mem.bytes (v.raw.data + 14) 20 = ip.bytes := by
    have hholds := h.parts.2.1
    unfold Memory.Holds at hholds
    rwa [IpHeader.length_bytes] at hholds
  rw [hck.ip, h.ihl_byte, hbytes]

theorem Laid.tcpSum (h : v.Laid eth ip tcp rest) (hck : dpdk.ChecksumsCorrect)
    (hprotocol : ip.protocol = .Tcp) (htotal : ip.totalLength = 20 + (20 + rest.length)) :
    cksumBytes (dpdk.ipv4UdptcpCksum v.raw.mem (v.raw.data + 14) (v.raw.data + 34)) =
      beBytes 2 (internetChecksum (ip.srcAddr.toList ++ ip.dstAddr.toList ++ [0, IpProtocol.Tcp] ++
        beBytes 2 (20 + rest.length) ++ (tcp.bytes ++ rest))).toNat := by
  have hlength : v.raw.mem.be (v.raw.data + 14 + 2) 2 =
      (v.raw.mem (v.raw.data + 14) &&& 0x0F).toNat * 4 + (20 + rest.length) := by
    rw [h.ihl_byte, ← htotal]
    exact congrArg IpHeader.totalLength h.ip_header
  have hsegment : v.raw.mem.bytes (v.raw.data + 34) (20 + rest.length) = tcp.bytes ++ rest := by
    have hholds : v.raw.mem.Holds (v.raw.data + 34) (tcp.bytes ++ rest) := by
      rw [Memory.holds_append, Header.length_bytes]
      exact ⟨h.parts.2.2.1, h.parts.2.2.2⟩
    unfold Memory.Holds at hholds
    rwa [List.length_append, Header.length_bytes] at hholds
  obtain ⟨haddrs, hproto⟩ := IpHeader.pseudo_of_holds h.parts.2.1
  rw [hck.tcp _ _ _ _ (hproto.trans hprotocol) hlength, haddrs, hsegment]

theorem size_updateChecksum (dpdk : Dpdk) (v : PacketView) :
    (v.updateChecksum dpdk).raw.size = v.raw.size := by
  obtain ⟨⟨⟨mem, data, size⟩⟩⟩ := v
  rfl

theorem size_updateIpChecksum (dpdk : Dpdk) (v : PacketView) :
    (v.updateIpChecksum dpdk).raw.size = v.raw.size := by
  obtain ⟨⟨⟨mem, data, size⟩⟩⟩ := v
  rfl

end Sums

section Finish

variable (connection : Connection) (flags : Flags) (seq ack : SeqNumber) (id : UInt16)
  (options : Bool) (p : List UInt8)

/-- The headers of the frame that goes out. -/
def finalIp : IpHeader :=
  let ip := ipHeader connection.session (20 + (20 + (optionBytes options ++ p).length)) id
  { ip with check := internetChecksum ip.bytes }

def finalTcp : Header :=
  let tcp := tcpHeader connection flags seq ack options
  let session := connection.session
  { tcp with
    checksum := internetChecksum (session.src.ip.toList ++ session.dst.ip.toList ++
      [0, IpProtocol.Tcp] ++ beBytes 2 (20 + (optionBytes options ++ p).length) ++
      (tcp.bytes ++ (optionBytes options ++ p))) }

def frameBytes : List UInt8 :=
  (ethHeader connection.session).bytes ++ (finalIp connection id options p).bytes ++
    (finalTcp connection flags seq ack options p).bytes ++ (optionBytes options ++ p)

theorem predictSize_eq :
    predictSize p.length options = 54 + (optionBytes options).length + p.length := by
  cases options <;> simp only [predictSize, IPPacketView.predictSize,
    EthernetPacketView.predictSize, EthernetHeader.sizeof, Header.sizeof, optionBytes] <;>
    simp [kDefaultOptionsBlock] <;> omega

theorem length_frameBytes :
    (frameBytes connection flags seq ack id options p).length = predictSize p.length options := by
  rw [predictSize_eq]
  simp only [frameBytes, List.length_append, EthernetHeader.length_bytes, IpHeader.length_bytes,
    Header.length_bytes]
  omega

variable {connection flags seq ack id options p} {v : PacketView} {dpdk : Dpdk}

/-- The steps of `send` cut the frame to the payload. -/
theorem Laid.size_finish {total : Nat}
    (h : v.Laid (ethHeader connection.session) (ipHeader connection.session total id)
      (tcpHeader connection flags seq ack options) (optionBytes options))
    (hfits : predictSize p.length options < 2 ^ 16) :
    (Client.finishPacket dpdk ⟨v.writePayload p⟩ p.length).raw.size =
      predictSize p.length options := by
  have hsize := predictSize_eq options p
  have hoff := tcpHeader_dataOffset connection flags seq ack options
  obtain ⟨-, hframe⟩ := (h.writePayload hoff.symm p).resizePayload (n := p.length)
    (by rw [hoff]; omega)
  rw [Client.finishPacket, size_updateIpChecksum, size_updateChecksum, hframe, hsize, hoff]
  omega

/-- They fill in the lengths and the checksums. -/
theorem Laid.finish (hck : dpdk.ChecksumsCorrect) {total : Nat}
    (h : v.Laid (ethHeader connection.session) (ipHeader connection.session total id)
      (tcpHeader connection flags seq ack options) (optionBytes options))
    (hfits : predictSize p.length options < 2 ^ 16) :
    (Client.finishPacket dpdk ⟨v.writePayload p⟩ p.length).Laid (ethHeader connection.session)
        (finalIp connection id options p) (finalTcp connection flags seq ack options p)
        (optionBytes options ++ p) ∧
      (Client.finishPacket dpdk ⟨v.writePayload p⟩ p.length).raw.size =
        predictSize p.length options := by
  have hsize := predictSize_eq options p
  have hoff := tcpHeader_dataOffset connection flags seq ack options
  obtain ⟨hcut, -⟩ := (h.writePayload hoff.symm p).resizePayload (n := p.length)
    (by rw [hoff]; omega)
  have htotal : 20 + (tcpHeader connection flags seq ack options).dataOffset + p.length =
      20 + (20 + (optionBytes options ++ p).length) := by
    rw [hoff, List.length_append]
    omega
  have hip : { ipHeader connection.session total id with
      totalLength := 20 + (tcpHeader connection flags seq ack options).dataOffset + p.length } =
      ipHeader connection.session (20 + (20 + (optionBytes options ++ p).length)) id := by
    rw [htotal]
    rfl
  rw [hip] at hcut
  refine ⟨?_, h.size_finish hfits⟩
  unfold Client.finishPacket
  generalize (v.writePayload p).resizePayload p.length = w at *
  have hsummed := hcut.updateChecksum (hcut.tcpSum hck rfl rfl)
  exact hsummed.updateIpChecksum (hsummed.ipSum hck)

end Finish

/-! ## Reading a frame back -/

/-- The options depend only on the bytes that are scanned. -/
theorem scanOptions_congr {d d' : ByteView} (hsize : d.size = d'.size)
    (hget : ∀ i < d.size, d.get i = d'.get i) (fuel offset : Nat) (options : Options) :
    scanOptions d fuel offset options = scanOptions d' fuel offset options := by
  induction fuel generalizing offset options with
  | zero => rfl
  | succ fuel ih =>
    simp only [scanOptions, ← hsize]
    by_cases hin : offset < d.size
    · rw [if_pos hin, if_pos hin, ← hget offset hin]
      split
      · rfl
      · split
        · exact ih _ _
        · by_cases hroom : offset + 2 ≤ d.size
          · rw [if_pos hroom, if_pos hroom, ← hget (offset + 1) (by omega)]
            by_cases hlen : (d.get (offset + 1)).toNat ≥ 2 ∧
                offset + (d.get (offset + 1)).toNat ≤ d.size
            · rw [if_pos hlen, if_pos hlen]
              by_cases hscale : (d.get offset == kWindowScaleOptionKind &&
                  (d.get (offset + 1)).toNat == 3) = true
              · have hthree : (d.get (offset + 1)).toNat = 3 := by
                  simp only [Bool.and_eq_true, beq_iff_eq] at hscale
                  exact hscale.2
                rw [if_pos hscale, if_pos hscale, ← hget (offset + 2) (by omega)]
                exact ih _ _
              · rw [if_neg hscale, if_neg hscale]
                exact ih _ _
            · rw [if_neg hlen, if_neg hlen]
          · rw [if_neg hroom, if_neg hroom]
    · rw [if_neg hin, if_neg hin]

/-- What a reader finds in a frame with these headers, options, payload and padding. -/
structure Parsed (v : PacketView) (connection : Connection) (flags : Flags) (seq ack : SeqNumber)
    (id : UInt16) (options : Bool) (p : List UInt8) : Prop where
  valid : v.isValid = true
  macs : v.eth.header = ethHeader connection.session
  src : v.ip.header.srcAddr = connection.session.src.ip
  dst : v.ip.header.dstAddr = connection.session.dst.ip
  id : v.ip.header.id = id
  srcPort : v.header.srcPort = connection.srcPort
  dstPort : v.header.dstPort = connection.dstPort
  flags : v.header.flags = flags
  seq : v.header.seq = seq
  ack : v.header.ack = ack
  payload : v.payload.toList = p
  options : v.parseOptions = .ok ⟨if options then some 0 else none⟩

section Parsing

variable {v : PacketView} {eth : EthernetHeader} {ip : IpHeader} {tcp : Header}
  {rest : List UInt8}

theorem Laid.payload_toList {opts p pad : List UInt8} (h : v.Laid eth ip tcp (opts ++ p ++ pad))
    (htotal : ip.totalLength = 20 + (20 + (opts ++ p).length))
    (hoff : tcp.dataOffset = 20 + opts.length) : v.payload.toList = p := by
  have hlt := h.ipPlain.total
  have hsize : sizeSub (sizeSub v.ipPacketView.header.totalLength v.ipPacketView.header.size)
      v.header.dataOffset = p.length := by
    have hhdr : v.ipPacketView.header.size = 20 := h.ihl_byte
    rw [List.length_append] at htotal
    have hip : sizeSub ip.totalLength 20 = 20 + opts.length + p.length := by
      rw [sizeSub_of_le (by omega) (by omega)]
      omega
    rw [hhdr, h.ip_header, h.header_eq, hoff, hip, sizeSub_of_le (by omega) (by omega)]
    omega
  have hrest := h.parts.2.2.2
  rw [Memory.holds_append, Memory.holds_append] at hrest
  have hp := hrest.1.2
  change v.raw.mem.bytes (v.ipPacketView.payload.data + v.header.dataOffset)
    (sizeSub (sizeSub v.ipPacketView.header.totalLength v.ipPacketView.header.size)
      v.header.dataOffset) = p
  rw [hsize, h.ip_payload_data, h.header_eq, hoff]
  unfold Memory.Holds at hp
  rw [show v.raw.data + 34 + (20 + opts.length) = v.raw.data + 54 + opts.length by omega]
  exact hp

theorem Laid.parseOptions_eq {options : Bool} (h : v.Laid eth ip tcp (optionBytes options ++ rest))
    (hoff : tcp.dataOffset = 20 + (optionBytes options).length) :
    v.parseOptions = .ok ⟨if options then some 0 else none⟩ := by
  have hsize : v.optionsView.size = (optionBytes options).length := by
    change sizeSub v.header.dataOffset 20 = _
    rw [h.header_eq, hoff, sizeSub_of_le (by omega) (by cases options <;> decide)]
    omega
  have hrest := h.parts.2.2.2
  rw [Memory.holds_append] at hrest
  have hget : ∀ i < v.optionsView.size,
      v.optionsView.get i = (ByteView.ofList (optionBytes options)).get i := by
    intro i hi
    rw [hsize] at hi
    have hbyte := congrArg (fun l => l[i]?) hrest.1
    rw [Memory.getElem?_bytes _ hi, List.getElem?_eq_getElem hi, Option.some.injEq] at hbyte
    change v.raw.mem (v.ipPacketView.payload.data + 20 + i) = (optionBytes options).getD (0 + i) 0
    rw [h.ip_payload_data, Nat.zero_add, List.getD_eq_getElem _ _ hi, ← hbyte]
  unfold parseOptions
  rw [scanOptions_congr (by rw [hsize]; rfl) hget, hsize]
  cases options <;> rfl

variable {connection : Connection} {flags : Flags} {seq ack : SeqNumber} {id : UInt16}
  {options : Bool} {p : List UInt8}

/-- A frame with the bytes that go out, unpadded or padded to the Ethernet minimum, is read
back. -/
theorem parsed_of_frameBytes {pad : Nat} (hfits : predictSize p.length options < 2 ^ 16)
    (hpad : pad = 0 ∨ predictSize p.length options + pad = 60) :
    (ofBytes (.ofList (frameBytes connection flags seq ack id options p ++
      List.replicate pad 0))).Parsed connection flags seq ack id options p := by
  have hpredict := predictSize_eq options p
  have hoff : (finalTcp connection flags seq ack options p).dataOffset =
      20 + (optionBytes options).length := tcpHeader_dataOffset connection flags seq ack options
  have htotal : (finalIp connection id options p).totalLength =
      20 + (20 + (optionBytes options ++ p).length) := rfl
  have hlaid : (ofBytes (.ofList (frameBytes connection flags seq ack id options p ++
      List.replicate pad 0))).Laid (ethHeader connection.session)
        (finalIp connection id options p) (finalTcp connection flags seq ack options p)
        (optionBytes options ++ p ++ List.replicate pad 0) := by
    refine ⟨?_, ⟨rfl, rfl, ?_⟩, ⟨rfl, (tcpHeader_plain connection flags seq ack options).offset⟩⟩
    · have hsplit : frameBytes connection flags seq ack id options p ++ List.replicate pad 0 =
          (ethHeader connection.session).bytes ++ (finalIp connection id options p).bytes ++
            (finalTcp connection flags seq ack options p).bytes ++
              (optionBytes options ++ p ++ List.replicate pad 0) := by
        rw [frameBytes, List.append_assoc _ (optionBytes options ++ p)]
      rw [← hsplit]
      exact Memory.holds_ofList _
    · rw [htotal, List.length_append]
      omega
  have hsize : (ofBytes (.ofList (frameBytes connection flags seq ack id options p ++
      List.replicate pad 0))).raw.size = predictSize p.length options + pad := by
    change (frameBytes connection flags seq ack id options p ++ List.replicate pad 0).length = _
    rw [List.length_append, List.length_replicate, length_frameBytes]
  generalize ofBytes (.ofList (frameBytes connection flags seq ack id options p ++
    List.replicate pad 0)) = v at *
  have hip := hlaid.ip_header
  have hheader := hlaid.header_eq
  have hassoc := hlaid
  rw [List.append_assoc] at hassoc
  refine ⟨?_, hlaid.eth_header, congrArg IpHeader.srcAddr hip, congrArg IpHeader.dstAddr hip,
    congrArg IpHeader.id hip, congrArg Header.srcPort hheader, congrArg Header.dstPort hheader,
    congrArg Header.flags hheader, congrArg Header.seq hheader, congrArg Header.ack hheader,
    hlaid.payload_toList htotal hoff, hassoc.parseOptions_eq hoff⟩
  have hlength : v.ipPacketView.header.totalLength =
      20 + (20 + (optionBytes options ++ p).length) := congrArg IpHeader.totalLength hip
  have hhdr : v.ipPacketView.header.size = 20 := hlaid.ihl_byte
  have hpayload : v.ipPacketView.ethView.payload.size =
      predictSize p.length options + pad - 14 := by
    change sizeSub v.raw.size 14 = _
    rw [hsize, sizeSub_of_le (by omega) (by omega)]
  rw [List.length_append] at hlength
  change ((decide (v.ipPacketView.header.totalLength < 60) ||
    v.ipPacketView.header.totalLength == v.ipPacketView.ethView.payload.size) &&
    decide (v.ipPacketView.header.size ≤ v.ipPacketView.ethView.payload.size)) = true
  simp only [Bool.and_eq_true, Bool.or_eq_true, decide_eq_true_eq, beq_iff_eq]
  omega

end Parsing

end Tcp.PacketView

namespace Tcp.Client

open PacketView

/-- The packet `get_send_buffer` returns. -/
theorem getSendBuffer_laid {dpdk : Dpdk} (c : Client) (flags : Flags) (options : Bool)
    {mem : Memory} (halloc : dpdk.pktmbufAlloc c.sender.allocs = some mem)
    (hroom : 34 ≤ dpdk.dataRoomSize.toNat) :
    ∃ packet, getSendBuffer dpdk flags options c =
        .ok packet { c with sender := { c.sender with allocs := c.sender.allocs + 1 } } ∧
      packet.tcp.Laid (ethHeader c.connection.session)
        (ipHeader c.connection.session (dpdk.dataRoomSize.toNat - 14) c.ipId)
        (tcpHeader c.connection flags c.seq c.ack options) (optionBytes options) := by
  have hmax : dpdk.dataRoomSize.toNat < 2 ^ 16 := dpdk.dataRoomSize.toNat_lt
  have hbuffer : Device.getSendBuffer dpdk c.sender =
      .ok ⟨mem, 0, dpdk.dataRoomSize.toNat⟩ { c.sender with allocs := c.sender.allocs + 1 } := by
    rw [Device.getSendBuffer_apply, halloc]
  have hcall : onSender (Device.getSendBuffer dpdk) c = .ok ⟨mem, 0, dpdk.dataRoomSize.toNat⟩
      { c with sender := { c.sender with allocs := c.sender.allocs + 1 } } := zoom_of_ok hbuffer
  have hok := init_isOk (ofBytes ⟨mem, 0, dpdk.dataRoomSize.toNat⟩) c.connection flags c.seq c.ack
    options hmax
  rw [show (ofBytes ⟨mem, 0, dpdk.dataRoomSize.toNat⟩).raw.size = dpdk.dataRoomSize.toNat from rfl,
    decide_eq_true hroom] at hok
  cases hinit : (ofBytes ⟨mem, 0, dpdk.dataRoomSize.toNat⟩).init c.connection flags c.seq c.ack
      options with
  | error e =>
    rw [hinit] at hok
    cases hok
  | ok tcp =>
    obtain ⟨hlaid, -, -⟩ := laid_of_init (v := ofBytes ⟨mem, 0, dpdk.dataRoomSize.toNat⟩)
      (by show 14 ≤ dpdk.dataRoomSize.toNat; omega) hmax hinit
    refine ⟨⟨tcp.setIpId c.ipId⟩, ?_, hlaid.setIpId c.ipId⟩
    rw [getSendBuffer, bind_of_ok hcall, bind_of_ok (get_apply _)]
    change (ofExcept ((ofBytes ⟨mem, 0, dpdk.dataRoomSize.toNat⟩).init c.connection flags c.seq c.ack
      options) >>= _) _ = _
    rw [hinit]
    rfl

/-- `send` returns if the window has room and the card takes the packet. -/
theorem send_eq_ok {dpdk : Dpdk} (packet : SendBuffer) {n : Nat} {c : Client}
    (hwindow : c.unacknowledgedBytes.toNat + n ≤ c.sendWnd.toNat)
    (hburst : dpdk.ethTxBurst c.sender.bursts ≠ 0) :
    ∃ d, send dpdk packet n c = .ok () { handOver dpdk c packet n with sender := d } ∧
      d.transmitted = c.sender.transmitted ++ [(finishPacket dpdk packet n).eth.rawBytes] := by
  have hlt := c.sendWnd.toNat_lt
  have hmod : (c.unacknowledgedBytes.toNat + n) % 2 ^ 64 ≤ c.sendWnd.toNat := by
    rw [Nat.mod_eq_of_lt (by omega)]
    exact hwindow
  rw [send_apply, if_pos hmod, if_neg hburst]
  exact ⟨_, rfl, rfl⟩

/-- **Building and parsing are inverse**: a packet obtained, filled with a payload that fits the
buffer and sent goes out as a frame of the predicted length whose bytes depend on the connection,
the counters, the flags and the payload only, with both checksums taken over the final bytes; read
as a received frame, padded or not, it gives all of them back. -/
theorem frame_roundtrip {dpdk : Dpdk} (hck : dpdk.ChecksumsCorrect) (c : Client) (flags : Flags)
    (options : Bool) (p : List UInt8) {mem : Memory}
    (halloc : dpdk.pktmbufAlloc c.sender.allocs = some mem)
    (hfits : predictSize p.length options ≤ dpdk.dataRoomSize.toNat)
    (hwindow : c.unacknowledgedBytes.toNat + p.length ≤ c.sendWnd.toNat)
    (hburst : dpdk.ethTxBurst c.sender.bursts ≠ 0) :
    ∃ c' frame, sendCall dpdk flags options p p.length c = .ok () c' ∧
      c'.sender.transmitted = c.sender.transmitted ++ [frame] ∧
      frame.size = predictSize p.length options ∧
      frame.toList = frameBytes c.connection flags c.seq c.ack c.ipId options p ∧
      ∀ pad, pad = 0 ∨ frame.size + pad = 60 →
        (ofBytes (.ofList (frame.toList ++ List.replicate pad 0))).Parsed c.connection flags c.seq
          c.ack c.ipId options p := by
  have hpredict := predictSize_eq options p
  have hmax : dpdk.dataRoomSize.toNat < 2 ^ 16 := dpdk.dataRoomSize.toNat_lt
  obtain ⟨packet, hbuffer, hlaid⟩ := getSendBuffer_laid c flags options halloc (by omega)
  obtain ⟨hframe, hsize⟩ := hlaid.finish hck (p := p) (by omega)
  have hbytes : (finishPacket dpdk ⟨packet.tcp.writePayload p⟩ p.length).eth.rawBytes.toList =
      frameBytes c.connection flags c.seq c.ack c.ipId options p := by
    have hholds := hframe.holds
    unfold Memory.Holds at hholds
    have hlength := length_frameBytes c.connection flags c.seq c.ack c.ipId options p
    unfold frameBytes at hlength
    rw [hlength, ← hsize] at hholds
    exact hholds
  obtain ⟨d, hsend, hsent⟩ := send_eq_ok ⟨packet.tcp.writePayload p⟩
    (c := { c with sender := { c.sender with allocs := c.sender.allocs + 1 } }) hwindow hburst
  refine ⟨_, _, (bind_of_ok hbuffer).trans hsend, hsent, hsize, hbytes, ?_⟩
  intro pad hpad
  have hpad : pad = 0 ∨ predictSize p.length options + pad = 60 := by
    rw [← hsize]
    exact hpad
  rw [hbytes]
  exact parsed_of_frameBytes (by omega) hpad

/-- A number as the other byte order reads it. -/
def swapBytes (x : UInt16) : UInt16 := UInt16.ofNat (x.toNat % 256 * 256 + x.toNat / 256)

theorem toNat_swapBytes (x : UInt16) :
    (swapBytes x).toNat = x.toNat % 256 * 256 + x.toNat / 256 := by
  have hlt := x.toNat_lt
  rw [swapBytes, UInt16.toNat_ofNat']
  omega

theorem swapBytes_div (x : UInt16) : (swapBytes x).toNat / 256 = x.toNat % 256 := by
  have hlt := x.toNat_lt
  rw [toNat_swapBytes, Nat.mul_comm, Nat.mul_add_div (by decide), Nat.div_eq_of_lt (by omega),
    Nat.add_zero]

theorem swapBytes_mod (x : UInt16) : (swapBytes x).toNat % 256 = x.toNat / 256 := by
  have hlt := x.toNat_lt
  rw [toNat_swapBytes, Nat.mul_comm, Nat.mul_add_mod, Nat.mod_eq_of_lt (by omega)]

theorem swapBytes_swapBytes (x : UInt16) : swapBytes (swapBytes x) = x := by
  apply UInt16.toNat_inj.mp
  rw [toNat_swapBytes, swapBytes_div, swapBytes_mod]
  omega

theorem cksumBytes_swapBytes (x : UInt16) : cksumBytes (swapBytes x) = beBytes 2 x.toNat := by
  have hdiv := swapBytes_div x
  have hmod := swapBytes_mod x
  have hhigh : UInt8.ofNat (swapBytes x).toNat = UInt8.ofNat (x.toNat / 256) := by
    apply UInt8.toNat_inj.mp
    rw [UInt8.toNat_ofNat', UInt8.toNat_ofNat']
    omega
  have hlow : UInt8.ofNat ((swapBytes x).toNat / 256) = UInt8.ofNat x.toNat := by
    apply UInt8.toNat_inj.mp
    rw [UInt8.toNat_ofNat', UInt8.toNat_ofNat']
    omega
  simp [cksumBytes, beBytes, hhigh, hlow]

/-- A card with checksum functions that are correct. -/
def summingDpdk : Dpdk :=
  { sampleDpdk with
    ipv4Cksum := fun m a => swapBytes (internetChecksum (m.bytes a ((m a &&& 0x0F).toNat * 4)))
    ipv4UdptcpCksum := fun m a b =>
      let n := m.be (a + 2) 2 - (m a &&& 0x0F).toNat * 4
      swapBytes (internetChecksum (m.bytes (a + 12) 8 ++ [0, m (a + 9)] ++ beBytes 2 n ++
        m.bytes b n)) }

theorem summingDpdk_correct : summingDpdk.ChecksumsCorrect := by
  constructor
  · intro m a
    exact cksumBytes_swapBytes _
  · intro m a b n hprotocol hn
    have hlength : m.be (a + 2) 2 - (m a &&& 0x0F).toNat * 4 = n := by omega
    refine (cksumBytes_swapBytes _).trans ?_
    rw [hlength, hprotocol]

theorem one_byte_roundtrip :
    ∃ c' frame, sendCall summingDpdk .PSH_ACK false [65] 1 connecting = .ok () c' ∧
      c'.sender.transmitted = [frame] ∧ frame.size = 55 ∧
      (ofBytes (.ofList (frame.toList ++ List.replicate 5 0))).payload.toList = [65] := by
  obtain ⟨c', frame, hok, hsent, hsize, -, hparsed⟩ := frame_roundtrip summingDpdk_correct
    connecting .PSH_ACK false [65] rfl (by decide) (by decide) (by decide)
  exact ⟨c', frame, hok, hsent, hsize, (hparsed 5 (Or.inr (by rw [hsize]; rfl))).payload⟩

end Tcp.Client

end WsGateway.Network
