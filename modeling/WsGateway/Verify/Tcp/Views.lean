import WsGateway.Network.Tcp.PacketView

/-!
# Bounds of the packet views

`is_valid` compares the IP lengths with the frame in one condition, with a
special case for packets below 60 bytes. This file says which frames have all
their inner views inside them: `is_valid` leaves out the checks collected in
`WellSized`, and among the frames it accepts exactly those that pass them are in
bounds.
-/

namespace WsGateway.Network.Tcp

open Library

namespace PacketView

/-- Every view derived from the frame lies inside it, and no size has wrapped. -/
structure InBounds (v : PacketView) : Prop where
  eth_size : v.eth.data.size = v.eth.payload.size + EthernetHeader.sizeof
  eth_min : 20 ≤ v.eth.payload.size
  ip_min : 20 ≤ v.ip.header.size
  ip_header : v.ip.header.size ≤ v.ip.header.totalLength
  ip_total : v.ip.header.totalLength ≤ v.eth.payload.size
  tcp_min : 20 ≤ v.header.dataOffset
  tcp_header : v.header.dataOffset ≤ v.ip.payload.size
  ip_payload : v.ip.payload.Within v.eth.data
  tcp_payload : v.payload.Within v.eth.data
  options : v.optionsView.Within v.eth.data

/-- The checks on the wire fields that `is_valid` does not make: both header lengths at least
their minimum and together within the total length, and the total length of a packet below
60 bytes within the frame. -/
structure WellSized (v : PacketView) : Prop where
  frame : 34 ≤ v.eth.data.size
  ihl : 5 ≤ v.ip.header.ihl.toNat
  offset : 5 ≤ v.header.dataOffsetScaled.toNat
  headers : 4 * v.ip.header.ihl.toNat + 4 * v.header.dataOffsetScaled.toNat ≤
    v.ip.header.totalLength
  short : v.ip.header.totalLength < 60 →
    v.ip.header.totalLength + EthernetHeader.sizeof ≤ v.eth.data.size

theorem totalLength_lt (v : IPPacketView) : v.header.totalLength < 2 ^ 16 :=
  v.ethView.payload.be_lt 2 2

theorem isValid_iff (v : PacketView) : v.isValid = true ↔
    (v.ip.header.totalLength < 60 ∨ v.ip.header.totalLength = v.eth.payload.size) ∧
      v.ip.header.size ≤ v.eth.payload.size := by
  simp [isValid, IPPacketView.isValid, ip, eth, IPPacketView.eth]

/-- With the lengths nested as they should be, no subtraction wraps. -/
theorem WellSized.sizes {v : PacketView} (hsize : v.eth.data.size < 2 ^ 64) (h : v.WellSized) :
    v.eth.payload.size = v.eth.data.size - 14 ∧
      v.ip.payload.size = v.ip.header.totalLength - v.ip.header.size ∧
      v.payload.size = v.ip.payload.size - v.header.dataOffset ∧
      v.optionsView.size = v.header.dataOffset - 20 := by
  have htotal := totalLength_lt v.ip
  have hframe := h.frame
  have hihl := h.ihl
  have hoff := h.offset
  have hheaders := h.headers
  have hip : v.ip.payload.size = v.ip.header.totalLength - v.ip.header.size :=
    sizeSub_of_le (by unfold IpHeader.size; omega) (by omega)
  refine ⟨sizeSub_of_le (by unfold EthernetHeader.sizeof; omega) hsize, hip,
    sizeSub_of_le ?_ ?_, sizeSub_of_le ?_ ?_⟩
  · change v.header.dataOffset ≤ v.ip.payload.size
    rw [hip]
    unfold Header.dataOffset IpHeader.size
    omega
  · change v.ip.payload.size < 2 ^ 64
    omega
  · unfold Header.sizeof Header.dataOffset
    omega
  · unfold Header.dataOffset
    omega

/-- **Bounds of a validated packet**: a frame that `is_valid` accepts has all its views in bounds
exactly when it passes the checks `is_valid` leaves out. -/
theorem inBounds_iff_wellSized (v : PacketView) (hsize : v.eth.data.size < 2 ^ 64)
    (hv : v.isValid = true) : v.InBounds ↔ v.WellSized := by
  have htotal := totalLength_lt v.ip
  obtain ⟨hlen, -⟩ := (isValid_iff v).mp hv
  constructor
  · intro h
    have h1 := h.eth_size
    have h2 := h.eth_min
    have h3 := h.ip_min
    have h4 := h.ip_header
    have h5 := h.ip_total
    have h6 := h.tcp_min
    have h7 := h.tcp_header
    have hip : v.ip.payload.size = v.ip.header.totalLength - v.ip.header.size :=
      sizeSub_of_le h4 (by omega)
    unfold EthernetHeader.sizeof at h1
    unfold IpHeader.size at h3 h4 hip
    unfold Header.dataOffset at h6 h7
    exact ⟨by omega, by omega, by omega, by omega, fun _ => by unfold EthernetHeader.sizeof; omega⟩
  · intro h
    obtain ⟨heth, hip, htcp, hopt⟩ := h.sizes hsize
    have hframe := h.frame
    have hihl := h.ihl
    have hoff := h.offset
    have hheaders := h.headers
    have hshort := h.short
    have hipData : v.ip.payload.data = v.eth.data.data + 14 + v.ip.header.size := rfl
    have htcpData : v.payload.data = v.ip.payload.data + v.header.dataOffset := rfl
    have hoptData : v.optionsView.data = v.ip.payload.data + 20 := rfl
    have hipSize : v.ip.header.size = v.ip.header.ihl.toNat * 4 := rfl
    have hoffset : v.header.dataOffset = v.header.dataOffsetScaled.toNat * 4 := rfl
    unfold EthernetHeader.sizeof at hshort
    refine ⟨?_, ?_, ?_, ?_, ?_, ?_, ?_, ⟨rfl, ?_, ?_⟩, ⟨rfl, ?_, ?_⟩, ⟨rfl, ?_, ?_⟩⟩
    · unfold EthernetHeader.sizeof; omega
    all_goals omega

/-- A minimum-size frame whose IP header announces the total length `0`. -/
def zeroTotalLength : PacketView := ofBytes ⟨Memory.write (fun _ => 0) 14 [0x45], 0, 60⟩

theorem zeroTotalLength_valid_not_inBounds :
    zeroTotalLength.isValid = true ∧ ¬ zeroTotalLength.InBounds := by
  have hvalid : zeroTotalLength.isValid = true := by decide
  refine ⟨hvalid, fun h => ?_⟩
  have hlt : ¬ zeroTotalLength.ip.header.size ≤ zeroTotalLength.ip.header.totalLength := by decide
  exact hlt h.ip_header

/-- A 54-byte frame with plain headers and no payload. -/
def plainSegment : PacketView :=
  ofBytes ⟨Memory.write (Memory.write (fun _ => 0) 14 [0x45, 0, 0, 40]) 46 [0x50], 0, 54⟩

theorem plainSegment_inBounds : plainSegment.WellSized ∧ plainSegment.InBounds := by
  have hsized : plainSegment.WellSized :=
    ⟨by decide, by decide, by decide, by decide, by decide⟩
  exact ⟨hsized, (inBounds_iff_wellSized plainSegment (by decide) (by decide)).mpr hsized⟩

end PacketView

end WsGateway.Network.Tcp
