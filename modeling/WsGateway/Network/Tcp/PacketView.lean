import WsGateway.Network.Dpdk

/-!
# TCP segments

`network/tcp/seq_number.h`, `flags.h`, `model.h` and `packet_view`.
-/

namespace WsGateway.Network.Tcp

open Library

/-! ## Sequence numbers -/

@[ext]
structure SeqNumber where
  value : UInt32
  deriving DecidableEq, Repr

namespace SeqNumber

instance : OfNat SeqNumber n := ⟨⟨OfNat.ofNat n⟩⟩

/-- `operator+`; the sum wraps. -/
def add (s : SeqNumber) (offset : UInt32) : SeqNumber := ⟨s.value + offset⟩

/-- `operator-`; the distance wraps. -/
def sub (s other : SeqNumber) : UInt32 := s.value - other.value

instance : HAdd SeqNumber UInt32 SeqNumber := ⟨add⟩

instance : HSub SeqNumber SeqNumber UInt32 := ⟨sub⟩

/-- `operator<=>`: the sign of the distance as an `int32_t`. -/
def cmp (s other : SeqNumber) : Ordering :=
  if s.value == other.value then .eq
  else if (s.value - other.value).toInt32 < 0 then .lt
  else .gt

@[simp] theorem add_value (s : SeqNumber) (offset : UInt32) :
    (s + offset).value = s.value + offset := rfl

@[simp] theorem add_zero (s : SeqNumber) : s + (0 : UInt32) = s := by
  change (⟨s.value + 0⟩ : SeqNumber) = s
  rw [UInt32.add_zero]

theorem add_add (s : SeqNumber) (a b : UInt32) : s + a + b = s + (a + b) := by
  change (⟨s.value + a + b⟩ : SeqNumber) = ⟨s.value + (a + b)⟩
  rw [UInt32.add_assoc]

theorem add_right_inj {s : SeqNumber} {a b : UInt32} : s + a = s + b ↔ a = b := by
  change (⟨s.value + a⟩ : SeqNumber) = ⟨s.value + b⟩ ↔ a = b
  rw [mk.injEq, UInt32.add_right_inj]

theorem add_left_inj {s s' : SeqNumber} {a : UInt32} : s + a = s' + a ↔ s = s' := by
  change (⟨s.value + a⟩ : SeqNumber) = ⟨s'.value + a⟩ ↔ s = s'
  rw [mk.injEq, UInt32.add_left_inj, SeqNumber.ext_iff]

/-- The distance to a number is what leads there. -/
theorem sub_eq_iff {s other : SeqNumber} {d : UInt32} : s - other = d ↔ s = other + d := by
  change s.value - other.value = d ↔ s = ⟨other.value + d⟩
  rw [UInt32.sub_eq_iff_eq_add, UInt32.add_comm, SeqNumber.ext_iff]

@[simp] theorem cmp_self (s : SeqNumber) : s.cmp s = .eq := by
  simp [cmp]

end SeqNumber

/-! ## Flags -/

/-- The flag byte of a TCP header. -/
abbrev Flags := UInt8

namespace Flags

def SYN : Flags := 0x02

def RST : Flags := 0x04

def ACK : Flags := 0x10

def SYN_ACK : Flags := 0x12

def PSH_ACK : Flags := 0x18

end Flags

def hasFlag (flags flag : Flags) : Bool := flags &&& flag == flag

/-! ## Header and options -/

structure Header where
  srcPort : Port
  dstPort : Port
  seq : SeqNumber
  ack : SeqNumber
  reserved : UInt8
  dataOffsetScaled : UInt8
  flags : Flags
  window : UInt16
  checksum : UInt16
  urgPtr : UInt16

namespace Header

/-- `sizeof(Header)`. -/
def sizeof : Nat := 20

def dataOffset (h : Header) : Nat := h.dataOffsetScaled.toNat * 4

def bytes (h : Header) : List UInt8 :=
  beBytes 2 h.srcPort.toNat ++ beBytes 2 h.dstPort.toNat ++ beBytes 4 h.seq.value.toNat ++
    beBytes 4 h.ack.value.toNat ++ [h.dataOffsetScaled <<< 4 ||| h.reserved, h.flags] ++
    beBytes 2 h.window.toNat ++ beBytes 2 h.checksum.toNat ++ beBytes 2 h.urgPtr.toNat

def read (v : ByteView) : Header where
  srcPort := UInt16.ofNat (v.be 0 2)
  dstPort := UInt16.ofNat (v.be 2 2)
  seq := ⟨UInt32.ofNat (v.be 4 4)⟩
  ack := ⟨UInt32.ofNat (v.be 8 4)⟩
  reserved := v.get 12 &&& 0x0F
  dataOffsetScaled := v.get 12 >>> 4
  flags := v.get 13
  window := UInt16.ofNat (v.be 14 2)
  checksum := UInt16.ofNat (v.be 16 2)
  urgPtr := UInt16.ofNat (v.be 18 2)

end Header

/-- `kDefaultWindowSize`. -/
def kDefaultWindowSize : UInt16 := 65535

namespace OptionsBlock

def kNoOperationByte : UInt8 := 1

def kTerminationByte : UInt8 := 0

end OptionsBlock

/-- The kind of a window scale option, `kWindowScaleOptionHeader.kind`. -/
def kWindowScaleOptionKind : UInt8 := 3

/-- `kDefaultOptionsBlock`: MSS 1460, SACK permitted, window scale 0, terminator and padding. -/
def kDefaultOptionsBlock : List UInt8 :=
  [2, 4] ++ beBytes 2 1460 ++ [4, 2] ++ [kWindowScaleOptionKind, 3, 0] ++ [0, 0, 0]

structure Options where
  windowScale : Option UInt8 := none
  deriving DecidableEq, Repr

/-! ## The packet view -/

structure PacketView where
  ipPacketView : IPPacketView

namespace PacketView

def ofBytes (bytes : ByteView) : PacketView := ⟨⟨⟨bytes⟩⟩⟩

def ip (v : PacketView) : IPPacketView := v.ipPacketView

def eth (v : PacketView) : EthernetPacketView := v.ipPacketView.eth

def header (v : PacketView) : Header := .read v.ipPacketView.payload

def isValid (v : PacketView) : Bool := v.ipPacketView.isValid

def payload (v : PacketView) : ByteView :=
  let ipPayload := v.ipPacketView.payload
  ⟨ipPayload.mem, ipPayload.data + v.header.dataOffset,
    sizeSub ipPayload.size v.header.dataOffset⟩

/-- The bytes `parse_options` scans. -/
def optionsView (v : PacketView) : ByteView :=
  let ipPayload := v.ipPacketView.payload
  ⟨ipPayload.mem, ipPayload.data + Header.sizeof, sizeSub v.header.dataOffset Header.sizeof⟩

/-- The loop of `parse_options` from `offset` on; an iteration passes at least one byte. -/
def scanOptions (data : ByteView) : Nat → Nat → Options → Except Error Options
  | 0, _, options => .ok options
  | fuel + 1, offset, options =>
    if offset < data.size then
      let optionKind := data.get offset
      if optionKind == OptionsBlock.kTerminationByte then .ok options
      else if optionKind == OptionsBlock.kNoOperationByte then
        scanOptions data fuel (offset + 1) options
      else if offset + 2 ≤ data.size then
        let length := (data.get (offset + 1)).toNat
        if length ≥ 2 ∧ offset + length ≤ data.size then
          let options :=
            if optionKind == kWindowScaleOptionKind && length == 3 then
              { options with windowScale := some (data.get (offset + 2)) }
            else options
          scanOptions data fuel (offset + length) options
        else .error (.runtimeError "Invalid length field")
      else .error (.runtimeError "Not enough space for option header")
    else .ok options

def parseOptions (v : PacketView) : Except Error Options :=
  scanOptions v.optionsView v.optionsView.size 0 {}

/-- Store bytes at offset `pos` of the TCP header. -/
def write (v : PacketView) (pos : Nat) (bs : List UInt8) : PacketView :=
  let raw := v.ipPacketView.ethView.data
  ⟨⟨⟨{ raw with mem := raw.mem.write (v.ipPacketView.payload.data + pos) bs }⟩⟩⟩

/-- `PacketView::init`. Every field of the header is assigned. -/
def init (v : PacketView) (connection : Connection) (flags : Flags) (seq ackSeq : SeqNumber)
    (options : Bool) : Except Error PacketView := do
  let ip ← v.ipPacketView.init connection.session .Tcp
  let hdr : Header := {
    srcPort := connection.srcPort
    dstPort := connection.dstPort
    dataOffsetScaled := if options then 5 + 3 else 5
    flags := flags
    reserved := 0
    window := kDefaultWindowSize
    checksum := 0
    urgPtr := 0
    seq := seq
    ack := ackSeq }
  let v := PacketView.write ⟨ip⟩ 0 hdr.bytes
  return if options then v.write Header.sizeof kDefaultOptionsBlock else v

/-- The assignment `ip().header().id = id`. -/
def setIpId (v : PacketView) (id : UInt16) : PacketView :=
  ⟨v.ipPacketView.write 4 (beBytes 2 id.toNat)⟩

def predictSize (payloadSize : Nat) (options : Bool) : Nat :=
  IPPacketView.predictSize (Header.sizeof + (if options then 12 else 0) + payloadSize)

def resizePayload (v : PacketView) (payloadSize : Nat) : PacketView :=
  ⟨v.ipPacketView.resizePayload (v.header.dataOffset + payloadSize)⟩

/-- `PacketView::update_checksum`. -/
def updateChecksum (dpdk : Dpdk) (v : PacketView) : PacketView :=
  let cksum := dpdk.ipv4UdptcpCksum v.ipPacketView.ethView.data.mem
    v.ipPacketView.ethView.payload.data v.ipPacketView.payload.data
  v.write 16 (cksumBytes cksum)

/-- `ip().update_checksum()`. -/
def updateIpChecksum (dpdk : Dpdk) (v : PacketView) : PacketView :=
  let cksum := dpdk.ipv4Cksum v.ipPacketView.ethView.data.mem v.ipPacketView.ethView.payload.data
  ⟨v.ipPacketView.write 10 (cksumBytes cksum)⟩

/-- Copy bytes to the front of the payload, as the callers of `payload()` do. -/
def writePayload (v : PacketView) (bs : List UInt8) : PacketView :=
  v.write v.header.dataOffset bs

end PacketView

end WsGateway.Network.Tcp
