import WsGateway.Base.Stream

/-!
# WebSocket frame headers

`network/wss/model.h`. The bit fields of the two basic bytes are allocated from
the least significant bit on.
-/

namespace WsGateway.Network.Wss

open Library

/-- The values of `enum class OpCode` on the wire. -/
abbrev OpCode := UInt8

namespace OpCode

def Continuation : OpCode := 0x0

def Text : OpCode := 0x1

def Binary : OpCode := 0x2

def Close : OpCode := 0x8

def Ping : OpCode := 0x9

def Pong : OpCode := 0xA

end OpCode

inductive FrameType where
  | Base
  | Extended16
  | Extended64
  deriving DecidableEq, Repr

structure FrameBasicHeader where
  code : OpCode
  rsv3 : Bool
  rsv2 : Bool
  rsv1 : Bool
  fin : Bool
  payloadLen : UInt8
  mask : Bool
  deriving DecidableEq, Repr

namespace FrameBasicHeader

def decode (bs : List UInt8) : FrameBasicHeader where
  code := bs.getD 0 0 &&& 0x0F
  rsv3 := bs.getD 0 0 &&& 0x10 != 0
  rsv2 := bs.getD 0 0 &&& 0x20 != 0
  rsv1 := bs.getD 0 0 &&& 0x40 != 0
  fin := bs.getD 0 0 &&& 0x80 != 0
  payloadLen := bs.getD 1 0 &&& 0x7F
  mask := bs.getD 1 0 &&& 0x80 != 0

def type (h : FrameBasicHeader) : FrameType :=
  if h.payloadLen < 125 then .Base
  else if h.payloadLen == 126 then .Extended16
  else .Extended64

end FrameBasicHeader

structure FrameExtended16 extends FrameBasicHeader where
  extendedPayloadLen : Nat

structure FrameExtended64 extends FrameBasicHeader where
  extendedPayloadLen : Nat

/-- What the dispatchers use of a header struct. -/
class HeaderType (α : Type) extends Packed α where
  basic : α → FrameBasicHeader
  payloadSize : α → Nat

instance : HeaderType FrameBasicHeader where
  size := 2
  decode := FrameBasicHeader.decode
  basic h := h
  payloadSize h := h.payloadLen.toNat

instance : HeaderType FrameExtended16 where
  size := 4
  decode bs := ⟨.decode (bs.take 2), beNat ((bs.drop 2).take 2)⟩
  basic h := h.toFrameBasicHeader
  payloadSize h := h.extendedPayloadLen

instance : HeaderType FrameExtended64 where
  size := 10
  decode bs := ⟨.decode (bs.take 2), beNat ((bs.drop 2).take 8)⟩
  basic h := h.toFrameBasicHeader
  payloadSize h := h.extendedPayloadLen

structure FrameHeader where
  code : OpCode
  rsv3 : Bool
  rsv2 : Bool
  rsv1 : Bool
  fin : Bool
  mask : Bool
  size : Nat
  headerSize : Nat
  deriving DecidableEq, Repr

/-- The `FrameHeader` that both dispatchers build from a header struct. -/
def toFrameHeader (α : Type) [HeaderType α] (header : α) : FrameHeader where
  code := (HeaderType.basic header).code
  rsv3 := (HeaderType.basic header).rsv3
  rsv2 := (HeaderType.basic header).rsv2
  rsv1 := (HeaderType.basic header).rsv1
  fin := (HeaderType.basic header).fin
  mask := (HeaderType.basic header).mask
  size := HeaderType.payloadSize header
  headerSize := Packed.size α

def popHeaderImpl (α : Type) [HeaderType α] : Prog Stream (Option FrameHeader) := do
  let some header ← Stream.popObject α | return none
  return some (toFrameHeader α header)

def popHeader : Prog Stream (Option FrameHeader) := do
  let s ← get
  let some baseHeader := s.peekObject FrameBasicHeader | return none
  match baseHeader.type with
  | .Base => popHeaderImpl FrameBasicHeader
  | .Extended16 => popHeaderImpl FrameExtended16
  | .Extended64 => popHeaderImpl FrameExtended64

def peekHeaderImpl (α : Type) [HeaderType α] (s : Stream) : Option FrameHeader :=
  (s.peekObject α).map (toFrameHeader α)

def peekHeader (s : Stream) : Option FrameHeader := do
  let baseHeader ← s.peekObject FrameBasicHeader
  match baseHeader.type with
  | .Base => peekHeaderImpl FrameBasicHeader s
  | .Extended16 => peekHeaderImpl FrameExtended16 s
  | .Extended64 => peekHeaderImpl FrameExtended64 s

end WsGateway.Network.Wss
