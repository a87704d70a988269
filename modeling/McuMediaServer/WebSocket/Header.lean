import McuMediaServer.Base.Bytes

/-!
# WebSocket frame headers

A header is two to fourteen bytes long: the second byte says how many bytes the length of the
payload takes and whether a key follows that the payload is masked with. The parser takes as much of
a header as it is given and says when it is complete.
-/

namespace McuMediaServer

namespace WebSocket

open ByteSeq

/-- Reference: `websocketconnection.h:20`. -/
inductive OpCode where
  | continuationFrame
  | textFrame
  | binaryFrame
  | reserved3
  | reserved4
  | reserved5
  | reserved6
  | reserved7
  | close
  | ping
  | pong
  | reservedB
  | reservedC
  | reservedD
  | reservedE
  | reservedF
  deriving DecidableEq, Repr

namespace OpCode

def toNat : OpCode → Nat
  | continuationFrame => 0x0
  | textFrame => 0x1
  | binaryFrame => 0x2
  | reserved3 => 0x3
  | reserved4 => 0x4
  | reserved5 => 0x5
  | reserved6 => 0x6
  | reserved7 => 0x7
  | close => 0x8
  | ping => 0x9
  | pong => 0xA
  | reservedB => 0xB
  | reservedC => 0xC
  | reservedD => 0xD
  | reservedE => 0xE
  | reservedF => 0xF

/-- The code of a number below 16. -/
def ofNibble : Nat → OpCode
  | 0x0 => continuationFrame
  | 0x1 => textFrame
  | 0x2 => binaryFrame
  | 0x3 => reserved3
  | 0x4 => reserved4
  | 0x5 => reserved5
  | 0x6 => reserved6
  | 0x7 => reserved7
  | 0x8 => close
  | 0x9 => ping
  | 0xA => pong
  | 0xB => reservedB
  | 0xC => reservedC
  | 0xD => reservedD
  | 0xE => reservedE
  | _ => reservedF

@[simp]
theorem ofNibble_toNat (opCode : OpCode) : ofNibble opCode.toNat = opCode := by
  cases opCode <;> rfl

theorem toNat_lt (opCode : OpCode) : opCode.toNat < 2 ^ 4 := by
  cases opCode <;> decide

end OpCode

/-- The bytes of a header that are there so far; the others of its 14 bytes are zero. Reference:
`websocketconnection.h:212`. -/
structure WebSocketFrameHeader where
  data : List UInt8
  deriving DecidableEq, Repr

namespace WebSocketFrameHeader

/-- The byte at an offset. -/
def byte (h : WebSocketFrameHeader) (i : Nat) : Nat :=
  (h.data.getD i 0).toNat

/-- Reference: `websocketconnection.h:150`. -/
def isFin (h : WebSocketFrameHeader) : Bool :=
  h.byte 0 / 2 ^ 7 % 2 = 1

/-- Reference: `websocketconnection.h:151`. -/
def getOpCode (h : WebSocketFrameHeader) : OpCode :=
  .ofNibble (h.byte 0 % 2 ^ 4)

/-- Reference: `websocketconnection.h:152`. -/
def isMasked (h : WebSocketFrameHeader) : Bool :=
  h.byte 1 / 2 ^ 7 % 2 = 1

/-- Reference: `websocketconnection.h:202`. -/
def getPayloadLenghtSize (h : WebSocketFrameHeader) : Nat :=
  let len := h.byte 1 % 2 ^ 7
  if len = 126 then 3 else if len = 127 then 9 else 1

/-- Reference: `websocketconnection.h:156`. -/
def getPayloadLength (h : WebSocketFrameHeader) : Nat :=
  let len := h.byte 1 % 2 ^ 7
  if len = 126 then
    (get2 h.data 2).getD 0
  else if len = 127 then
    (get8 h.data 2).getD 0
  else
    len

/-- Reference: `websocketconnection.h:153`. -/
def getMask (h : WebSocketFrameHeader) : Nat :=
  if h.isMasked then (get4 h.data (1 + h.getPayloadLenghtSize)).getD 0 else 0

/-- Reference: `websocketconnection.h:155`. -/
def getSize (h : WebSocketFrameHeader) : Nat :=
  1 + h.getPayloadLenghtSize + if h.isMasked then 4 else 0

/-- The length of the payload, in one, three or nine bytes, with the bit that tells of a mask.
Reference: `websocketconnection.h:182`, `SetPayloadLength`. -/
def lengthBytes (maskBit len : Nat) : List UInt8 :=
  if len < 126 then
    be1 (maskBit + len)
  else if len < 0xFFFF then
    be1 (maskBit + 126) ++ be2 len
  else
    be1 (maskBit + 127) ++ be8 len

/-- A header with no mask if it is 0. Reference: `websocketconnection.h:121`. -/
def new (fin : Bool) (opCode : OpCode) (len mask : Nat) : WebSocketFrameHeader where
  data := be1 (fin.toNat * 2 ^ 7 + opCode.toNat) ++
    if mask = 0 then lengthBytes 0 len else lengthBytes (2 ^ 7) len ++ be4 mask

/-! ## The fields of a header that has been built -/

section New

variable (fin : Bool) (opCode : OpCode) (len v w : Nat) (rest : List UInt8)

theorem byte_zero : byte ⟨be1 v ++ rest⟩ 0 = v % 2 ^ 8 := by
  simp [byte, be1]

theorem byte_one : byte ⟨be1 v ++ (be1 w ++ rest)⟩ 1 = w % 2 ^ 8 := by
  simp [byte, be1]

theorem exists_lengthBytes : ∃ w rest, lengthBytes 0 len = be1 w ++ rest ∧
    (len < 126 ∧ w = len ∧ rest = [] ∨
      126 ≤ len ∧ len < 0xFFFF ∧ w = 126 ∧ rest = be2 len ∨
      0xFFFF ≤ len ∧ w = 127 ∧ rest = be8 len) := by
  unfold lengthBytes
  split_ifs with h126 hlt
  · exact ⟨len, [], by simp, .inl ⟨h126, rfl, rfl⟩⟩
  · exact ⟨126, be2 len, by simp, .inr (.inl ⟨by omega, hlt, rfl, rfl⟩)⟩
  · exact ⟨127, be8 len, by simp, .inr (.inr ⟨by omega, rfl, rfl⟩)⟩

theorem data_new : (new fin opCode len 0).data =
    be1 (fin.toNat * 2 ^ 7 + opCode.toNat) ++ lengthBytes 0 len := rfl

@[simp]
theorem isFin_new : (new fin opCode len 0).isFin = fin := by
  have hop := opCode.toNat_lt
  rw [isFin, new, byte_zero]
  cases fin <;> simp <;> omega

@[simp]
theorem getOpCode_new : (new fin opCode len 0).getOpCode = opCode := by
  have hop := opCode.toNat_lt
  have hmod : (fin.toNat * 2 ^ 7 + opCode.toNat) % 2 ^ 8 % 2 ^ 4 = opCode.toNat := by
    cases fin <;> simp <;> omega
  rw [getOpCode, new, byte_zero, hmod, OpCode.ofNibble_toNat]

@[simp]
theorem isMasked_new : (new fin opCode len 0).isMasked = false := by
  obtain ⟨w, rest, heq, hcases⟩ := exists_lengthBytes len
  rw [isMasked, new, if_pos rfl, heq, byte_one, decide_eq_false_iff_not]
  omega

theorem getPayloadLength_new (hlen : len < 2 ^ 64) :
    (new fin opCode len 0).getPayloadLength = len := by
  obtain ⟨w, rest, heq, hcases⟩ := exists_lengthBytes len
  rw [getPayloadLength, new, if_pos rfl, heq, byte_one]
  rcases hcases with ⟨hlt, rfl, rfl⟩ | ⟨-, hlt, rfl, rfl⟩ | ⟨-, rfl, rfl⟩
  · simp only
    rw [if_neg (by omega), if_neg (by omega)]
    omega
  · rw [if_pos (by decide), ← List.append_assoc, get2_append (by simp)]
    simp only [List.length_append, length_be1, Nat.sub_self]
    rw [← List.append_nil (be2 len), get2_be2, Option.getD_some]
    omega
  · rw [if_neg (by decide), if_pos (by decide), ← List.append_assoc, get8_append (by simp)]
    simp only [List.length_append, length_be1, Nat.sub_self]
    rw [← List.append_nil (be8 len), get8_be8, Option.getD_some]
    omega

theorem getSize_new : (new fin opCode len 0).getSize = (new fin opCode len 0).data.length := by
  rw [getSize, isMasked_new, data_new, getPayloadLenghtSize, new, if_pos rfl]
  obtain ⟨w, rest, heq, hcases⟩ := exists_lengthBytes len
  rw [heq, byte_one]
  rcases hcases with ⟨hlt, rfl, rfl⟩ | ⟨-, -, rfl, rfl⟩ | ⟨-, rfl, rfl⟩
  · rw [if_neg (by omega), if_neg (by omega)]
    simp
  · simp
  · simp

end New

end WebSocketFrameHeader

/-- Takes the bytes of one header after the other. Reference: `websocketconnection.h:42`. -/
structure Parser where
  header : Option WebSocketFrameHeader := none
  deriving DecidableEq, Repr

namespace Parser

/-- The header that is complete, if it is. Reference: `websocketconnection.h:98`, `IsParsed`. -/
def parsed? (p : Parser) : Option WebSocketFrameHeader :=
  p.header.filter fun h => h.getSize = h.data.length

/-- Take the two bytes that tell the size of the header, then the others. Returns how many bytes
were taken. Reference: `websocketconnection.h:56`. -/
def parse (p : Parser) (data : List UInt8) : Parser × Nat :=
  let h := p.header.getD ⟨[]⟩
  let c := min (2 - h.data.length) data.length
  let h : WebSocketFrameHeader := ⟨h.data ++ data.take c⟩
  if c < data.length then
    let c' := min (h.getSize - h.data.length) (data.length - c)
    (⟨some ⟨h.data ++ (data.drop c).take c'⟩⟩, c + c')
  else
    (⟨some h⟩, c)

end Parser

end WebSocket

end McuMediaServer
