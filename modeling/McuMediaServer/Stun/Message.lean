import McuMediaServer.Base.Writer
import McuMediaServer.Tools

/-!
# STUN messages

The messages of the connectivity checks. A message is written into a buffer with a message integrity
and a fingerprint at its end, or without both, and is parsed from a datagram. The HMAC is the one of
the library that the server links, of which only the length is known; the CRC is the server's own.
-/

namespace McuMediaServer

open ByteSeq ByteWriter

/-- The HMAC of a key and some bytes, 20 bytes long. -/
structure HMACSHA1 where
  digest : List UInt8 → List UInt8 → List UInt8
  length_digest : ∀ key data, (digest key data).length = 20

namespace CRC32Calc

/-- An entry of the table. Reference: `crc32calc.h:20`. -/
def table (i : UInt32) : UInt32 :=
  Nat.iterate
    (fun c => if c &&& 1 ≠ 0 then (0xEDB88320 : UInt32) ^^^ (c >>> 1) else c >>> 1) 8 i

/-- The checksum of some bytes, from a fresh calculator. Reference: `crc32calc.h:39`. -/
def update (data : List UInt8) : UInt32 :=
  data.foldl (fun c b => table ((c ^^^ b.toUInt32) &&& 0xFF) ^^^ (c >>> 8)) ((0 : UInt32) ^^^ 0xFFFFFFFF) ^^^
    0xFFFFFFFF

end CRC32Calc

namespace STUNMessage

/-- An attribute; an empty one has no value. Reference: `stunmessage.h:26`. -/
structure Attribute where
  type : UInt16
  attr : List UInt8
  size_lt : attr.length < 2 ^ 16
  deriving DecidableEq

namespace Attribute

def messageIntegrity : UInt16 := 0x0008

def fingerPrint : UInt16 := 0x8028

/-- The value is copied from `len` bytes of the datagram. Reference: `stunmessage.h:46`. -/
def read (type : Nat) (data : List UInt8) (i len : Nat) : Option Attribute :=
  if h : i + len ≤ data.length ∧ len < 2 ^ 16 then
    some ⟨.ofNat type, (data.drop i).take len, by simp; omega⟩
  else
    none

end Attribute

end STUNMessage

/-- A message: its class of two bits, its method of 12 bits, the transaction and the attributes.
Reference: `stunmessage.h:19`. -/
structure STUNMessage where
  type : Fin 4
  method : Fin (2 ^ 12)
  transId : List UInt8
  attributes : List STUNMessage.Attribute
  length_transId : transId.length = 12
  deriving DecidableEq

namespace STUNMessage

def magicCookie : List UInt8 := [0x21, 0x12, 0xA4, 0x42]

/-! ## Parsing -/

/-- Reference: `stunmessage.cpp:35`. -/
def isSTUN (data : List UInt8) : Option Bool :=
  if data.length < 20 then
    some false
  else do
    let first ← get1 data 0
    let cookie ← slice data 4 4
    return first &&& 0xC0 == 0 && cookie == magicCookie

/-- The variables of the parser's loop. A fingerprint is kept as its position. -/
structure ParseState where
  i : Nat
  hasMessageIntegrity : Bool
  posFingerprint : Option Nat
  attributes : List Attribute

/-- The loop over the attributes. Reference: `stunmessage.cpp:108`. -/
def parseAttributes (data : List UInt8) : Nat → ParseState → Option (Option ParseState)
  | 0, s => if data.length < s.i + 4 then some (some s) else none
  | fuel + 1, s =>
    if data.length < s.i + 4 then
      some (some s)
    else do
      let attrType ← get2 data s.i
      let attrLen ← get2 data (s.i + 2)
      if data.length < s.i + 4 + attrLen then
        return none
      -- nothing follows a fingerprint, and only a fingerprint follows a message integrity
      if s.posFingerprint.isSome then
        return none
      if s.hasMessageIntegrity && attrType != Attribute.fingerPrint.toNat then
        return none
      let attr ← Attribute.read attrType data (s.i + 4) attrLen
      parseAttributes data fuel
        { i := pad32 ((s.i + 4 + attrLen) % 2 ^ 32) % 2 ^ 32
          hasMessageIntegrity :=
            s.hasMessageIntegrity || attrType == Attribute.messageIntegrity.toNat
          posFingerprint := if attrType = Attribute.fingerPrint.toNat then some s.i else none
          attributes := s.attributes ++ [attr] }

/-- The fingerprint of the bytes in front of it. -/
def fingerprint (data : List UInt8) : Nat :=
  (CRC32Calc.update data ^^^ 0x5354554e).toNat

/-- The announced fingerprint is the computed one. Reference: `stunmessage.cpp:164`. -/
def checkFingerprint (data : List UInt8) : Option Nat → Option Bool
  | none => some true
  | some pos => do
    let announced ← get4 data (pos + 4)
    return announced == fingerprint (data.take pos)

/-- The method in the field of method and class. Reference: `stunmessage.cpp:70`. -/
def methodOfField (field : Nat) : Nat :=
  (field &&& 0x000f) ||| ((field &&& 0x00e0) >>> 1) ||| ((field &&& 0x3E00) >>> 2)

/-- The class in the two bytes of the field. Reference: `stunmessage.cpp:74`. -/
def typeOfField (high low : Nat) : Nat :=
  ((high &&& 0x01) <<< 1) ||| ((low &&& 0x10) >>> 4)

/-- The message in a datagram, if it is one. Reference: `stunmessage.cpp:46`. -/
def parse (data : List UInt8) : Option (Option STUNMessage) := do
  if !(← isSTUN data) then
    return none
  let field ← get2 data 0
  let high ← get1 data 0
  let low ← get1 data 1
  let transId ← slice data 8 12
  match ← parseAttributes data data.length ⟨20, false, none, []⟩ with
  | none => return none
  | some s =>
    if s.i ≠ data.length then
      return none
    if !(← checkFingerprint data s.posFingerprint) then
      return none
    if h : transId.length = 12 then
      return some ⟨Fin.ofNat 4 (typeOfField high low), Fin.ofNat (2 ^ 12) (methodOfField field),
        transId, s.attributes, h⟩
    else
      none

/-! ## Writing -/

variable (m : STUNMessage)

/-- The field of method and class. Reference: `stunmessage.cpp:208`. -/
def msgTypeField : Nat :=
  (m.method.val &&& 0x0f80) <<< 2 ||| (m.method.val &&& 0x0070) <<< 1 |||
    (m.method.val &&& 0x000f) ||| (m.type.val &&& 0x02) <<< 7 ||| (m.type.val &&& 0x01) <<< 4

/-- The size with a message integrity and a fingerprint. Reference: `stunmessage.cpp:328`. -/
def getSize : Nat :=
  m.attributes.foldl (fun size a => pad32 ((size + 4 + a.attr.length) % 2 ^ 32) % 2 ^ 32)
    (20 + 24 + 8)

/-- The header. Reference: `stunmessage.cpp:215` and `stunmessage.cpp:268`. -/
def writeHeader (msgSize : Nat) (data : List UInt8) : Option (List UInt8) := do
  let data ← putAt 0 (be2 m.msgTypeField) data
  let data ← putAt 2 (be2 (wordSub msgSize 20)) data
  let data ← putAt 4 magicCookie data
  putAt 8 m.transId data

/-- One turn of the loop over the attributes. Reference: `stunmessage.cpp:229` and
`stunmessage.cpp:282`. -/
def writeAttribute (s : Nat × List UInt8) (a : Attribute) : Option (Nat × List UInt8) := do
  let (i, data) := s
  let data ← putAt i (be2 a.type.toNat) data
  let data ← putAt ((i + 2) % 2 ^ 32) (be2 a.attr.length) data
  let data ← putAt (i + 4) a.attr data
  return (pad32 ((i + 4 + a.attr.length) % 2 ^ 32) % 2 ^ 32, data)

/-- The message without integrity and fingerprint; nothing when the buffer is too small. Reference:
`stunmessage.cpp:194`. -/
def nonAuthenticatedFingerPrint (data : List UInt8) : Option (Option (Nat × List UInt8)) := do
  let msgSize := dwordSub m.getSize 32 % 2 ^ 16
  if data.length < msgSize then
    return none
  let data ← m.writeHeader msgSize data
  let (i, data) ← m.attributes.foldlM writeAttribute (20, data)
  return some (i, data)

/-- The message with integrity and fingerprint; nothing when the buffer is too small. Reference:
`stunmessage.cpp:243`. -/
def authenticatedFingerPrint (hmac : HMACSHA1) (pwd data : List UInt8) :
    Option (Option (Nat × List UInt8)) := do
  let msgSize := m.getSize % 2 ^ 16
  if data.length < msgSize then
    return none
  let data ← m.writeHeader msgSize data
  let (i, data) ← m.attributes.foldlM writeAttribute (20, data)
  -- the HMAC is over a length without the fingerprint
  let data ← putAt 2 (be2 (wordSub msgSize 28)) data
  let digest := hmac.digest pwd (← slice data 0 i)
  let data ← putAt (i + 4) digest data
  let data ← putAt i (be2 Attribute.messageIntegrity.toNat) data
  let data ← putAt ((i + 2) % 2 ^ 32) (be2 digest.length) data
  let i := pad32 ((i + 4 + digest.length) % 2 ^ 32) % 2 ^ 32
  let data ← putAt 2 (be2 (wordSub msgSize 20)) data
  let crc32 := fingerprint (← slice data 0 i)
  let data ← putAt i (be2 Attribute.fingerPrint.toNat) data
  let data ← putAt ((i + 2) % 2 ^ 32) (be2 4) data
  let data ← putAt ((i + 4) % 2 ^ 32) (be4 crc32) data
  return some (pad32 ((i + 8) % 2 ^ 32) % 2 ^ 32, data)

end STUNMessage

end McuMediaServer
