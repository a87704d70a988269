import McuMediaServer.Amf.Data

/-!
# The AMF parser

The parser is handed the bytes of a value as they come. An object that is being parsed keeps the
parser of the value it is at, so that a parser is a tree of parsers. Exceptions and reads behind the
data are the missing value.
-/

namespace McuMediaServer

namespace Amf

/-! ## Numbers -/

/-- A number of which `len` bytes are missing. -/
structure NumberParser where
  len : Nat
  value : Nat := 0
  deriving DecidableEq, Repr

namespace NumberParser

/-- Reference: `amf.cpp:25`, `amf.cpp:81` and `amf.cpp:675`. -/
def parse (p : NumberParser) : List UInt8 → NumberParser × Nat
  | [] => (p, 0)
  | b :: data =>
    if p.len = 0 then
      (p, 0)
    else
      let len := p.len - 1
      let (p, n) := parse ⟨len, p.value ||| b.toNat <<< (len * 8)⟩ data
      (p, n + 1)

/-- Reference: `amf.cpp:35`. -/
def isParsed (p : NumberParser) : Bool :=
  p.len = 0

end NumberParser

/-- Reference: `amf.cpp:13`. -/
def U16Parser.new : NumberParser := { len := 2 }

/-- Reference: `amf.cpp:69`. -/
def U32Parser.new : NumberParser := { len := 4 }

/-- Reference: `amf.cpp:662`. -/
def AMFNumber.new : NumberParser := { len := 8 }

/-! ## Strings -/

/-- A string behind its size. -/
structure StringParser where
  sizeParser : NumberParser
  utf8parser : UTF8Parser := {}
  deriving DecidableEq, Repr

/-- Reference: `amf.cpp:815`. -/
def AMFString.new : StringParser := { sizeParser := U16Parser.new }

/-- Reference: `amf.h:221`. -/
def AMFLongString.new : StringParser := { sizeParser := U32Parser.new }

namespace StringParser

/-- The size, if it is missing; returns how much was taken. -/
def parseSize (p : StringParser) (data : List UInt8) : StringParser × Nat :=
  if p.sizeParser.isParsed then
    (p, 0)
  else
    let (sizeParser, copy) := p.sizeParser.parse data
    if sizeParser.isParsed then
      ({ sizeParser, utf8parser := p.utf8parser.setSize sizeParser.value }, copy)
    else
      ({ p with sizeParser }, copy)

/-- Reference: `amf.cpp:843` and `amf.cpp:944`. -/
def parse (p : StringParser) (data : List UInt8) : StringParser × Nat :=
  let (p, n) := p.parseSize data
  if data.drop n = [] then
    (p, n)
  else
    let (utf8parser, copy) := p.utf8parser.parse (data.drop n)
    ({ p with utf8parser }, n + copy)

/-- Reference: `amf.cpp:876` and `amf.cpp:977`. -/
def isParsed (p : StringParser) : Bool :=
  p.utf8parser.isParsed

/-- Reference: `amf.cpp:881` and `amf.cpp:982`. -/
def getWString (p : StringParser) : WString :=
  p.utf8parser.value

/-- Reference: `amf.cpp:890` and `amf.cpp:987`. -/
def getUTF8Size (p : StringParser) : Nat :=
  p.sizeParser.value

end StringParser

/-! ## Values -/

/-- A value that is being parsed. Kinds without content are `empty`. -/
inductive AMFParsing where
  | number (p : NumberParser)
  | boolean (value : Option Bool)
  | string (p : StringParser)
  | object (key : StringParser) (marker : Bool) (properties : List (WString × AMFData))
      (propertiesOrder : List WString) (parser : Option AMFParsing)
  | empty (value : AMFData)
  | ecmaArray (num : NumberParser) (key : StringParser) (marker : Bool)
      (elements : List (WString × AMFData)) (parser : Option AMFParsing)
  | strictArray (num : NumberParser) (elements : List AMFData) (parser : Option AMFParsing)
  | date (value : List UInt8) (len : Nat)
  | longString (p : StringParser)
  | xmlDocument (p : StringParser)

namespace AMFParsing

/-- What a marker begins. A reference reads behind its data, and a typed object calls itself without
end when it is asked whether it is parsed; both have no value, and neither has an object of a later
version. Reference: `amf.cpp:420`. -/
def create : Nat → Option AMFParsing
  | 0x00 => some (.number AMFNumber.new)
  | 0x01 => some (.boolean none)
  | 0x02 => some (.string AMFString.new)
  | 0x03 => some (.object AMFString.new false [] [] none)
  | 0x04 => some (.empty .movieClip)
  | 0x05 => some (.empty .null)
  | 0x06 => some (.empty .undefined)
  | 0x08 => some (.ecmaArray U32Parser.new AMFString.new false [] none)
  | 0x0A => some (.strictArray U32Parser.new [] none)
  | 0x0B => some (.date [] 0)
  | 0x0C => some (.longString AMFLongString.new)
  | 0x0D => some (.empty .unsupported)
  | 0x0E => some (.empty .recordSet)
  | 0x0F => some (.xmlDocument AMFString.new)
  | _ => none

/-- The value, once it is parsed. Reference: `IsParsed` of each kind and `amf.cpp:499`. -/
def getObject : AMFParsing → Option AMFData
  | number p => if p.isParsed then some (.number (.ofNat p.value)) else none
  | boolean value => value.map .boolean
  | string p => if p.isParsed then some (.string p.getWString) else none
  | object _ marker properties order _ => if marker then some (.object properties order) else none
  | empty value => some value
  | ecmaArray num _ marker elements _ =>
    if num.isParsed ∧ marker then some (.ecmaArray elements) else none
  | strictArray num elements _ =>
    if num.isParsed ∧ elements.length = num.value then some (.strictArray elements) else none
  | date value len => if len = 10 then some (.date value) else none
  | longString p => if p.isParsed then some (.longString p.getWString) else none
  | xmlDocument p => if p.isParsed then some (.xmlDocument p.getWString) else none

/-- How many values are open inside of this one. -/
def depth : AMFParsing → Nat
  | object _ _ _ _ (some parser) => parser.depth + 1
  | ecmaArray _ _ _ _ (some parser) => parser.depth + 1
  | strictArray _ _ (some parser) => parser.depth + 1
  | _ => 0

end AMFParsing

/-- The bytes of a date. Those of its time zone are counted without being taken. Reference:
`amf.cpp:1651`. -/
def AMFDate.parse (value : List UInt8) (len : Nat) (data : List UInt8) : AMFParsing × Nat :=
  let i := min (8 - len) data.length
  (.date (value ++ data.take i) (if i < data.length then 10 else len + i), i)

mutual

/-- Parse a value or go on with it; returns how much was taken. The recursion is over `fuel`, which
bounds the turns of the loops and the depth of the value. Reference: `amf.cpp:412`. -/
def AMFParser.parse : Nat → Option AMFParsing → List UInt8 → Option (AMFParsing × Nat)
  | 0, _, _ => none
  | _ + 1, none, [] => none
  | fuel + 1, none, marker :: data => do
    let object ← AMFParsing.create marker.toNat
    let (object, n) ← AMFData.parse fuel object data
    return (object, n + 1)
  | fuel + 1, some object, data => AMFData.parse fuel object data

/-- `Parse` of each kind. Reference: `amf.cpp:675`, `amf.cpp:747`, `amf.cpp:843`, `amf.cpp:944`,
`amf.cpp:1024`, `amf.cpp:1335`, `amf.cpp:1573` and `amf.cpp:1651`. -/
def AMFData.parse : Nat → AMFParsing → List UInt8 → Option (AMFParsing × Nat)
  | 0, _, _ => none
  | fuel + 1, object, data =>
    match object with
    | .number p =>
      let (p, n) := p.parse data
      some (.number p, n)
    | .boolean value =>
      match data, value with
      | [], _ => some (.boolean value, 0)
      | _ :: _, some _ => none
      | b :: _, none => some (.boolean (some (0 < b.toNat)), 1)
    | .string p =>
      let (p, n) := p.parse data
      some (.string p, n)
    | .object key marker properties order parser =>
      AMFObject.parse fuel key marker properties order parser data
    | .empty value => some (.empty value, 0)
    | .ecmaArray num key marker elements parser =>
      AMFEcmaArray.parse fuel num key marker elements parser data
    | .strictArray num elements parser => AMFStrictArray.parse fuel num elements parser data
    | .date value len => some (AMFDate.parse value len data)
    | .longString p =>
      let (p, n) := p.parse data
      some (.longString p, n)
    | .xmlDocument p =>
      let (p, n) := p.parse data
      some (.xmlDocument p, n)

/-- The loop over names and values, to the end marker. Reference: `amf.cpp:1024`. -/
def AMFObject.parse : Nat → StringParser → Bool → List (WString × AMFData) → List WString →
    Option AMFParsing → List UInt8 → Option (AMFParsing × Nat)
  | 0, _, _, _, _, _, _ => none
  | _ + 1, key, marker, properties, order, parser, [] =>
    some (.object key marker properties order parser, 0)
  | fuel + 1, key, marker, properties, order, parser, byte :: rest => do
    let data := byte :: rest
    if ¬key.isParsed then
      let (key, n) := key.parse data
      let (object, m) ← AMFObject.parse fuel key marker properties order parser (data.drop n)
      return (object, n + m)
    else if key.getUTF8Size = 0 then
      if byte ≠ 0x09 then
        none
      else
        some (.object key true properties order parser, 1)
    else
      let (value, n) ← AMFParser.parse fuel parser data
      let (object, m) ←
        match value.getObject with
        | some v =>
          AMFObject.parse fuel AMFString.new marker (SortedMap.set key.getWString v properties)
            (order ++ [key.getWString]) none (data.drop n)
        | none => AMFObject.parse fuel key marker properties order (some value) (data.drop n)
      return (object, n + m)

/-- The number of elements, then the loop over names and values. Reference: `amf.cpp:1335`. -/
def AMFEcmaArray.parse : Nat → NumberParser → StringParser → Bool → List (WString × AMFData) →
    Option AMFParsing → List UInt8 → Option (AMFParsing × Nat)
  | 0, _, _, _, _, _, _ => none
  | _ + 1, num, key, marker, elements, parser, [] =>
    some (.ecmaArray num key marker elements parser, 0)
  | fuel + 1, num, key, marker, elements, parser, byte :: rest => do
    let data := byte :: rest
    if num.isParsed ∧ marker then
      some (.ecmaArray num key marker elements parser, 0)
    else if ¬num.isParsed then
      let (num, n) := num.parse data
      let (object, m) ← AMFEcmaArray.parse fuel num key marker elements parser (data.drop n)
      return (object, n + m)
    else if ¬key.isParsed then
      let (key, n) := key.parse data
      let (object, m) ← AMFEcmaArray.parse fuel num key marker elements parser (data.drop n)
      return (object, n + m)
    else if key.getUTF8Size = 0 then
      if byte ≠ 0x09 then
        none
      else
        some (.ecmaArray num key true elements parser, 1)
    else
      let (value, n) ← AMFParser.parse fuel parser data
      let (object, m) ←
        match value.getObject with
        | some v =>
          AMFEcmaArray.parse fuel num AMFString.new marker
            (SortedMap.set key.getWString v elements) none (data.drop n)
        | none => AMFEcmaArray.parse fuel num key marker elements (some value) (data.drop n)
      return (object, n + m)

/-- The number of elements, then the elements. An array that is said to have none takes an element
all the same, for which it has no room. Reference: `amf.cpp:1573`. -/
def AMFStrictArray.parse : Nat → NumberParser → List AMFData → Option AMFParsing → List UInt8 →
    Option (AMFParsing × Nat)
  | 0, _, _, _, _ => none
  | _ + 1, num, elements, parser, [] => some (.strictArray num elements parser, 0)
  | fuel + 1, num, elements, parser, byte :: rest => do
    let data := byte :: rest
    if ¬num.isParsed then
      let (num, n) := num.parse data
      let (object, m) ← AMFStrictArray.parse fuel num elements parser (data.drop n)
      return (object, n + m)
    else
      let (value, n) ← AMFParser.parse fuel parser data
      match value.getObject with
      | some v =>
        if num.value ≤ elements.length then
          none
        else if elements.length + 1 = num.value then
          some (.strictArray num (elements ++ [v]) none, n)
        else
          let (object, m) ← AMFStrictArray.parse fuel num (elements ++ [v]) none (data.drop n)
          return (object, n + m)
      | none =>
        let (object, m) ← AMFStrictArray.parse fuel num elements (some value) (data.drop n)
        return (object, n + m)

end

/-- One call of `Parse`. A turn of a loop takes a byte at least, and so does each value that is
begun. -/
def AMFParser.parseData (object : Option AMFParsing) (data : List UInt8) :
    Option (AMFParsing × Nat) :=
  AMFParser.parse (4 * (data.length + (object.map AMFParsing.depth).getD 0 + 1)) object data

/-! ## Turns of the loops -/

section Turn

variable {fuel n : Nat} {num num' : NumberParser} {key key' : StringParser} {marker : Bool}
  {properties : List (WString × AMFData)} {order : List WString}
  {parser : Option AMFParsing} {value : AMFParsing} {v : AMFData} {data : List UInt8}

attribute [local simp] AMFParser.parse AMFObject.parse AMFEcmaArray.parse in
theorem AMFParser.parse_marker {byte : UInt8} {object : AMFParsing}
    (hcreate : AMFParsing.create byte.toNat = some object)
    (hparse : AMFData.parse fuel object data = some (value, n)) :
    AMFParser.parse (fuel + 1) none (byte :: data) = some (value, n + 1) := by
  simp [hcreate, hparse]

theorem AMFObject.parse_key (hdata : data ≠ []) (hkey : key.isParsed = false)
    (hparse : key.parse data = (key', n)) :
    AMFObject.parse (fuel + 1) key marker properties order parser data =
      (AMFObject.parse fuel key' marker properties order parser (data.drop n)).map
        fun r => (r.1, n + r.2) := by
  obtain ⟨byte, rest, rfl⟩ := List.exists_cons_of_ne_nil hdata
  simp only [AMFObject.parse, hkey, hparse]
  cases AMFObject.parse fuel key' marker properties order parser ((byte :: rest).drop n) <;> rfl

theorem AMFObject.parse_end (rest : List UInt8) (hkey : key.isParsed) (hsize : key.getUTF8Size = 0) :
    AMFObject.parse (fuel + 1) key marker properties order parser (0x09 :: rest) =
      some (.object key true properties order parser, 1) := by
  simp only [AMFObject.parse, hkey, hsize]
  rfl

theorem AMFObject.parse_value (hdata : data ≠ []) (hkey : key.isParsed)
    (hsize : key.getUTF8Size ≠ 0) (hparse : AMFParser.parse fuel parser data = some (value, n))
    (hvalue : value.getObject = some v) :
    AMFObject.parse (fuel + 1) key marker properties order parser data =
      (AMFObject.parse fuel AMFString.new marker (SortedMap.set key.getWString v properties)
        (order ++ [key.getWString]) none (data.drop n)).map fun r => (r.1, n + r.2) := by
  obtain ⟨byte, rest, rfl⟩ := List.exists_cons_of_ne_nil hdata
  simp only [AMFObject.parse, hkey, hsize, hparse, not_true_eq_false, if_false,
    Option.bind_eq_bind, Option.bind_some, hvalue]
  cases AMFObject.parse fuel AMFString.new marker (SortedMap.set key.getWString v properties)
    (order ++ [key.getWString]) none ((byte :: rest).drop n) <;> rfl

theorem AMFEcmaArray.parse_num (hdata : data ≠ []) (hnum : num.isParsed = false)
    (hparse : num.parse data = (num', n)) :
    AMFEcmaArray.parse (fuel + 1) num key marker properties parser data =
      (AMFEcmaArray.parse fuel num' key marker properties parser (data.drop n)).map
        fun r => (r.1, n + r.2) := by
  obtain ⟨byte, rest, rfl⟩ := List.exists_cons_of_ne_nil hdata
  simp only [AMFEcmaArray.parse, hnum, hparse]
  cases AMFEcmaArray.parse fuel num' key marker properties parser ((byte :: rest).drop n) <;> rfl

theorem AMFEcmaArray.parse_key (hdata : data ≠ []) (hnum : num.isParsed) (hkey : key.isParsed = false)
    (hparse : key.parse data = (key', n)) :
    AMFEcmaArray.parse (fuel + 1) num key false properties parser data =
      (AMFEcmaArray.parse fuel num key' false properties parser (data.drop n)).map
        fun r => (r.1, n + r.2) := by
  obtain ⟨byte, rest, rfl⟩ := List.exists_cons_of_ne_nil hdata
  simp only [AMFEcmaArray.parse, hnum, hkey, hparse]
  cases AMFEcmaArray.parse fuel num key' false properties parser ((byte :: rest).drop n) <;> rfl

theorem AMFEcmaArray.parse_end (rest : List UInt8) (hnum : num.isParsed) (hkey : key.isParsed)
    (hsize : key.getUTF8Size = 0) :
    AMFEcmaArray.parse (fuel + 1) num key false properties parser (0x09 :: rest) =
      some (.ecmaArray num key true properties parser, 1) := by
  simp only [AMFEcmaArray.parse, hnum, hkey, hsize]
  rfl

theorem AMFEcmaArray.parse_value (hdata : data ≠ []) (hnum : num.isParsed) (hkey : key.isParsed)
    (hsize : key.getUTF8Size ≠ 0) (hparse : AMFParser.parse fuel parser data = some (value, n))
    (hvalue : value.getObject = some v) :
    AMFEcmaArray.parse (fuel + 1) num key false properties parser data =
      (AMFEcmaArray.parse fuel num AMFString.new false (SortedMap.set key.getWString v properties)
        none (data.drop n)).map fun r => (r.1, n + r.2) := by
  obtain ⟨byte, rest, rfl⟩ := List.exists_cons_of_ne_nil hdata
  simp only [AMFEcmaArray.parse, hnum, hkey, hsize, hparse, not_true_eq_false, if_false,
    Bool.false_eq_true, and_false, Option.bind_eq_bind, Option.bind_some, hvalue]
  cases AMFEcmaArray.parse fuel num AMFString.new false
    (SortedMap.set key.getWString v properties) none ((byte :: rest).drop n) <;> rfl

end Turn

end Amf

end McuMediaServer
