import McuMediaServer.Json.Grammar

/-!
# The JSON parser

`JSONParser` moves over a text, of which the model keeps what is left. A number is converted by the
C library, whose `wcstold` takes more than JSON has: spaces, a plus sign, numbers that begin with a
zero or a point, hexadecimal ones, infinities and not-a-numbers. It also tells through `errno`
whether it failed, which the parser asks without having reset it.

Moving beyond the end of the text is the failure `none`; all reading from there on is out of the
text.
-/

namespace McuMediaServer

open Json (Text spaces isDigit hexDigit digits exponentWith exponent sign simpleEscape)

/-! ## Conversions of the C library -/

namespace Libc

/-- What a conversion leaves behind it, and whether all digits of the number are zero. -/
structure Conversion where
  zero : Bool
  rest : Text
  deriving DecidableEq, Repr

/-- The spaces of the C locale. -/
def isSpace (c : Nat) : Bool := c = 0x20 || (0x09 ≤ c && c ≤ 0x0D)

/-- The digits behind a point, and what is left behind them. -/
def afterPoint (isDigit : Nat → Bool) : Text → Text × Text
  | [] => ([], [])
  | c :: t => if c = 0x2E then (t.takeWhile isDigit, t.dropWhile isDigit) else ([], c :: t)

/-- Digits with a point among them, before them or behind them, and an exponent. -/
def digitsWith (isDigit : Nat → Bool) (exponent : Text → Text) (t : Text) : Option Conversion :=
  let before := t.takeWhile isDigit
  let after := afterPoint isDigit (t.dropWhile isDigit)
  if before ++ after.1 = [] then none
  else some ⟨(before ++ after.1).all (· = 0x30), exponent after.2⟩

/-- The digits of a decimal number. -/
def decimal : Text → Option Conversion := digitsWith isDigit exponent

def isHex (c : Nat) : Bool := (hexDigit c).isSome

/-- A `p` with an exponent, if it is there. -/
def binaryExponent : Text → Text := exponentWith [0x50, 0x70]

/-- The digits of a hexadecimal number. -/
def hexDigits : Text → Option Conversion := digitsWith isHex binaryExponent

/-- `0x` and hexadecimal digits. -/
def hexadecimal : Text → Option Conversion
  | c :: x :: t => if c = 0x30 ∧ (x = 0x58 ∨ x = 0x78) then hexDigits t else none
  | _ => none

def lower (c : Nat) : Nat := if 0x41 ≤ c ∧ c ≤ 0x5A then c + 0x20 else c

/-- What is left behind a word, in capital or small letters. -/
def word : Text → Text → Option Text
  | [], t => some t
  | _ :: _, [] => none
  | w :: ws, c :: t => if lower c = w then word ws t else none

/-- The characters in the parentheses behind `nan`, if they are there. -/
def nanChars (t : Text) : Text :=
  match t with
  | [] => []
  | c :: u =>
    if c = 0x28 then
      match u.dropWhile fun c => isDigit c || (0x61 ≤ lower c && lower c ≤ 0x7A) || c = 0x5F with
      | [] => t
      | d :: v => if d = 0x29 then v else t
    else t

/-- `infinity`, `inf` and `nan`. -/
def special (t : Text) : Option Conversion :=
  ((word [0x69, 0x6E, 0x66, 0x69, 0x6E, 0x69, 0x74, 0x79] t).orElse fun _ =>
    (word [0x69, 0x6E, 0x66] t).orElse fun _ => (word [0x6E, 0x61, 0x6E] t).map nanChars).map
      (⟨false, ·⟩)

/-- A number without a sign. -/
def unsigned (t : Text) : Option Conversion :=
  (hexadecimal t).orElse fun _ => (decimal t).orElse fun _ => special t

/-- What `wcstold` and `wcstod` take of a text. -/
def wcstold (t : Text) : Option Conversion := unsigned (sign (t.dropWhile isSpace))

/-- What the parser asks of converted texts apart from how long they are: whether `wcstold` and
`wcstod` tell of a number out of range, and whether a number that `wcstod` gives is zero as a
`long`. -/
structure Numbers where
  outOfRange : Text → Bool
  exponentOutOfRange : Text → Bool
  exponentZero : Text → Bool

end Libc

/-- The text that is left, whether `errno` is `EINVAL`, the last string, and the texts of the last
number and of its exponent. Reference: `stringparser.h:565`. -/
structure JSONParser where
  rest : Text
  einval : Bool := false
  value : Text := []
  number : Text × Text := ([], [])
  deriving DecidableEq, Repr

namespace JSONParser

/-- Whether something was found, and the parser then. -/
abbrev Found := Bool × JSONParser

variable (p : JSONParser)

/-- Reference: `stringparser.h:576`. -/
def skipJSONSpaces : JSONParser := { p with rest := spaces p.rest }

/-- Reference: `stringparser.h:133`. -/
def parseChar (x : Nat) : Found :=
  match p.rest with
  | [] => (false, p)
  | c :: t => if c = x then (true, { p with rest := t }) else (false, p)

/-- Reference: `stringparser.h:581`. -/
def parseJSONObjectStart : Found := p.skipJSONSpaces.parseChar 0x7B

/-- Reference: `stringparser.h:590`. -/
def parseJSONObjectEnd : Found := p.skipJSONSpaces.parseChar 0x7D

/-- Reference: `stringparser.h:599`. -/
def parseJSONArrayStart : Found := p.skipJSONSpaces.parseChar 0x5B

/-- Reference: `stringparser.h:608`. -/
def parseComma : Found := p.skipJSONSpaces.parseChar 0x2C

/-- Reference: `stringparser.h:617`. -/
def parseDoubleDot : Found := p.skipJSONSpaces.parseChar 0x3A

/-- Reference: `stringparser.h:626`. -/
def parseJSONArrayEnd : Found := p.skipJSONSpaces.parseChar 0x5D

/-! ## Strings -/

/-- An escape: one of the eight simple ones, or four characters, which stand for a question mark.
Reference: `stringparser.h:773`. -/
def escape : Text → Option (Nat × Text)
  | [] => none
  | c :: t =>
    match simpleEscape c with
    | some d => some (d, t)
    | none =>
      match t with
      | _ :: _ :: _ :: t => some (0x3F, t)
      | _ => none

/-- The characters up to the closing quote, and what is left behind it. Reference:
`stringparser.h:766`. -/
def stringChars : Text → Option (Text × Text)
  | [] => none
  | c :: t =>
    if c = 0x22 then some ([], t)
    else if c = 0x5C then
      match t with
      | [] => none
      | e :: t =>
        match simpleEscape e with
        | some d => (stringChars t).map fun found => (d :: found.1, found.2)
        | none =>
          match t with
          | _ :: _ :: _ :: t => (stringChars t).map fun found => (0x3F :: found.1, found.2)
          | _ => none
    else if 31 < c then (stringChars t).map fun found => (c :: found.1, found.2)
    else none

/-- Of the value only that of a string that was found is kept. Reference: `stringparser.h:750`. -/
def parseJSONString : Found :=
  let p := p.skipJSONSpaces
  let start := p.parseChar 0x22
  if start.1 then
    match stringChars start.2.rest with
    | none => (false, p)
    | some (value, rest) => (true, { p with value, rest })
  else (false, p)

/-! ## Numbers and literals -/

section Numbers

variable (lib : Libc.Numbers)

/-- What has been read of a text when this is left. -/
def taken (t rest : Text) : Text := t.take (t.length - rest.length)

/-- The exponent behind a number that the library has left there. The parser moves on by what lies
between the start of the number and the end of the exponent, from behind the `e`. Reference:
`stringparser.h:718`. -/
def parseExponent (start : Text) (t : Text) : Option Found :=
  let converted := Libc.wcstold t
  let rest := (converted.map Libc.Conversion.rest).getD t
  let text := taken t rest
  let zero := converted.isNone || lib.exponentZero text
  let einval := p.einval && !(converted.isSome && lib.exponentOutOfRange text)
  if zero && einval then some (false, { p with rest := start, einval })
  else if start.length - rest.length ≤ t.length then
    some (true, { p with
      rest := t.drop (start.length - rest.length)
      einval
      number := (p.number.1, text) })
  else none

/-- Reference: `stringparser.h:698`. -/
def parseJSONNumber : Option Found :=
  let p := p.skipJSONSpaces
  match Libc.wcstold p.rest with
  | none => some (false, p)
  | some number =>
    if number.zero && p.einval then some (false, p)
    else
      let text := taken p.rest number.rest
      let einval := p.einval && !lib.outOfRange text
      let p' := { p with rest := number.rest, einval, number := (text, []) }
      match number.rest with
      | [] => some (true, p')
      | c :: t => if c = 0x45 ∨ c = 0x65 then p'.parseExponent lib p.rest t else some (true, p')

/-- Reference: `stringparser.h:455`. -/
def matchString (w : Text) : Found :=
  let p := p.skipJSONSpaces
  if p.rest.take w.length = w then (true, { p with rest := p.rest.drop w.length, value := w })
  else (false, p)

/-- Reference: `stringparser.h:875`. -/
def parseJSONTrue : Found := p.matchString [0x74, 0x72, 0x75, 0x65]

/-- Reference: `stringparser.h:884`. -/
def parseJSONFalse : Found := p.matchString [0x66, 0x61, 0x6C, 0x73, 0x65]

/-- Reference: `stringparser.h:893`. -/
def parseJSONNull : Found := p.matchString [0x6E, 0x75, 0x6C, 0x6C]

/-! ## Skipping -/

/-- The next is tried where the one before has not been found. -/
def orElse (found : Option Found) (next : JSONParser → Option Found) : Option Found :=
  match found with
  | none => none
  | some (true, p) => some (true, p)
  | some (false, p) => next p

/-- Where nothing has been found the parser is moved back. -/
def orReset (ini : Text) : Option Found → Option Found
  | none => none
  | some (true, p) => some (true, p)
  | some (false, p) => some (false, { p with rest := ini })

/-- Reference: `stringparser.h:907`, with the loop over the members as a parameter. -/
def skipObjectWith (members : JSONParser → Option Found) : Option Found :=
  let start := p.parseJSONObjectStart
  if start.1 then
    let close := start.2.parseJSONObjectEnd
    if close.1 then some close
    else orReset p.rest (members close.2)
  else some (false, { start.2 with rest := p.rest })

/-- Reference: `stringparser.h:943`, with the loop over the elements as a parameter. -/
def skipArrayWith (elements : JSONParser → Option Found) : Option Found :=
  let start := p.parseJSONArrayStart
  if start.1 then
    let close := start.2.parseJSONArrayEnd
    if close.1 then some close
    else orReset p.rest (elements close.2)
  else some (false, { start.2 with rest := p.rest })

/-- Reference: the last three of `stringparser.h:904`. -/
def skipLiteral : Option Found :=
  orElse (some p.parseJSONTrue) fun p =>
  orElse (some p.parseJSONFalse) fun p => some p.parseJSONNull

/-- Reference: what `stringparser.h:904` tries after an object and an array. -/
def skipScalar : Option Found :=
  orElse (some p.parseJSONString) fun p =>
  orElse (p.parseJSONNumber lib) fun p => p.skipLiteral

/-- A value of a kind is skipped, with so much fuel for the recursion and the loops: a value, the
name of a member, or the members or elements with the bracket that closes them. Reference:
`stringparser.h:902`. -/
def skip : Nat → Json.Kind → JSONParser → Option Found
  | 0, _, p => some (false, p)
  | _ + 1, .name, p => some p.parseJSONString
  | fuel + 1, .value, p =>
    orElse (p.skipObjectWith (skip fuel .members)) fun p =>
    orElse (p.skipArrayWith (skip fuel .elements)) fun p => p.skipScalar lib
  | fuel + 1, .members, p =>
    let name := p.parseJSONString
    if name.1 then
      let colon := name.2.parseDoubleDot
      if colon.1 then
        match skip fuel .value colon.2 with
        | none => none
        | some (false, p) => some (false, p)
        | some (true, p) =>
          let comma := p.parseComma
          if comma.1 then skip fuel .members comma.2 else some comma.2.parseJSONObjectEnd
      else some (false, colon.2)
    else some (false, name.2)
  | fuel + 1, .elements, p =>
    match skip fuel .value p with
    | none => none
    | some (false, p) => some (false, p)
    | some (true, p) =>
      let comma := p.parseComma
      if comma.1 then skip fuel .elements comma.2 else some comma.2.parseJSONArrayEnd

/-- Fuel that is enough: each step but that from the elements to an element takes a character. -/
def enough (t : Text) : Nat := 2 * t.length + 2

/-- Reference: `stringparser.h:902`. -/
def skipJSONValue : Option Found := skip lib (enough p.rest) .value p

/-- Reference: `stringparser.h:907`. -/
def skipJSONObject : Option Found := p.skipObjectWith (skip lib (enough p.rest) .members)

end Numbers

end JSONParser

end McuMediaServer
