import Mathlib.Data.List.TakeWhile
import Mathlib.Logic.Relation
import Mathlib.Tactic.Common

/-!
# The grammar of JSON

What of a text is a JSON value, and what is left of it then. Characters are numbers. A number is
read as far as it goes, so of every text at most one beginning is a value.

The characters of a string are read with a parameter, the escapes that are known, because readers
differ in these.
-/

namespace Json

abbrev Text := List Nat

/-- Blank, tab, carriage return and line feed. -/
def isSpace (c : Nat) : Bool := c = 0x20 || c = 0x09 || c = 0x0D || c = 0x0A

/-- The text from its first character on that is no space. -/
def spaces (t : Text) : Text := t.dropWhile isSpace

def isDigit (c : Nat) : Bool := 0x30 ≤ c && c ≤ 0x39

def hexDigit (c : Nat) : Option Nat :=
  if isDigit c then some (c - 0x30)
  else if 0x41 ≤ c ∧ c ≤ 0x46 then some (c - 0x41 + 10)
  else if 0x61 ≤ c ∧ c ≤ 0x66 then some (c - 0x61 + 10)
  else none

/-! ## Strings -/

/-- The escapes of one character: quote, backslash, slash, `b`, `f`, `n`, `r` and `t`. -/
def simpleEscape (c : Nat) : Option Nat :=
  if c = 0x22 then some 0x22
  else if c = 0x5C then some 0x5C
  else if c = 0x2F then some 0x2F
  else if c = 0x62 then some 0x08
  else if c = 0x66 then some 0x0C
  else if c = 0x6E then some 0x0A
  else if c = 0x72 then some 0x0D
  else if c = 0x74 then some 0x09
  else none

/-- The number that four hexadecimal digits make. -/
def hex4 (a b c d : Nat) : Option Nat := do
  let a ← hexDigit a
  let b ← hexDigit b
  let c ← hexDigit c
  let d ← hexDigit d
  return ((a * 16 + b) * 16 + c) * 16 + d

/-- What an escape stands for, and what is left behind it: one of the simple ones, or a `u` with
the four digits of a code unit. -/
def escape : Text → Option (Nat × Text)
  | [] => none
  | c :: t =>
    match simpleEscape c with
    | some d => some (d, t)
    | none =>
      if c = 0x75 then
        match t with
        | h₁ :: h₂ :: h₃ :: h₄ :: t => (hex4 h₁ h₂ h₃ h₄).map (·, t)
        | _ => none
      else none

/-- The characters of a string up to its closing quote, the string they denote, and what is left
behind the quote, for a reader that knows the escapes `esc`. -/
inductive Spells (esc : Text → Option (Nat × Text)) : Text → Text → Text → Prop
  | close (t : Text) : Spells esc (0x22 :: t) [] t
  | plain {c : Nat} {t v r : Text} (hplain : 31 < c) (hquote : c ≠ 0x22) (hbackslash : c ≠ 0x5C)
    (h : Spells esc t v r) : Spells esc (c :: t) (c :: v) r
  | escape {d : Nat} {t u v r : Text} (hesc : esc t = some (d, u)) (h : Spells esc u v r) :
    Spells esc (0x5C :: t) (d :: v) r

/-- The escapes `esc` of texts that pass. -/
def passing (ok : Text → Bool) (esc : Text → Option (Nat × Text)) (t : Text) :
    Option (Nat × Text) :=
  if ok t then esc t else none

section
variable {esc esc' : Text → Option (Nat × Text)} {t v v' r r' : Text}

theorem Spells.mono (hesc : ∀ {t d u}, esc t = some (d, u) → esc' t = some (d, u))
    (h : Spells esc t v r) : Spells esc' t v r := by
  induction h with
  | close t => exact .close t
  | plain hplain hquote hbackslash _ ih => exact .plain hplain hquote hbackslash ih
  | escape he _ ih => exact .escape (hesc he) ih

theorem Spells.det (h : Spells esc t v r) (h' : Spells esc t v' r') : v = v' ∧ r = r' := by
  induction h generalizing v' with
  | close t =>
    cases h' with
    | close => exact ⟨rfl, rfl⟩
    | plain _ hquote => exact absurd rfl hquote
  | plain _ hquote hbackslash _ ih =>
    cases h' with
    | close => exact absurd rfl hquote
    | plain _ _ _ h' =>
      obtain ⟨rfl, rfl⟩ := ih h'
      exact ⟨rfl, rfl⟩
    | escape => exact absurd rfl hbackslash
  | escape he _ ih =>
    cases h' with
    | plain _ _ hbackslash => exact absurd rfl hbackslash
    | escape he' h' =>
      rw [he] at he'
      cases he'
      obtain ⟨rfl, rfl⟩ := ih h'
      exact ⟨rfl, rfl⟩

theorem passing_eq_some {ok : Text → Bool} {d : Nat} {u : Text} :
    passing ok esc t = some (d, u) ↔ ok t = true ∧ esc t = some (d, u) := by
  unfold passing
  split <;> simp_all

end

/-! ## Numbers -/

/-- Digits, after which there is no digit. -/
def digits (t : Text) : Text := t.dropWhile isDigit

/-- A zero, or digits of which the first is no zero. -/
def integer : Text → Option Text
  | [] => none
  | c :: t => if c = 0x30 then some t else if isDigit c then some (digits t) else none

/-- A point and digits, if they are there. -/
def fraction : Text → Text
  | [] => []
  | c :: t =>
    match t with
    | [] => c :: t
    | d :: u => if c = 0x2E ∧ isDigit d then digits u else c :: t

/-- A sign, if there is one. -/
def sign : Text → Text
  | [] => []
  | c :: t => if c = 0x2B ∨ c = 0x2D then t else c :: t

/-- One of the letters with an exponent, if it is there. -/
def exponentWith (letters : List Nat) : Text → Text
  | [] => []
  | c :: t =>
    match sign t with
    | [] => c :: t
    | d :: u => if c ∈ letters ∧ isDigit d then digits u else c :: t

/-- An `e` with an exponent, if it is there. -/
def exponent : Text → Text := exponentWith [0x45, 0x65]

/-- What is left behind the longest number that the text begins with. -/
def number : Text → Option Text
  | [] => none
  | c :: t =>
    if c = 0x2D then (integer t).map fun t => exponent (fraction t)
    else (integer (c :: t)).map fun t => exponent (fraction t)

/-! ## Values -/

/-- `true`, `false` and `null`. -/
def literals : List Text :=
  [[0x74, 0x72, 0x75, 0x65], [0x66, 0x61, 0x6C, 0x73, 0x65], [0x6E, 0x75, 0x6C, 0x6C]]

/-- What is read: a value, the name of a member, the members of an object or the elements of an
array, both up to the bracket that closes them. -/
inductive Kind where
  | value | name | members | elements
  deriving DecidableEq, Repr

/-- Something of a kind that a text begins with, after spaces, and what is left behind it. -/
inductive Reads : Kind → Text → Text → Prop
  | name {t u v r : Text} (hquote : spaces t = 0x22 :: u) (h : Spells escape u v r) :
    Reads .name t r
  | string {t r : Text} (h : Reads .name t r) : Reads .value t r
  | number {t r : Text} (h : number (spaces t) = some r) : Reads .value t r
  | literal {t w r : Text} (hw : w ∈ literals) (h : spaces t = w ++ r) : Reads .value t r
  | emptyObject {t u r : Text} (hopen : spaces t = 0x7B :: u) (hclose : spaces u = 0x7D :: r) :
    Reads .value t r
  | object {t u r : Text} (hopen : spaces t = 0x7B :: u) (h : Reads .members u r) :
    Reads .value t r
  | emptyArray {t u r : Text} (hopen : spaces t = 0x5B :: u) (hclose : spaces u = 0x5D :: r) :
    Reads .value t r
  | array {t u r : Text} (hopen : spaces t = 0x5B :: u) (h : Reads .elements u r) :
    Reads .value t r
  | lastMember {t u w x r : Text} (hname : Reads .name t u) (hcolon : spaces u = 0x3A :: w)
    (hvalue : Reads .value w x) (hclose : spaces x = 0x7D :: r) : Reads .members t r
  | member {t u w x y r : Text} (hname : Reads .name t u) (hcolon : spaces u = 0x3A :: w)
    (hvalue : Reads .value w x) (hcomma : spaces x = 0x2C :: y) (h : Reads .members y r) :
    Reads .members t r
  | lastElement {t x r : Text} (hvalue : Reads .value t x) (hclose : spaces x = 0x5D :: r) :
    Reads .elements t r
  | element {t x y r : Text} (hvalue : Reads .value t x) (hcomma : spaces x = 0x2C :: y)
    (h : Reads .elements y r) : Reads .elements t r

/-- What is read next when a text is read: the parts of an object or an array, from left to right,
as far as those before them are there. -/
inductive Next : Kind × Text → Kind × Text → Prop
  | object {t u : Text} (hopen : spaces t = 0x7B :: u) : Next (.value, t) (.members, u)
  | array {t u : Text} (hopen : spaces t = 0x5B :: u) : Next (.value, t) (.elements, u)
  | name {t : Text} : Next (.members, t) (.name, t)
  | memberValue {t u w : Text} (hname : Reads .name t u) (hcolon : spaces u = 0x3A :: w) :
    Next (.members, t) (.value, w)
  | member {t u w x y : Text} (hname : Reads .name t u) (hcolon : spaces u = 0x3A :: w)
    (hvalue : Reads .value w x) (hcomma : spaces x = 0x2C :: y) : Next (.members, t) (.members, y)
  | elementValue {t : Text} : Next (.elements, t) (.value, t)
  | element {t x y : Text} (hvalue : Reads .value t x) (hcomma : spaces x = 0x2C :: y) :
    Next (.elements, t) (.elements, y)

/-- What is met when a text is read. -/
def Met : Kind × Text → Kind × Text → Prop :=
  Relation.ReflTransGen Next

end Json
