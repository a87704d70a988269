import Mathlib.Algebra.Ring.Int.Defs
import Mathlib.Data.Char
import Mathlib.Data.List.Lex
import McuMediaServer.Base.SortedMap

/-!
# Documents of configuration files

The values that a configuration file is made of: numbers as they are printed and parsed, and elements
with attributes and properties. A document that is written is parsed again as it was, unless there is
a character in it that a document cannot have.
-/

namespace McuMediaServer

namespace Web

abbrev Str := List Char

/-- A number of 32 bits. -/
structure Integer where
  val : Int
  lower : -2 ^ 31 ≤ val
  upper : val < 2 ^ 31
  deriving DecidableEq

namespace Integer

def ofInt (n : Int) : Option Integer :=
  if h : -2 ^ 31 ≤ n ∧ n < 2 ^ 31 then some ⟨n, h.1, h.2⟩ else none

/-- The decimal digits, behind a minus for what is negative. -/
def toString (n : Integer) : Str :=
  if n.val < 0 then '-' :: Nat.toDigits 10 n.val.natAbs else Nat.toDigits 10 n.val.natAbs

def parseDigits (s : Str) : Option Nat :=
  if s ≠ [] ∧ s.all Char.isDigit then some (Nat.ofDigitChars 10 s 0) else none

/-- Digits, which may have a sign before them; what does not fit is not accepted. -/
def parseInt : Str → Option Integer
  | '-' :: s => (parseDigits s).bind fun n => ofInt (-n)
  | '+' :: s => (parseDigits s).bind fun n => ofInt n
  | s => (parseDigits s).bind fun n => ofInt n

theorem ofInt_val (n : Integer) : ofInt n.val = some n :=
  dif_pos ⟨n.lower, n.upper⟩

theorem isDigit_toDigits {n : Nat} : ∀ c ∈ Nat.toDigits 10 n, c.isDigit = true :=
  fun _ hc => Nat.isDigit_of_mem_toDigits (by decide) (by decide) hc

theorem parseDigits_toDigits (n : Nat) : parseDigits (Nat.toDigits 10 n) = some n := by
  rw [parseDigits, if_pos ⟨Nat.toDigits_ne_nil, List.all_eq_true.2 isDigit_toDigits⟩,
    Nat.ofDigitChars_ten_toDigits]

theorem parseInt_toDigits (n : Nat) :
    parseInt (Nat.toDigits 10 n) = (parseDigits (Nat.toDigits 10 n)).bind fun n => ofInt n := by
  have hdigits := @isDigit_toDigits n
  cases hcons : Nat.toDigits 10 n with
  | nil => rfl
  | cons c s =>
    have hc := hdigits c (hcons ▸ List.mem_cons_self)
    rw [parseInt]
    · rintro t ⟨⟩
      exact absurd hc (by decide)
    · rintro t ⟨⟩
      exact absurd hc (by decide)

theorem parseInt_toString (n : Integer) : parseInt n.toString = some n := by
  rw [toString]
  split
  case isTrue hneg =>
    have hval : -(n.val.natAbs : Int) = n.val := by omega
    rw [parseInt, parseDigits_toDigits, Option.bind_some, hval, ofInt_val]
  case isFalse hpos =>
    have hval : (n.val.natAbs : Int) = n.val := by omega
    rw [parseInt_toDigits, parseDigits_toDigits, Option.bind_some, hval, ofInt_val]

theorem toString_chars {n : Integer} {c : Char} (hc : c ∈ n.toString) :
    c = '-' ∨ c.isDigit = true := by
  rw [toString] at hc
  split at hc
  · rcases List.mem_cons.1 hc with rfl | hc
    · exact .inl rfl
    · exact .inr (isDigit_toDigits c hc)
  · exact .inr (isDigit_toDigits c hc)

end Integer

/-! ## Booleans -/

def boolToString (b : Bool) : Str := if b then "true".toList else "false".toList

/-- All that is not true is false. -/
def parseBoolean (s : Str) : Bool := s.map Char.toLower = "true".toList

theorem parseBoolean_toString (b : Bool) : parseBoolean (boolToString b) = b := by
  cases b <;> decide

/-! ## Elements -/

/-- An element with attributes, and with an element of a key and a text for each property. -/
structure Element where
  attributes : List (String × Str)
  properties : List (Str × Str) := []
  deriving DecidableEq

namespace Element

/-- The value of an attribute, if there is one. -/
def getNamedItem (e : Element) (name : String) : Option Str := e.attributes.lookup name

/-- All texts that are written. -/
def texts (e : Element) : List Str :=
  e.attributes.map Prod.snd ++ (e.properties.map Prod.fst ++ e.properties.map Prod.snd)

end Element

/-- A character that a document can have. -/
def isXmlChar (c : Char) : Bool :=
  c = '\t' || c = '\n' || c = '\r' || (0x20 ≤ c.toNat && c.toNat ≤ 0xFFFD) || 0x10000 ≤ c.toNat

/-- All characters are those of documents. -/
def Legal (s : Str) : Prop := ∀ c ∈ s, isXmlChar c = true

instance instDecidableLegal (s : Str) : Decidable (Legal s) := List.decidableBAll _ _

/-- A document that is written and parsed again; parsing throws when a character is not one of
documents. -/
def parseWritten (doc : List Element) : Option (List Element) :=
  if ∀ e ∈ doc, ∀ s ∈ e.texts, Legal s then some doc else none

theorem legal_of_isDigit {c : Char} (hc : c.isDigit = true) : isXmlChar c = true := by
  have hrange : 48 ≤ c.toNat ∧ c.toNat ≤ 57 := by
    rw [Char.isDigit, Bool.and_eq_true, decide_eq_true_eq, decide_eq_true_eq] at hc
    exact ⟨hc.1, hc.2⟩
  rw [isXmlChar]
  simp only [Bool.or_eq_true, Bool.and_eq_true, decide_eq_true_eq]
  omega

theorem legal_toString (n : Integer) : Legal n.toString := by
  intro c hc
  rcases Integer.toString_chars hc with rfl | hdigit
  · decide
  · exact legal_of_isDigit hdigit

theorem legal_boolToString (b : Bool) : Legal (boolToString b) := by
  cases b <;> decide

/-! ## Properties -/

/-- Properties by their keys. -/
structure Properties where
  entries : List (Str × Str) := []
  sorted : SortedMap.Sorted entries := by exact List.Pairwise.nil
  deriving DecidableEq

namespace Properties

theorem ext {m n : Properties} (h : m.entries = n.entries) : m = n := by
  cases m
  cases n
  cases h
  rfl

/-- What is put one property after the other. -/
def ofEntries (entries : List (Str × Str)) : Properties where
  entries := SortedMap.ofEntries entries
  sorted := SortedMap.sorted_ofEntries entries

theorem ofEntries_of_perm {m : Properties} {entries : List (Str × Str)}
    (h : entries.Perm m.entries) : ofEntries entries = m :=
  ext (SortedMap.ofEntries_eq m.sorted
    (fun _ he => m.sorted.get?_of_mem (h.mem_iff.1 he))
    (fun _ hk => (h.map Prod.fst).mem_iff.2 hk))

end Properties

end Web

end McuMediaServer
