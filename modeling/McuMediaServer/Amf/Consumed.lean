import Mathlib.Data.List.Perm.Subperm
import McuMediaServer.Amf.RoundTrip

/-!
# How much a parsed value takes

A value that the parser returns is not larger than the bytes it has taken, strings being counted as
they are written and a name at least as one byte. A value that is larger than it says it is can
therefore not be read back from as many bytes, whatever has been written there.
-/

namespace McuMediaServer

namespace Amf

/-! ## Weights -/

mutual

/-- How many bytes a parser takes at least for a value. A name that has been added twice has been
taken twice. -/
def AMFData.weight : AMFData → Nat
  | .number _ => 9
  | .boolean _ => 2
  | .string value => 3 + utf8Size value
  | .object properties order => 4 + weights properties + (order.length - properties.length)
  | .ecmaArray elements => 8 + weights elements
  | _ => 1

/-- How many bytes a parser takes at least for the entries of a map. -/
def weights : List (WString × AMFData) → Nat
  | [] => 0
  | (key, value) :: rest => 2 + max 1 (utf8Size key) + value.weight + weights rest

end

mutual

/-- No string in the value is too long for the size in front of it. -/
def AMFData.Short : AMFData → Prop
  | .string value => utf8Size value < 2 ^ 16
  | .object properties _ => AllShort properties
  | .ecmaArray elements => AllShort elements
  | _ => True

/-- No string in the entries of a map is too long. -/
def AllShort : List (WString × AMFData) → Prop
  | [] => True
  | (key, value) :: rest => (utf8Size key < 2 ^ 16 ∧ value.Short) ∧ AllShort rest

end

theorem allShort_iff {entries : List (WString × AMFData)} : AllShort entries ↔
    ∀ e ∈ entries, utf8Size e.1 < 2 ^ 16 ∧ e.2.Short := by
  induction entries with
  | nil => simp [AllShort]
  | cons e entries ih => rw [AllShort, List.forall_mem_cons, ih]

section Set

variable {key : WString} {v : AMFData} {m : List (WString × AMFData)}

theorem AllShort.set (hm : AllShort m) (hkey : utf8Size key < 2 ^ 16) (hv : v.Short) :
    AllShort (SortedMap.set key v m) := by
  rw [allShort_iff] at hm ⊢
  intro e he
  rcases SortedMap.mem_set he with rfl | he
  · exact ⟨hkey, hv⟩
  · exact hm e he

theorem weights_set (key : WString) (v : AMFData) (m : List (WString × AMFData)) :
    weights (SortedMap.set key v m) = weights m + (2 + max 1 (utf8Size key) + v.weight) ∧
        (SortedMap.set key v m).length = m.length + 1 ∨
      weights (SortedMap.set key v m) + 1 ≤ weights m + (2 + max 1 (utf8Size key) + v.weight) ∧
        (SortedMap.set key v m).length = m.length := by
  induction m with
  | nil => exact .inl ⟨by simp [SortedMap.set, weights], rfl⟩
  | cons e m ih =>
    obtain ⟨name, old⟩ := e
    rw [SortedMap.set]
    split_ifs with hlt heq
    · refine .inl ⟨?_, rfl⟩
      simp only [weights]
      omega
    · refine .inr ⟨?_, rfl⟩
      simp only [weights]
      omega
    · refine ih.imp (fun h => ⟨?_, congrArg (· + 1) h.2⟩) fun h => ⟨?_, congrArg (· + 1) h.2⟩
      · have := h.1
        simp only [weights]
        omega
      · have := h.1
        simp only [weights]
        omega

end Set

/-! ## What the parsers have taken -/

namespace NumberParser

theorem len_parse (p : NumberParser) (data : List UInt8) :
    (p.parse data).2 + (p.parse data).1.len = p.len ∧ (p.parse data).2 ≤ data.length ∧
      ((p.parse data).1.len ≠ 0 → (p.parse data).2 = data.length) := by
  induction data generalizing p with
  | nil => simp [parse]
  | cons b data ih =>
    rw [parse]
    split_ifs with hlen
    · simp [hlen]
    · obtain ⟨hlen', hle, hall⟩ := ih ⟨p.len - 1, p.value ||| b.toNat <<< ((p.len - 1) * 8)⟩
      simp only at hlen'
      simp only [List.length_cons]
      refine ⟨by omega, by omega, fun hne => ?_⟩
      rw [hall hne]

/-- A number of two bytes is a `WORD`. -/
theorem value_parse_lt {p : NumberParser} (data : List UInt8) (hlen : p.len ≤ 2)
    (hvalue : p.value < 2 ^ 16) : (p.parse data).1.value < 2 ^ 16 := by
  induction data generalizing p with
  | nil => exact hvalue
  | cons b data ih =>
    rw [parse]
    split_ifs with hzero
    · exact hvalue
    · refine ih (by simp only; omega) (Nat.or_lt_two_pow hvalue ?_)
      have hb := b.toNat_lt
      rw [Nat.shiftLeft_eq]
      obtain h1 | h2 : p.len = 1 ∨ p.len = 2 := by omega
      · rw [h1]
        omega
      · rw [h2]
        omega

end NumberParser

theorem foldl_parseByte_len (p : UTF8Parser) (data : List UInt8) :
    (data.foldl UTF8Parser.parseByte p).len = p.len ∧
      (data.foldl UTF8Parser.parseByte p).utf8size = p.utf8size := by
  have hbyte (p : UTF8Parser) (c : UInt8) :
      (p.parseByte c).len = p.len ∧ (p.parseByte c).utf8size = p.utf8size := by
    simp only [UTF8Parser.parseByte, UTF8Parser.push]
    split_ifs <;> exact ⟨rfl, rfl⟩
  induction data generalizing p with
  | nil => exact ⟨rfl, rfl⟩
  | cons c data ih =>
    have h := ih (p.parseByte c)
    rw [(hbyte p c).1, (hbyte p c).2] at h
    exact h

namespace StringParser

/-- The parser has taken `k` bytes of a size and a string. -/
def Consumed (p : StringParser) (k : Nat) : Prop :=
  p.sizeParser.value < 2 ^ 16 ∧ p.sizeParser.len ≤ 2 ∧
    (p.sizeParser.len ≠ 0 ∧ p.utf8parser = {} ∧ 2 ≤ k + p.sizeParser.len ∨
      p.sizeParser.len = 0 ∧ p.utf8parser.utf8size = p.sizeParser.value ∧
        p.utf8parser.Within p.utf8parser.len ∧ p.utf8parser.len + 2 ≤ k)

variable {p : StringParser} {k : Nat} {data : List UInt8}

theorem consumed_new : Consumed AMFString.new 0 :=
  ⟨by decide, by decide, .inl ⟨by decide, rfl, by decide⟩⟩

theorem Consumed.of_isParsed (h : p.Consumed k) (hp : p.isParsed) :
    p.getUTF8Size < 2 ^ 16 ∧ utf8Size p.getWString ≤ p.getUTF8Size ∧ p.getUTF8Size + 2 ≤ k := by
  obtain ⟨hvalue, -, ⟨-, hnew, -⟩ | ⟨-, hsize, hwithin, hk⟩⟩ := h
  · rw [isParsed, hnew] at hp
    cases hp
  · have hlen : p.utf8parser.len = p.getUTF8Size :=
      (of_decide_eq_true (show decide (_ = _) = true from hp)).trans hsize
    refine ⟨hvalue, ?_, by omega⟩
    rw [← hlen]
    exact hwithin.utf8Size_le

theorem Consumed.parseUTF8 (h : p.Consumed k) (hlen : p.sizeParser.len = 0) :
    Consumed { p with utf8parser := (p.utf8parser.parse data).1 }
      (k + (p.utf8parser.parse data).2) := by
  obtain ⟨hvalue, hle, ⟨hne, -⟩ | ⟨-, hsize, hwithin, hk⟩⟩ := h
  · exact absurd hlen hne
  · refine ⟨hvalue, hle, .inr ⟨hlen, ?_, ?_, ?_⟩⟩
    · simp only [UTF8Parser.parse]
      rw [(foldl_parseByte_len _ _).2, hsize]
    · have hfold := hwithin.foldl
        (data.take (min (p.utf8parser.utf8size - p.utf8parser.len) data.length))
      rw [List.length_take, Nat.min_eq_left (Nat.min_le_right _ _)] at hfold
      simp only [UTF8Parser.parse]
      rw [(foldl_parseByte_len _ _).1]
      exact hfold
    · simp only [UTF8Parser.parse]
      rw [(foldl_parseByte_len _ _).1]
      omega

theorem Consumed.parse (h : p.Consumed k) :
    (p.parse data).1.Consumed (k + (p.parse data).2) := by
  simp only [StringParser.parse]
  have hsized : (p.parseSize data).1.Consumed (k + (p.parseSize data).2) ∧
      ((p.parseSize data).1.sizeParser.len ≠ 0 → data.drop (p.parseSize data).2 = []) := by
    by_cases hsize : p.sizeParser.len = 0
    · have hparsed : p.sizeParser.isParsed := decide_eq_true hsize
      rw [parseSize, if_pos hparsed]
      exact ⟨h, fun hne => absurd hsize hne⟩
    · obtain ⟨hvalue, hle, ⟨-, hnew, hk⟩ | ⟨hzero, -⟩⟩ := h
      · obtain ⟨hlen, -, hall⟩ := p.sizeParser.len_parse data
        have hvalue' := NumberParser.value_parse_lt data hle hvalue
        have hparsed : ¬p.sizeParser.isParsed := by simpa [NumberParser.isParsed] using hsize
        simp only [parseSize, if_neg hparsed]
        by_cases hdone : (p.sizeParser.parse data).1.len = 0
        · have hparsed' : (p.sizeParser.parse data).1.isParsed := decide_eq_true hdone
          rw [if_pos hparsed', hnew]
          refine ⟨⟨hvalue', by simp only; omega, .inr ⟨hdone, rfl, .inl ⟨rfl, le_rfl⟩, ?_⟩⟩,
            fun hne => absurd hdone hne⟩
          simp only [UTF8Parser.setSize]
          omega
        · have hparsed' : ¬(p.sizeParser.parse data).1.isParsed := by
            simpa [NumberParser.isParsed] using hdone
          rw [if_neg hparsed']
          refine ⟨⟨hvalue', by simp only; omega, .inl ⟨hdone, hnew, ?_⟩⟩, fun _ => ?_⟩
          · simp only
            omega
          · simp only
            rw [hall hdone, List.drop_length]
      · exact absurd hzero hsize
  split_ifs with hnil
  · exact hsized.1
  · have hlen : (p.parseSize data).1.sizeParser.len = 0 := by
      by_contra hne
      exact hnil (hsized.2 hne)
    rw [← Nat.add_assoc]
    exact hsized.1.parseUTF8 hlen

end StringParser

/-- What an object has taken: its marker, the entries so far, and what the name and the value that
are being parsed have taken. -/
def ObjectConsumed (key : StringParser) (marker : Bool) (properties : List (WString × AMFData))
    (order : List WString) (child : Nat → Prop) (n : Nat) : Prop :=
  properties.length ≤ order.length ∧ AllShort properties ∧
    (marker → key.isParsed ∧ key.getUTF8Size = 0 ∧
      4 + weights properties + (order.length - properties.length) ≤ n) ∧
    ∃ k c, key.Consumed k ∧ child c ∧
      1 + weights properties + (order.length - properties.length) + k + c ≤ n

/-- What an array has taken. -/
def ArrayConsumed (num : NumberParser) (key : StringParser) (marker : Bool)
    (elements : List (WString × AMFData)) (child : Nat → Prop) (n : Nat) : Prop :=
  AllShort elements ∧ (marker → num.isParsed ∧ 8 + weights elements ≤ n) ∧
    ∃ k c, key.Consumed k ∧ child c ∧ 5 + weights elements + k + c ≤ n + num.len

section Turns

variable {key : StringParser} {marker : Bool} {properties : List (WString × AMFData)}
  {order : List WString} {child child' : Nat → Prop} {n m : Nat} {num : NumberParser}
  {v : AMFData}

theorem ObjectConsumed.name (h : ObjectConsumed key marker properties order child n)
    (data : List UInt8) (hkey : key.isParsed = false) :
    ObjectConsumed (key.parse data).1 marker properties order child (n + (key.parse data).2) := by
  obtain ⟨horder, hshort, hmarker, k, c, hk, hc, hle⟩ := h
  refine ⟨horder, hshort, fun hm => ?_, k + (key.parse data).2, c, hk.parse, hc, by omega⟩
  rw [(hmarker hm).1] at hkey
  cases hkey

theorem ObjectConsumed.finish (h : ObjectConsumed key marker properties order child n)
    (hkey : key.isParsed) (hsize : key.getUTF8Size = 0) :
    ObjectConsumed key true properties order child (n + 1) := by
  obtain ⟨horder, hshort, -, k, c, hk, hc, hle⟩ := h
  have htaken := (hk.of_isParsed hkey).2.2
  exact ⟨horder, hshort, fun _ => ⟨hkey, hsize, by omega⟩, k, c, hk, hc, by omega⟩

theorem ObjectConsumed.value (h : ObjectConsumed key marker properties order child n)
    (hkey : key.isParsed) (hsize : key.getUTF8Size ≠ 0)
    (hv : ∀ c, child c → v.weight ≤ c + m ∧ v.Short) :
    ObjectConsumed AMFString.new marker (SortedMap.set key.getWString v properties)
      (order ++ [key.getWString]) (· = 0) (n + m) := by
  obtain ⟨horder, hshort, hmarker, k, c, hk, hc, hle⟩ := h
  obtain ⟨hlt, hname, htaken⟩ := hk.of_isParsed hkey
  obtain ⟨hweight, hv⟩ := hv c hc
  have hset := weights_set key.getWString v properties
  refine ⟨?_, hshort.set (by omega) hv, fun hm => absurd (hmarker hm).2.1 hsize, 0, 0,
    StringParser.consumed_new, rfl, ?_⟩
  · rw [List.length_append, List.length_singleton]
    omega
  · rw [List.length_append, List.length_singleton]
    omega

theorem ObjectConsumed.part (h : ObjectConsumed key marker properties order child n)
    (hc : ∀ c, child c → child' (c + m)) :
    ObjectConsumed key marker properties order child' (n + m) := by
  obtain ⟨horder, hshort, hmarker, k, c, hk, hchild, hle⟩ := h
  exact ⟨horder, hshort, fun hm => ⟨(hmarker hm).1, (hmarker hm).2.1,
    (hmarker hm).2.2.trans (Nat.le_add_right _ _)⟩, k, c + m, hk, hc c hchild, by omega⟩

theorem ArrayConsumed.number (h : ArrayConsumed num key marker properties child n)
    (data : List UInt8) (hnum : num.isParsed = false) :
    ArrayConsumed (num.parse data).1 key marker properties child (n + (num.parse data).2) := by
  obtain ⟨hshort, hmarker, k, c, hk, hc, hle⟩ := h
  have hlen := (num.len_parse data).1
  refine ⟨hshort, fun hm => ?_, k, c, hk, hc, by omega⟩
  rw [(hmarker hm).1] at hnum
  cases hnum

theorem ArrayConsumed.name (h : ArrayConsumed num key false properties child n)
    (data : List UInt8) :
    ArrayConsumed num (key.parse data).1 false properties child (n + (key.parse data).2) := by
  obtain ⟨hshort, -, k, c, hk, hc, hle⟩ := h
  exact ⟨hshort, nofun, k + (key.parse data).2, c, hk.parse, hc, by omega⟩

theorem ArrayConsumed.finish (h : ArrayConsumed num key false properties child n)
    (hnum : num.isParsed) (hkey : key.isParsed) :
    ArrayConsumed num key true properties child (n + 1) := by
  obtain ⟨hshort, -, k, c, hk, hc, hle⟩ := h
  have htaken := (hk.of_isParsed hkey).2.2
  have hlen : num.len = 0 := of_decide_eq_true hnum
  exact ⟨hshort, fun _ => ⟨hnum, by omega⟩, k, c, hk, hc, by omega⟩

theorem ArrayConsumed.value (h : ArrayConsumed num key false properties child n)
    (hkey : key.isParsed) (hsize : key.getUTF8Size ≠ 0)
    (hv : ∀ c, child c → v.weight ≤ c + m ∧ v.Short) :
    ArrayConsumed num AMFString.new false (SortedMap.set key.getWString v properties) (· = 0)
      (n + m) := by
  obtain ⟨hshort, -, k, c, hk, hc, hle⟩ := h
  obtain ⟨hlt, hname, htaken⟩ := hk.of_isParsed hkey
  obtain ⟨hweight, hv⟩ := hv c hc
  have hset := weights_set key.getWString v properties
  exact ⟨hshort.set (by omega) hv, nofun, 0, 0, StringParser.consumed_new, rfl, by omega⟩

theorem ArrayConsumed.part (h : ArrayConsumed num key false properties child n)
    (hc : ∀ c, child c → child' (c + m)) :
    ArrayConsumed num key false properties child' (n + m) := by
  obtain ⟨hshort, -, k, c, hk, hchild, hle⟩ := h
  exact ⟨hshort, nofun, k, c + m, hk, hc c hchild, by omega⟩

end Turns

namespace AMFParsing

/-- The parser has taken `n` bytes, the marker among them. -/
def Consumed : AMFParsing → Nat → Prop
  | number p, n => 9 ≤ n + p.len
  | boolean value, n => 1 ≤ n ∧ (value.isSome → 2 ≤ n)
  | string p, n => ∃ k, p.Consumed k ∧ k + 1 ≤ n
  | object key marker properties order none, n =>
    ObjectConsumed key marker properties order (· = 0) n
  | object key marker properties order (some parser), n =>
    ObjectConsumed key marker properties order parser.Consumed n
  | empty value, n => value.weight ≤ n ∧ value.Short
  | ecmaArray num key marker elements none, n => ArrayConsumed num key marker elements (· = 0) n
  | ecmaArray num key marker elements (some parser), n =>
    ArrayConsumed num key marker elements parser.Consumed n
  | _, n => 1 ≤ n

/-- What the parser of a value has taken, if there is one. -/
def ConsumedBy : Option AMFParsing → Nat → Prop
  | none, n => n = 0
  | some parser, n => parser.Consumed n

variable {key : StringParser} {marker : Bool} {properties : List (WString × AMFData)}
  {order : List WString} {parser : Option AMFParsing} {n : Nat}

theorem consumed_object : (object key marker properties order parser).Consumed n ↔
    ObjectConsumed key marker properties order (ConsumedBy parser) n := by
  cases parser <;> rfl

theorem consumed_ecmaArray {num : NumberParser} : (ecmaArray num key marker properties parser).Consumed n ↔
    ArrayConsumed num key marker properties (ConsumedBy parser) n := by
  cases parser <;> rfl

theorem consumed_create {m : Nat} {object : AMFParsing} (h : create m = some object) :
    object.Consumed 1 := by
  unfold create at h
  split at h
  case h_4 =>
    cases h
    exact ⟨le_rfl, trivial, nofun, 0, 0, StringParser.consumed_new, rfl, le_rfl⟩
  case h_8 =>
    cases h
    exact ⟨trivial, nofun, 0, 0, StringParser.consumed_new, rfl, le_rfl⟩
  case h_3 | h_14 =>
    cases h
    first
    | exact ⟨0, StringParser.consumed_new, le_rfl⟩
    | exact le_rfl
  case h_2 =>
    cases h
    exact ⟨le_rfl, nofun⟩
  case h_5 | h_6 | h_7 | h_12 | h_13 =>
    cases h
    exact ⟨le_rfl, trivial⟩
  all_goals
    cases h
    try exact le_rfl

/-- **What a value weighs.** A value that is returned weighs no more than what has been taken. -/
theorem Consumed.of_getObject {object : AMFParsing} {v : AMFData} (h : object.Consumed n)
    (hv : object.getObject = some v) : v.weight ≤ n ∧ v.Short := by
  cases object with
  | number p =>
    simp only [getObject, Option.ite_none_right_eq_some] at hv
    obtain ⟨hparsed, hv⟩ := hv
    cases hv
    have hlen : p.len = 0 := of_decide_eq_true hparsed
    have htaken : 9 ≤ n + p.len := h
    exact ⟨show 9 ≤ n by omega, trivial⟩
  | boolean value =>
    obtain ⟨b, rfl, rfl⟩ := Option.map_eq_some_iff.1 hv
    exact ⟨h.2 rfl, trivial⟩
  | string p =>
    simp only [getObject, Option.ite_none_right_eq_some] at hv
    obtain ⟨hparsed, hv⟩ := hv
    cases hv
    obtain ⟨k, hk, hle⟩ := h
    obtain ⟨hlt, hsize, htaken⟩ := hk.of_isParsed hparsed
    exact ⟨show 3 + utf8Size _ ≤ n by omega, show utf8Size _ < _ by omega⟩
  | object key marker properties order parser =>
    simp only [getObject, Option.ite_none_right_eq_some] at hv
    obtain ⟨hmarker, hv⟩ := hv
    cases hv
    obtain ⟨-, hshort, hend, -⟩ := consumed_object.1 h
    exact ⟨(hend hmarker).2.2, hshort⟩
  | empty value =>
    cases hv
    exact h
  | ecmaArray num key marker elements parser =>
    simp only [getObject, Option.ite_none_right_eq_some] at hv
    obtain ⟨⟨-, hmarker⟩, hv⟩ := hv
    cases hv
    obtain ⟨hshort, hend, -⟩ := consumed_ecmaArray.1 h
    exact ⟨(hend hmarker).2, hshort⟩
  | strictArray num elements parser =>
    simp only [getObject, Option.ite_none_right_eq_some] at hv
    obtain ⟨-, hv⟩ := hv
    cases hv
    exact ⟨h, trivial⟩
  | date value len =>
    simp only [getObject, Option.ite_none_right_eq_some] at hv
    obtain ⟨-, hv⟩ := hv
    cases hv
    exact ⟨h, trivial⟩
  | longString p | xmlDocument p =>
    simp only [getObject, Option.ite_none_right_eq_some] at hv
    obtain ⟨-, hv⟩ := hv
    cases hv
    exact ⟨h, trivial⟩

end AMFParsing

/-! ## Whole calls -/

section Calls

open AMFParsing

/-- A call with this fuel takes what it says. -/
structure CallsConsume (fuel : Nat) : Prop where
  parser : ∀ {parser data value n c}, AMFParser.parse fuel parser data = some (value, n) →
    ConsumedBy parser c → value.Consumed (c + n)
  data : ∀ {object data value n c}, AMFData.parse fuel object data = some (value, n) →
    object.Consumed c → value.Consumed (c + n)
  object : ∀ {key marker properties order parser data value n c},
    AMFObject.parse fuel key marker properties order parser data = some (value, n) →
      (object key marker properties order parser).Consumed c → value.Consumed (c + n)
  array : ∀ {num key marker elements parser data value n c},
    AMFEcmaArray.parse fuel num key marker elements parser data = some (value, n) →
      (ecmaArray num key marker elements parser).Consumed c → value.Consumed (c + n)
  strictArray : ∀ {num elements parser data value n c},
    AMFStrictArray.parse fuel num elements parser data = some (value, n) → 1 ≤ c →
      value.Consumed (c + n)

variable {fuel : Nat} (ih : CallsConsume fuel)
include ih

theorem parser_consumed {parser : Option AMFParsing} {data : List UInt8} {value : AMFParsing}
    {n c : Nat} (h : AMFParser.parse (fuel + 1) parser data = some (value, n))
    (hc : ConsumedBy parser c) : value.Consumed (c + n) := by
  cases parser with
  | some object => exact ih.data h hc
  | none =>
    obtain rfl : c = 0 := hc
    cases data with
    | nil => cases h
    | cons byte data =>
      simp only [AMFParser.parse, Option.bind_eq_bind, Option.bind_eq_some_iff, pure,
        Option.some.injEq, Prod.mk.injEq, Prod.exists] at h
      obtain ⟨object, hcreate, value', m, hparse, rfl, rfl⟩ := h
      have := ih.data hparse (consumed_create hcreate)
      rwa [Nat.zero_add, Nat.add_comm]

theorem consumed_objectLoop {key : StringParser} {marker : Bool}
    {properties : List (WString × AMFData)} {order : List WString} {parser : Option AMFParsing}
    {data : List UInt8} {value : AMFParsing} {n c : Nat}
    (h : AMFObject.parse (fuel + 1) key marker properties order parser data = some (value, n))
    (hc : (object key marker properties order parser).Consumed c) : value.Consumed (c + n) := by
  cases data with
  | nil =>
    cases h
    exact hc
  | cons byte rest =>
    rw [consumed_object] at hc
    simp only [AMFObject.parse] at h
    split_ifs at h with hkey hsize hbyte
    · cases h
      exact consumed_object.2 (hc.finish hkey hsize)
    · simp only [Option.bind_eq_bind, Option.bind_eq_some_iff, Prod.exists] at h
      obtain ⟨value', m, hvalue, h⟩ := h
      have hchild (c) (hc : ConsumedBy parser c) : value'.Consumed (c + m) := ih.parser hvalue hc
      cases hget : value'.getObject with
      | none =>
        simp only [hget, Option.bind_eq_some_iff, pure, Option.some.injEq, Prod.mk.injEq,
          Prod.exists] at h
        obtain ⟨value'', l, hloop, rfl, rfl⟩ := h
        rw [← Nat.add_assoc]
        exact ih.object hloop (consumed_object.2 (hc.part hchild))
      | some v =>
        simp only [hget, Option.bind_eq_some_iff, pure, Option.some.injEq, Prod.mk.injEq,
          Prod.exists] at h
        obtain ⟨value'', l, hloop, rfl, rfl⟩ := h
        rw [← Nat.add_assoc]
        exact ih.object hloop (consumed_object.2 (hc.value hkey hsize
          fun c hc => (hchild c hc).of_getObject hget))
    · simp only [Option.bind_eq_bind, Option.bind_eq_some_iff, pure, Option.some.injEq,
        Prod.mk.injEq, Prod.exists] at h
      obtain ⟨value', m, hloop, rfl, rfl⟩ := h
      have hname := hc.name (byte :: rest) (Bool.eq_false_iff.2 hkey)
      rw [← Nat.add_assoc]
      exact ih.object hloop (consumed_object.2 hname)

theorem consumed_arrayLoop {num : NumberParser} {key : StringParser} {marker : Bool}
    {elements : List (WString × AMFData)} {parser : Option AMFParsing} {data : List UInt8}
    {value : AMFParsing} {n c : Nat}
    (h : AMFEcmaArray.parse (fuel + 1) num key marker elements parser data = some (value, n))
    (hc : (ecmaArray num key marker elements parser).Consumed c) : value.Consumed (c + n) := by
  cases data with
  | nil =>
    cases h
    exact hc
  | cons byte rest =>
    simp only [AMFEcmaArray.parse] at h
    split_ifs at h with hdone hnum hkey hsize hbyte
    · cases h
      exact hc
    · obtain rfl : marker = false := by simpa [hnum] using hdone
      rw [consumed_ecmaArray] at hc
      cases h
      exact consumed_ecmaArray.2 (hc.finish hnum hkey)
    · obtain rfl : marker = false := by simpa [hnum] using hdone
      rw [consumed_ecmaArray] at hc
      simp only [Option.bind_eq_bind, Option.bind_eq_some_iff, Prod.exists] at h
      obtain ⟨value', m, hvalue, h⟩ := h
      have hchild (c) (hc : ConsumedBy parser c) : value'.Consumed (c + m) := ih.parser hvalue hc
      cases hget : value'.getObject with
      | none =>
        simp only [hget, Option.bind_eq_some_iff, pure, Option.some.injEq, Prod.mk.injEq,
          Prod.exists] at h
        obtain ⟨value'', l, hloop, rfl, rfl⟩ := h
        rw [← Nat.add_assoc]
        exact ih.array hloop (consumed_ecmaArray.2 (hc.part hchild))
      | some v =>
        simp only [hget, Option.bind_eq_some_iff, pure, Option.some.injEq, Prod.mk.injEq,
          Prod.exists] at h
        obtain ⟨value'', l, hloop, rfl, rfl⟩ := h
        rw [← Nat.add_assoc]
        exact ih.array hloop (consumed_ecmaArray.2 (hc.value hkey hsize
          fun c hc => (hchild c hc).of_getObject hget))
    · obtain rfl : marker = false := by simpa [hnum] using hdone
      rw [consumed_ecmaArray] at hc
      simp only [Option.bind_eq_bind, Option.bind_eq_some_iff, pure, Option.some.injEq,
        Prod.mk.injEq, Prod.exists] at h
      obtain ⟨value', m, hloop, rfl, rfl⟩ := h
      rw [← Nat.add_assoc]
      exact ih.array hloop (consumed_ecmaArray.2 (hc.name _))
    · simp only [Option.bind_eq_bind, Option.bind_eq_some_iff, pure, Option.some.injEq,
        Prod.mk.injEq, Prod.exists] at h
      obtain ⟨value', m, hloop, rfl, rfl⟩ := h
      have hnumber := (consumed_ecmaArray.1 hc).number (byte :: rest)
        (Bool.eq_false_iff.2 hnum)
      rw [← Nat.add_assoc]
      exact ih.array hloop (consumed_ecmaArray.2 hnumber)

theorem consumed_strictLoop {num : NumberParser} {elements : List AMFData}
    {parser : Option AMFParsing} {data : List UInt8} {value : AMFParsing} {n c : Nat}
    (h : AMFStrictArray.parse (fuel + 1) num elements parser data = some (value, n))
    (hc : 1 ≤ c) : value.Consumed (c + n) := by
  cases data with
  | nil =>
    cases h
    exact hc
  | cons byte rest =>
    simp only [AMFStrictArray.parse] at h
    by_cases hnum : num.isParsed
    · rw [if_neg (not_not.2 hnum)] at h
      simp only [Option.bind_eq_bind, Option.bind_eq_some_iff, Prod.exists] at h
      obtain ⟨value', m, -, h⟩ := h
      cases hget : value'.getObject with
      | none =>
        simp only [hget, Option.bind_eq_some_iff, pure, Option.some.injEq, Prod.mk.injEq,
          Prod.exists] at h
        obtain ⟨value'', l, hloop, rfl, rfl⟩ := h
        rw [← Nat.add_assoc]
        exact ih.strictArray hloop (by omega)
      | some v =>
        simp only [hget] at h
        split_ifs at h with hroom hlast
        · cases h
          exact show 1 ≤ c + n by omega
        · simp only [Option.bind_eq_some_iff, pure, Option.some.injEq, Prod.mk.injEq,
            Prod.exists] at h
          obtain ⟨value'', l, hloop, rfl, rfl⟩ := h
          rw [← Nat.add_assoc]
          exact ih.strictArray hloop (by omega)
    · rw [if_pos hnum] at h
      simp only [Option.bind_eq_bind, Option.bind_eq_some_iff, pure, Option.some.injEq,
        Prod.mk.injEq, Prod.exists] at h
      obtain ⟨value', m, hloop, rfl, rfl⟩ := h
      rw [← Nat.add_assoc]
      exact ih.strictArray hloop (by omega)

theorem consumed_data {object value : AMFParsing} {data : List UInt8} {n c : Nat}
    (h : AMFData.parse (fuel + 1) object data = some (value, n)) (hc : object.Consumed c) :
    value.Consumed (c + n) := by
  cases object with
  | number p =>
    simp only [AMFData.parse, Option.some.injEq, Prod.mk.injEq] at h
    obtain ⟨rfl, rfl⟩ := h
    have hlen := (p.len_parse data).1
    have htaken : 9 ≤ c + p.len := hc
    exact show 9 ≤ _ by omega
  | boolean b =>
    cases data with
    | nil =>
      cases h
      exact hc
    | cons byte data =>
      cases b with
      | some b => cases h
      | none =>
        cases h
        have := hc.1
        exact ⟨by omega, fun _ => by omega⟩
  | string p =>
    simp only [AMFData.parse, Option.some.injEq, Prod.mk.injEq] at h
    obtain ⟨rfl, rfl⟩ := h
    obtain ⟨k, hk, hle⟩ := hc
    exact ⟨_, hk.parse, by omega⟩
  | object key marker properties order parser => exact ih.object h hc
  | empty v =>
    cases h
    exact hc
  | ecmaArray num key marker elements parser => exact ih.array h hc
  | strictArray num elements parser => exact ih.strictArray h hc
  | date v len =>
    cases h
    exact show 1 ≤ _ from le_trans hc (Nat.le_add_right _ _)
  | longString p | xmlDocument p =>
    cases h
    exact show 1 ≤ _ from le_trans hc (Nat.le_add_right _ _)

end Calls

theorem callsConsume (fuel : Nat) : CallsConsume fuel := by
  induction fuel with
  | zero => exact ⟨nofun, nofun, nofun, nofun, nofun⟩
  | succ fuel ih =>
    exact ⟨parser_consumed ih, consumed_data ih, consumed_objectLoop ih, consumed_arrayLoop ih,
      consumed_strictLoop ih⟩

/-- **No value from nothing.** A value that is read weighs no more than the bytes it is read from,
and its strings have sizes that can be written. -/
theorem weight_le_of_parse {bytes : List UInt8} {object : AMFParsing} {n : Nat} {v : AMFData}
    (h : AMFParser.parseData none bytes = some (object, n)) (hv : object.getObject = some v) :
    v.weight ≤ n ∧ v.Short := by
  have hconsumed := (callsConsume _).parser (c := 0) h rfl
  rw [Nat.zero_add] at hconsumed
  exact hconsumed.of_getObject hv

/-! ## Exactly the faithful values round trip -/

mutual

/-- No name has been added twice to an object in the value, and none that is empty. -/
def AMFData.Named : AMFData → Prop
  | .object properties order => order.length ≤ properties.length ∧ AllNamed properties
  | .ecmaArray elements => AllNamed elements
  | _ => True

/-- The same for the entries of a map. -/
def AllNamed : List (WString × AMFData) → Prop
  | [] => True
  | (key, value) :: rest => (key ≠ [] ∧ value.Named) ∧ AllNamed rest

end

mutual

theorem AMFData.weight_spec : ∀ v : AMFData,
    v.fullSize ≤ v.weight ∧ (v.weight ≤ v.fullSize → v.Named)
  | .number _ | .boolean _ | .string _ => ⟨le_rfl, fun _ => trivial⟩
  | .object properties order => by
    have h := weights_spec properties
    simp only [AMFData.fullSize, AMFData.weight, AMFData.Named]
    exact ⟨by omega, fun hle => ⟨by omega, h.2 (by omega)⟩⟩
  | .ecmaArray elements => by
    have h := weights_spec elements
    simp only [AMFData.fullSize, AMFData.weight, AMFData.Named]
    exact ⟨by omega, fun hle => h.2 (by omega)⟩
  | .movieClip | .null | .undefined | .strictArray _ | .date _ | .longString _ | .unsupported
  | .recordSet | .xmlDocument _ => ⟨le_rfl, fun _ => trivial⟩

theorem weights_spec : ∀ entries : List (WString × AMFData),
    fullSizes entries ≤ weights entries ∧ (weights entries ≤ fullSizes entries → AllNamed entries)
  | [] => ⟨le_rfl, fun _ => trivial⟩
  | (key, value) :: rest => by
    have hvalue := value.weight_spec
    have hrest := weights_spec rest
    simp only [fullSizes, weights, AllNamed]
    refine ⟨by omega, fun hle => ⟨⟨?_, hvalue.2 (by omega)⟩, hrest.2 (by omega)⟩⟩
    rintro rfl
    simp only [utf8Size_nil] at hle
    omega

end

theorem allNamed_iff {entries : List (WString × AMFData)} : AllNamed entries ↔
    ∀ e ∈ entries, e.1 ≠ [] ∧ e.2.Named := by
  induction entries with
  | nil => simp [AllNamed]
  | cons e entries ih => rw [AllNamed, List.forall_mem_cons, ih]

theorem nodup_of_length_le {calls : List (WString × AMFData)}
    (h : (calls.map Prod.fst).length ≤ (SortedMap.ofEntries calls).length) :
    (calls.map Prod.fst).Nodup := by
  have hkeys := (SortedMap.sorted_ofEntries calls).nodup_keys
  have hsub : List.Subperm ((SortedMap.ofEntries calls).map Prod.fst) (calls.map Prod.fst) :=
    hkeys.subperm fun k hk => SortedMap.mem_keys_ofEntries.1 hk
  exact (hsub.perm_of_length_le (by simpa using h)).nodup_iff.1 hkeys

theorem faithful_of_named {v : AMFData} (hb : Built v) (hn : v.Named) (hs : v.Short) :
    v.Faithful := by
  induction hb with
  | number | boolean | null => trivial
  | string => exact hs
  | object _ _ ih =>
    rw [AMFObject.ofCalls_eq] at hn hs ⊢
    have hnames := allNamed_iff.1 hn.2
    have hshort := allShort_iff.1 hs
    exact ⟨nodup_of_length_le hn.1, allFaithful_iff.2 fun e he => ⟨(hnames e he).1, (hshort e he).1,
      ih e (SortedMap.mem_of_mem_ofEntries he) (hnames e he).2 (hshort e he).2⟩⟩
  | ecmaArray _ _ ih =>
    rw [AMFEcmaArray.ofCalls_eq] at hn hs ⊢
    have hnames := allNamed_iff.1 hn
    have hshort := allShort_iff.1 hs
    exact allFaithful_iff.2 fun e he => ⟨(hnames e he).1, (hshort e he).1,
      ih e (SortedMap.mem_of_mem_ofEntries he) (hnames e he).2 (hshort e he).2⟩

theorem faithful_of_roundTrips {v : AMFData} (hb : Built v) (h : RoundTrips v) :
    v.Faithful ∧ v.fullSize < 2 ^ 32 := by
  obtain ⟨bytes, -, -, object, hparse, hget⟩ := h
  obtain ⟨hweight, hshort⟩ := weight_le_of_parse hparse hget
  obtain ⟨hle, hnamed⟩ := v.weight_spec
  have hsize := getSize_eq_fullSize hb
  exact ⟨faithful_of_named hb (hnamed (by omega)) hshort, by omega⟩

/-- **Round trips of AMF values.** A value round trips exactly when no property of an object in it
has been added twice, no name is empty, names and strings take less than 2^16 bytes and the value
less than 2^32. Reference: `amf.cpp:1191` and `amf.cpp:1024`. -/
theorem value_roundTrips_iff {v : AMFData} (hb : Built v) :
    RoundTrips v ↔ v.Faithful ∧ v.fullSize < 2 ^ 32 := by
  refine ⟨faithful_of_roundTrips hb, fun ⟨hf, hlt⟩ => roundTrips_of_faithful hb hf ?_⟩
  rwa [length_bytes hb hf]

theorem value_roundTrips_iff_object :
    RoundTrips (AMFObject.ofCalls [([0x61], .string [0x62]), ([0x63], .null)]) ↔
      (AMFObject.ofCalls [([0x61], .string [0x62]), ([0x63], .null)]).Faithful ∧
        (AMFObject.ofCalls [([0x61], .string [0x62]), ([0x63], .null)]).fullSize < 2 ^ 32 :=
  value_roundTrips_iff (.object (by simp [lastCodePoint]) (by
    simp only [List.mem_cons, List.not_mem_nil, or_false, forall_eq_or_imp, forall_eq]
    exact ⟨.string (by simp [lastCodePoint]), .null⟩))

/-- An object to which a property has been added twice is larger than it says. -/
theorem not_roundTrips_twice :
    ¬RoundTrips (AMFObject.ofCalls [([0x61], .boolean true), ([0x61], .boolean true)]) := by
  intro h
  have hb : Built (AMFObject.ofCalls [([0x61], .boolean true), ([0x61], .boolean true)]) :=
    .object (by simp [lastCodePoint]) (by
      simp only [List.mem_cons, List.not_mem_nil, or_false, forall_eq_or_imp, forall_eq]
      exact ⟨.boolean true, .boolean true⟩)
  have hf := (faithful_of_roundTrips hb h).1
  rw [AMFObject.ofCalls_eq] at hf
  simpa using hf.1

end Amf

end McuMediaServer
