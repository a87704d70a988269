import Mathlib.Data.List.Lex
import McuMediaServer.Base.SortedMap
import McuMediaServer.Http.StringParser

/-!
# Content types and headers

A content type is a type, a subtype and parameters, and the header of a message a token and the text
behind a colon. Parameters and headers of one name are kept together, in the order in which they
came. Parsing answers `some none` where the source returns an error.
-/

namespace McuMediaServer

open StringParser (of Moves Found)

/-- What is parsed, if it is accepted. -/
abbrev Parsing (α : Type) := Option (Option α)

namespace Parsing

variable {α : Type}

/-- Parsing reads within its buffer, and what is accepted satisfies `C`. -/
def Safe (C : α → Prop) (r : Parsing α) : Prop :=
  ∃ result, r = some result ∧ ∀ a, result = some a → C a

/-- Parsing goes on where something was found, and is an error where it was not. -/
def required (r : Option Found) (next : StringParser → Parsing α) : Parsing α :=
  match r with
  | none => none
  | some (false, _) => some none
  | some (true, p) => next p

@[simp]
theorem required_true (p : StringParser) (next : StringParser → Parsing α) :
    required (some (true, p)) next = next p := rfl

@[simp]
theorem required_false (p : StringParser) (next : StringParser → Parsing α) :
    required (some (false, p)) next = some none := rfl

theorem safe_required {C : α → Prop} {t : Chars} {r : Option Found} (h : Moves t r)
    {next : StringParser → Parsing α}
    (hnext : ∀ u w, u.length < t.length → Safe C (next (of u w))) : Safe C (required r next) := by
  obtain ⟨found, u, w, rfl, -, hlt⟩ := h
  cases found with
  | false => exact ⟨none, rfl, fun a ha => by cases ha⟩
  | true => exact hnext u w (hlt rfl)

end Parsing

open Parsing

/-- Names with their values. Reference: `http.h:16`. -/
abbrev Values := List (Chars × List Chars)

namespace Parameters

/-- What follows a semicolon: the name and the value, which is empty where there is none. Reference:
`http.cpp:18`. -/
def parseParameter (p : StringParser) : Parsing ((Chars × Chars) × StringParser) :=
  p.skipSpaces.bind fun p =>
  required p.parseToken fun p =>
  p.skipSpaces.bind fun p =>
  (p.parseChar 0x3D).bind fun equals =>
    if equals.1 then
      equals.2.skipSpaces.bind fun mark =>
      mark.parseToken.bind fun token =>
        if token.1 then some (some ((p.value, token.2.value), token.2))
        else required (mark.parseQuotedString StringParser.isTextChar) fun q =>
          some (some ((p.value, q.value), q))
    else some (some ((p.value, []), p))

theorem exists_of_required {α : Type} {r : Option Found} {next : StringParser → Parsing α} {a : α}
    (h : required r next = some (some a)) :
    ∃ p, r = some (true, p) ∧ next p = some (some a) := by
  rcases r with _ | ⟨_ | _, p⟩
  · cases h
  · cases h
  · exact ⟨p, rfl, h⟩

theorem behind_parseParameter {p q : StringParser} {entry : Chars × Chars}
    (h : parseParameter p = some (some (entry, q))) : p.Behind q := by
  obtain ⟨p₁, h₁, h⟩ := Option.bind_eq_some_iff.1 h
  obtain ⟨p₂, h₂, h⟩ := exists_of_required h
  obtain ⟨p₃, h₃, h⟩ := Option.bind_eq_some_iff.1 h
  obtain ⟨⟨found, p₄⟩, h₄, h⟩ := Option.bind_eq_some_iff.1 h
  have hkey := ((StringParser.behind_skipChars h₁).trans (StringParser.behind_parseChars h₂)).trans
    (StringParser.behind_skipChars h₃)
  dsimp only at h
  split at h
  · obtain ⟨p₅, h₅, h⟩ := Option.bind_eq_some_iff.1 h
    have hmark := (hkey.trans (StringParser.behind_parseChar h₄)).trans
      (StringParser.behind_skipChars h₅)
    obtain ⟨⟨found', p₆⟩, h₆, h⟩ := Option.bind_eq_some_iff.1 h
    dsimp only at h
    split at h
    · cases h
      exact hmark.trans (StringParser.behind_parseChars h₆)
    · obtain ⟨p₇, h₇, h⟩ := exists_of_required h
      cases h
      exact hmark.trans (StringParser.behind_parseQuotedString h₇)
  · cases h
    exact hkey

/-- The parameters behind a type. Reference: the loop of `http.cpp:16`. -/
def parseLoop (params : Values) (p : StringParser) : Parsing Values :=
  match _hchar : p.parseChar 0x3B with
  | none => none
  | some (false, _) => some (some params)
  | some (true, q) =>
    match _hparam : parseParameter q with
    | none => none
    | some none => some none
    | some (some (entry, r)) => parseLoop (SortedMap.push entry.1 entry.2 params) r
termination_by p.left
decreasing_by
  exact (behind_parseParameter _hparam).left_le.trans_lt (StringParser.left_parseChar _hchar)

/-- Reference: `http.cpp:11`. -/
def parse (p : StringParser) : Parsing Values :=
  p.skipSpaces.bind fun p => parseLoop [] p

end Parameters

/-- Reference: `http.h:60`. -/
structure ContentType where
  type : Chars
  subtype : Chars
  params : Values := []
  deriving DecidableEq, Repr

/-- Reference: `http.h:45`. -/
structure ContentDisposition where
  type : Chars
  params : Values := []
  deriving DecidableEq, Repr

namespace ContentType

/-- Reference: `http.cpp:331`. -/
def parse (buffer : Chars) : Parsing ContentType :=
  required (of buffer).parseToken fun p =>
  required (p.parseChar 0x2F) fun q =>
  required q.parseToken fun r =>
    (Parameters.parse r).map fun params =>
      params.map fun params => { type := p.value, subtype := r.value, params }

/-- Reference: `http.h:72`. -/
def equals (c : ContentType) (type subtype : Chars) : Bool :=
  c.type = type && c.subtype = subtype

end ContentType

/-- Reference: `http.cpp:493`. -/
def ContentDisposition.parse (buffer : Chars) : Parsing ContentDisposition :=
  required (of buffer).parseToken fun p =>
    (Parameters.parse p).map fun params => params.map fun params => { type := p.value, params }

namespace Headers

/-- Reference: `http.cpp:170`. -/
def parseHeader (line : Chars) (headers : Values) : Parsing Values :=
  required (of line).parseToken fun p =>
  required (p.parseChar 0x3A) fun q =>
    q.skipWSpaces.bind fun r => r.getLeft.map fun value =>
      some (SortedMap.push p.value value headers)

/-- Reference: `http.cpp:200`. -/
def getHeader (key : Chars) (headers : Values) : Chars :=
  ((SortedMap.get? key headers).bind List.head?).getD []

end Headers

/-! ## Parsing within the buffer -/

section Safe

variable {t v : Chars}

namespace Parameters

theorem safe_parseParameter (t v : Chars) :
    Safe (fun r => ∃ u w, r.2 = of u w ∧ u.length < t.length) (parseParameter (of t v)) := by
  rw [parseParameter, StringParser.skipSpaces, StringParser.skipChars_of, Option.bind_some]
  have hspaces := StringParser.length_dropWhile_le (· == 0x20) t
  refine safe_required (StringParser.moves_parseChars _) fun u w hu => ?_
  rw [StringParser.skipSpaces, StringParser.skipChars_of, Option.bind_some]
  have hspaces' := StringParser.length_dropWhile_le (· == 0x20) u
  obtain ⟨found, u', w', hchar, hle, -⟩ :=
    StringParser.moves_parseChar (t := u.dropWhile (· == 0x20)) (v := w) 0x3D
  rw [hchar, Option.bind_some]
  dsimp only
  split
  case isFalse =>
    refine ⟨_, rfl, fun a ha => ?_⟩
    cases ha
    exact ⟨_, _, rfl, by omega⟩
  case isTrue =>
    rw [StringParser.skipSpaces, StringParser.skipChars_of, Option.bind_some]
    have hspaces'' := StringParser.length_dropWhile_le (· == 0x20) u'
    obtain ⟨found', u'', w'', htoken, hle', -⟩ := StringParser.moves_parseChars
      (t := u'.dropWhile (· == 0x20)) (v := w') StringParser.isTokenChar
    rw [StringParser.parseToken, htoken, Option.bind_some]
    dsimp only
    split
    case isTrue =>
      refine ⟨_, rfl, fun a ha => ?_⟩
      cases ha
      exact ⟨_, _, rfl, by omega⟩
    case isFalse =>
      refine safe_required (StringParser.moves_parseQuotedString _) fun x y hx => ?_
      refine ⟨_, rfl, fun a ha => ?_⟩
      cases ha
      exact ⟨_, _, rfl, by omega⟩

theorem safe_parseLoop (params : Values) (t v : Chars) :
    Safe (fun _ => True) (parseLoop params (of t v)) := by
  induction h : t.length using Nat.strong_induction_on generalizing params t v with
  | _ n ih =>
    subst h
    obtain ⟨found, u, w, hchar, -, hlt⟩ := StringParser.moves_parseChar (t := t) (v := v) 0x3B
    rw [parseLoop]
    split
    · rename_i heq
      rw [hchar] at heq
      cases heq
    · exact ⟨_, rfl, fun _ _ => trivial⟩
    · rename_i q heq
      rw [hchar] at heq
      cases heq
      obtain ⟨result, hparam, hresult⟩ := safe_parseParameter u w
      split
      · rename_i heq
        rw [hparam] at heq
        cases heq
      · exact ⟨_, rfl, fun _ _ => trivial⟩
      · rename_i entry r heq
        rw [hparam, Option.some.injEq] at heq
        obtain ⟨u', w', rfl, hlt'⟩ := hresult _ heq
        exact ih _ (hlt'.trans (hlt rfl)) _ _ _ rfl

theorem safe_parse (t v : Chars) : Safe (fun _ => True) (parse (of t v)) := by
  rw [parse, StringParser.skipSpaces, StringParser.skipChars_of, Option.bind_some]
  exact safe_parseLoop _ _ _

end Parameters

theorem ContentType.safe_parse (buffer : Chars) : Safe (fun _ => True) (parse buffer) := by
  refine safe_required (StringParser.moves_parseChars _) fun u w _ => ?_
  refine safe_required (StringParser.moves_parseChar _) fun u' w' _ => ?_
  refine safe_required (StringParser.moves_parseChars _) fun u'' w'' _ => ?_
  obtain ⟨result, hparse, -⟩ := Parameters.safe_parse u'' w''
  rw [hparse]
  exact ⟨_, rfl, fun _ _ => trivial⟩

theorem Headers.safe_parseHeader (line : Chars) (headers : Values) :
    Safe (fun _ => True) (parseHeader line headers) := by
  refine safe_required (StringParser.moves_parseChars _) fun u w _ => ?_
  refine safe_required (StringParser.moves_parseChar _) fun u' w' _ => ?_
  rw [StringParser.skipWSpaces, StringParser.skipChars_of, Option.bind_some,
    StringParser.getLeft_of]
  exact ⟨_, rfl, fun _ _ => trivial⟩

end Safe

end McuMediaServer
