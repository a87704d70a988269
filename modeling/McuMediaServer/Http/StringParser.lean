import Mathlib.Data.List.TakeWhile

/-!
# The string parser

`StringParser` moves over a buffer whose size it is told, and asks before it reads a character
whether it is at the end. The buffer may be shorter than the size: a character that is read out of it
is the failure `none`. On a parser that is told the size of its buffer each operation reads within it
and is a function of the text that is left (`StringParser.of`).
-/

namespace McuMediaServer

/-- A string, its characters as numbers: those of a `char` below 256, as they are compared. -/
abbrev Chars := List Nat

/-- The buffer from where the parser is, the characters it is told are left, and the last value.
Reference: `stringparser.h:18`. -/
structure StringParser where
  rest : Chars
  left : Nat
  value : Chars := []
  deriving DecidableEq, Repr

namespace StringParser

/-- Whether something was found, and the parser then. -/
abbrev Found := Bool × StringParser

variable (p : StringParser)

/-- Reference: `stringparser.h:283`. -/
def move (num : Nat) : StringParser :=
  { p with rest := p.rest.drop num, left := p.left - num }

/-- Reference: `stringparser.h:93`. -/
def checkChar (x : Nat) : Option Bool :=
  if p.left = 0 then some false else p.rest.head?.map (· == x)

/-- Reference: `stringparser.h:133`. -/
def parseChar (x : Nat) : Option Found :=
  (p.checkChar x).map fun found => (found, if found then p.move 1 else p)

/-- The characters of a kind, up to the end or another one. Reference: the loops of
`stringparser.h:195,215,417`. -/
def scanChars (isKind : Nat → Bool) : Nat → Chars → Option Chars
  | 0, _ => some []
  | _ + 1, [] => none
  | left + 1, c :: rest =>
    if isKind c then (scanChars isKind left rest).map (c :: ·) else some []

/-- Characters of a kind, one at least. Reference: `ParseToken` (`stringparser.h:407`),
`ParseUntilCharset` (`stringparser.h:186`). -/
def parseChars (isKind : Nat → Bool) : Option Found :=
  (scanChars isKind p.left p.rest).map fun chars =>
    if chars = [] then (false, p) else (true, { p.move chars.length with value := chars })

/-- Reference: `SkipCharset` (`stringparser.h:228`). -/
def skipChars (isKind : Nat → Bool) : Option StringParser :=
  (scanChars isKind p.left p.rest).map fun chars => p.move chars.length

/-- Reference: `stringparser.h:212`. -/
def skipSpaces : Option StringParser := p.skipChars (· == 0x20)

/-- Reference: `stringparser.h:220`. -/
def skipWSpaces : Option StringParser := p.skipChars fun c => c == 0x20 || c == 0x09

/-- The characters of a quoted string up to where the loop over them stops: a quote, a character
that is no text, or the end. An escaped quote is taken. Reference: `stringparser.h:157`. -/
def quotedChars (isText : Nat → Bool) : Nat → Chars → Option Chars
  | 0, _ => some []
  | _ + 1, [] => none
  | 1, c :: _ => some (if c ≠ 0x22 ∧ isText c then [c] else [])
  | left + 2, c :: rest =>
    if c = 0x22 then some []
    else if c = 0x5C then
      match rest with
      | [] => none
      | d :: rest' =>
        if d = 0x22 then (quotedChars isText left rest').map (c :: d :: ·)
        else if isText c then (quotedChars isText (left + 1) (d :: rest')).map (c :: ·)
        else some []
    else if isText c then (quotedChars isText (left + 1) rest).map (c :: ·)
    else some []

/-- The escapes stay in the value. Reference: `stringparser.h:146`. -/
def parseQuotedString (isText : Nat → Bool) : Option Found :=
  match p.parseChar 0x22 with
  | none => none
  | some (false, _) => some (false, p)
  | some (true, start) =>
    match quotedChars isText start.left start.rest with
    | none => none
    | some value =>
      match (start.move value.length).parseChar 0x22 with
      | none => none
      | some (false, _) => some (false, p)
      | some (true, p) => some (true, { p with value })

/-- The line up to CRLF. At the end it is not looked for. Reference: `stringparser.h:253`. -/
def lineChars : Nat → Chars → Option (Option Chars)
  | left + 2, rest =>
    match rest with
    | [] => none
    | c :: rest =>
      if c = 13 then
        match rest with
        | [] => none
        | d :: rest' =>
          if d = 10 then some (some [])
          else (lineChars (left + 1) (d :: rest')).map (Option.map (c :: ·))
      else (lineChars (left + 1) rest).map (Option.map (c :: ·))
  | _, _ => some none

/-- Reference: `stringparser.h:244`. -/
def parseLine : Option Found :=
  (lineChars p.left p.rest).map fun line =>
    match line with
    | none => (false, p)
    | some line => (true, { p.move (line.length + 2) with value := line })

/-- `strncmp` with a string as long as it compares. -/
def compare : Chars → Chars → Option Bool
  | [], _ => some true
  | _ :: _, [] => none
  | s :: str, c :: rest => if s = c then compare str rest else some false

/-- Reference: `stringparser.h:355`. -/
def checkString (str : Chars) : Option Bool :=
  if p.left < str.length then some false else compare str p.rest

/-- Reference: `stringparser.h:328`. -/
def matchString (str : Chars) : Option Found :=
  (p.checkString str).map fun found =>
    if found then (true, { p.move str.length with value := str }) else (false, p)

/-- Reference: `stringparser.h:277`. -/
def getLeft : Option Chars :=
  if p.rest.length < p.left then none else some (p.rest.take p.left)

/-- What ends a token. Reference: `stringparser.h:417`. -/
def separators : Chars :=
  [0x28, 0x29, 0x3C, 0x3E, 0x40, 0x2C, 0x3B, 0x3A, 0x5C, 0x22, 0x2F, 0x5B, 0x5D, 0x3F, 0x3D, 0x7B,
    0x7D]

/-- A `char` of a token. Reference: `stringparser.h:417`. -/
def isTokenChar (c : Nat) : Bool := 32 < c && c < 127 && !separators.contains c

/-- A `char` of a quoted string: one from 128 on is negative. Reference: `stringparser.h:164`. -/
def isTextChar (c : Nat) : Bool := 31 < c && c < 128

/-- A `wchar_t` of a token. Reference: `stringparser.h:508`. -/
def isWideTokenChar (c : Nat) : Bool := 32 < c && !separators.contains c

/-- A `wchar_t` of a quoted string. Reference: `stringparser.h:164`. -/
def isWideTextChar (c : Nat) : Bool := 31 < c

/-- Reference: `stringparser.h:407`. -/
def parseToken : Option Found := p.parseChars isTokenChar

/-! ## Moving on -/

section Behind

variable {p} {q r : StringParser} {found : Bool}

/-- The parser has been moved on. -/
def Behind (p q : StringParser) : Prop :=
  ∃ num, q.rest = p.rest.drop num ∧ q.left = p.left - num

theorem Behind.refl (p : StringParser) : p.Behind p := ⟨0, rfl, rfl⟩

theorem Behind.trans (h : p.Behind q) (h' : q.Behind r) : p.Behind r := by
  obtain ⟨num, hrest, hleft⟩ := h
  obtain ⟨num', hrest', hleft'⟩ := h'
  refine ⟨num + num', ?_, ?_⟩
  · rw [hrest', hrest, List.drop_drop]
  · rw [hleft', hleft, Nat.sub_sub]

theorem Behind.left_le (h : p.Behind q) : q.left ≤ p.left := by
  obtain ⟨num, -, hleft⟩ := h
  exact hleft.trans_le (Nat.sub_le _ _)

theorem Behind.suffix (h : p.Behind q) : q.rest <:+ p.rest := by
  obtain ⟨num, hrest, -⟩ := h
  exact hrest ▸ List.drop_suffix num p.rest

theorem behind_skipChars {isKind : Nat → Bool} (h : p.skipChars isKind = some q) :
    p.Behind q := by
  obtain ⟨chars, -, rfl⟩ := Option.map_eq_some_iff.1 h
  exact ⟨_, rfl, rfl⟩

theorem behind_parseChars {isKind : Nat → Bool} (h : p.parseChars isKind = some (found, q)) :
    p.Behind q := by
  obtain ⟨chars, -, heq⟩ := Option.map_eq_some_iff.1 h
  split at heq
  · cases heq
    exact .refl p
  · cases heq
    exact ⟨_, rfl, rfl⟩

theorem behind_parseChar {x : Nat} (h : p.parseChar x = some (found, q)) : p.Behind q := by
  obtain ⟨found', -, heq⟩ := Option.map_eq_some_iff.1 h
  cases found' with
  | false =>
    cases heq
    exact .refl p
  | true =>
    cases heq
    exact ⟨1, rfl, rfl⟩

theorem left_parseChar {x : Nat} (h : p.parseChar x = some (true, q)) : q.left < p.left := by
  obtain ⟨found', hcheck, heq⟩ := Option.map_eq_some_iff.1 h
  cases heq
  have hpos : p.left ≠ 0 := by
    intro hzero
    rw [checkChar, if_pos hzero] at hcheck
    cases hcheck
  exact Nat.sub_lt (Nat.pos_of_ne_zero hpos) Nat.one_pos

theorem behind_parseQuotedString {isText : Nat → Bool}
    (h : p.parseQuotedString isText = some (found, q)) : p.Behind q := by
  rw [parseQuotedString] at h
  split at h
  · cases h
  · cases h
    exact .refl p
  · rename_i start hopen
    split at h
    · cases h
    · rename_i value _
      have hmove : start.Behind (start.move value.length) := ⟨_, rfl, rfl⟩
      split at h
      · cases h
      · cases h
        exact .refl p
      · rename_i r hclose
        cases h
        obtain ⟨num, hrest, hleft⟩ :=
          ((behind_parseChar hopen).trans hmove).trans (behind_parseChar hclose)
        exact ⟨num, hrest, hleft⟩

end Behind

/-! ## Within the buffer -/

/-- A parser that is told the size of what is left in its buffer. -/
def of (t : Chars) (value : Chars := []) : StringParser :=
  { rest := t, left := t.length, value }

section Of

variable {t v : Chars}

@[simp]
theorem rest_of : (of t v).rest = t := rfl

@[simp]
theorem left_of : (of t v).left = t.length := rfl

@[simp]
theorem value_of : (of t v).value = v := rfl

@[simp]
theorem move_of (num : Nat) : (of t v).move num = of (t.drop num) v := by
  rw [move, of, of, List.length_drop]

@[simp]
theorem parseChar_of_nil (x : Nat) : (of [] v).parseChar x = some (false, of [] v) := rfl

@[simp]
theorem parseChar_of_cons (x c : Nat) :
    (of (c :: t) v).parseChar x = some (c == x, if c = x then of t v else of (c :: t) v) := by
  rw [parseChar, checkChar, left_of, if_neg (List.length_pos_of_mem List.mem_cons_self).ne', rest_of,
    List.head?_cons, Option.map_some, Option.map_some, move_of]
  simp

theorem parseChar_of_ne {x : Nat} (h : t.head? ≠ some x) :
    (of t v).parseChar x = some (false, of t v) := by
  cases t with
  | nil => rfl
  | cons c t =>
    have hne : c ≠ x := fun heq => h (congrArg some heq)
    rw [parseChar_of_cons, if_neg hne, beq_false_of_ne hne]

theorem scanChars_length (isKind : Nat → Bool) (t : Chars) :
    scanChars isKind t.length t = some (t.takeWhile isKind) := by
  induction t with
  | nil => rfl
  | cons c t ih =>
    rw [List.length_cons, scanChars, ih, List.takeWhile_cons]
    split <;> rfl

theorem drop_length_takeWhile (isKind : Nat → Bool) (t : Chars) :
    t.drop (t.takeWhile isKind).length = t.dropWhile isKind := by
  have h := @List.drop_left _ (t.takeWhile isKind) (t.dropWhile isKind)
  rwa [List.takeWhile_append_dropWhile] at h

@[simp]
theorem skipChars_of (isKind : Nat → Bool) :
    (of t v).skipChars isKind = some (of (t.dropWhile isKind) v) := by
  rw [skipChars, left_of, rest_of, scanChars_length, Option.map_some, move_of,
    drop_length_takeWhile]

theorem parseChars_of (isKind : Nat → Bool) :
    (of t v).parseChars isKind =
      some (if t.takeWhile isKind = [] then (false, of t v)
        else (true, of (t.dropWhile isKind) (t.takeWhile isKind))) := by
  rw [parseChars, left_of, rest_of, scanChars_length, Option.map_some, move_of,
    drop_length_takeWhile]
  rfl

theorem quotedChars_length (isText : Nat → Bool) (t : Chars) :
    ∃ chars u, quotedChars isText t.length t = some chars ∧ t = chars ++ u := by
  have hcons : ∀ {c : Nat} {t : Chars} {found : Option Chars},
      (∃ chars u, found = some chars ∧ t = chars ++ u) →
      ∃ chars u, found.map (c :: ·) = some chars ∧ c :: t = chars ++ u := by
    rintro c t found ⟨chars, u, rfl, rfl⟩
    exact ⟨_, u, rfl, rfl⟩
  have hnone : ∀ t : Chars, ∃ chars u, some [] = some chars ∧ t = chars ++ u :=
    fun t => ⟨[], t, rfl, rfl⟩
  induction h : t.length using Nat.strong_induction_on generalizing t with
  | _ n ih =>
    subst h
    rcases t with _ | ⟨c, _ | ⟨d, t⟩⟩
    · exact hnone []
    · rw [List.length_singleton, quotedChars]
      split
      · exact ⟨[c], [], rfl, rfl⟩
      · exact hnone _
    · rw [List.length_cons, List.length_cons, quotedChars]
      have hshort := ih (d :: t).length (by simp) (d :: t) rfl
      rw [List.length_cons] at hshort
      split
      · exact hnone _
      · split
        · split
          · have htail := ih t.length (by simp only [List.length_cons]; omega) t rfl
            have hboth := @hcons c _ _ (@hcons d _ _ htail)
            rwa [Option.map_map] at hboth
          · split
            · exact hcons hshort
            · exact hnone _
        · split
          · exact hcons hshort
          · exact hnone _

theorem lineChars_length (t : Chars) :
    lineChars t.length t = some none ∨
      ∃ line u, lineChars t.length t = some (some line) ∧ t = line ++ 13 :: 10 :: u := by
  have hcons : ∀ {c : Nat} {t : Chars} {found : Option (Option Chars)},
      (found = some none ∨ ∃ line u, found = some (some line) ∧ t = line ++ 13 :: 10 :: u) →
      found.map (Option.map (c :: ·)) = some none ∨ ∃ line u,
        found.map (Option.map (c :: ·)) = some (some line) ∧ c :: t = line ++ 13 :: 10 :: u := by
    rintro c t found (rfl | ⟨line, u, rfl, rfl⟩)
    · exact .inl rfl
    · exact .inr ⟨_, u, rfl, rfl⟩
  induction t with
  | nil => exact .inl rfl
  | cons c t ih =>
    cases t with
    | nil => exact .inl rfl
    | cons d t =>
      rw [List.length_cons, List.length_cons, lineChars]
      split
      case isTrue hc =>
        split
        case isTrue hd => exact .inr ⟨[], t, rfl, by rw [hc, hd, List.nil_append]⟩
        case isFalse => exact hcons ih
      case isFalse => exact hcons ih

theorem compare_of_le (str t : Chars) (h : str.length ≤ t.length) :
    compare str t = some (str.isPrefixOf t) := by
  induction str generalizing t with
  | nil => rfl
  | cons s str ih =>
    cases t with
    | nil => cases h
    | cons c t =>
      rw [compare, List.isPrefixOf, ih t (Nat.le_of_succ_le_succ h)]
      split
      case isTrue heq => rw [heq, beq_self_eq_true, Bool.true_and]
      case isFalse hne => rw [beq_false_of_ne hne, Bool.false_and]

theorem checkString_of (str : Chars) : (of t v).checkString str = some (str.isPrefixOf t) := by
  rw [checkString, left_of, rest_of]
  split
  case isTrue h =>
    rw [eq_comm, Option.some.injEq, Bool.eq_false_iff]
    exact fun hpre => absurd (List.isPrefixOf_iff_prefix.1 hpre).length_le (Nat.not_le.2 h)
  case isFalse h => exact compare_of_le str t (Nat.not_lt.1 h)

theorem matchString_of (str : Chars) :
    (of t v).matchString str =
      some (if str.isPrefixOf t then (true, of (t.drop str.length) str) else (false, of t v)) := by
  rw [matchString, checkString_of, Option.map_some, move_of]
  rfl

theorem getLeft_of : (of t v).getLeft = some t := by
  rw [getLeft, rest_of, left_of, if_neg (Nat.lt_irrefl _), List.take_length]

/-- The parser is within its buffer after an operation, and has moved on where something was
found. -/
def Moves (t : Chars) (r : Option Found) : Prop :=
  ∃ found u w, r = some (found, of u w) ∧ u.length ≤ t.length ∧ (found = true → u.length < t.length)

theorem moves_parseChar (x : Nat) : Moves t ((of t v).parseChar x) := by
  cases t with
  | nil => exact ⟨false, [], v, rfl, le_rfl, fun h => absurd h Bool.false_ne_true⟩
  | cons c t =>
    rw [parseChar_of_cons]
    split
    case isTrue => exact ⟨_, t, v, rfl, Nat.le_succ _, fun _ => Nat.lt_succ_self _⟩
    case isFalse h =>
      exact ⟨_, c :: t, v, rfl, le_rfl, fun heq => absurd (eq_of_beq heq) h⟩

theorem moves_parseChars (isKind : Nat → Bool) : Moves t ((of t v).parseChars isKind) := by
  rw [parseChars_of]
  have hlength := congrArg List.length (List.takeWhile_append_dropWhile (p := isKind) (l := t))
  rw [List.length_append] at hlength
  split
  case isTrue => exact ⟨false, t, v, rfl, le_rfl, fun h => absurd h Bool.false_ne_true⟩
  case isFalse h =>
    have hpos := List.length_pos_iff.2 h
    exact ⟨true, _, _, rfl, by omega, fun _ => by omega⟩

theorem moves_parseQuotedString (isText : Nat → Bool) :
    Moves t ((of t v).parseQuotedString isText) := by
  have hnot : Moves t (some (false, of t v)) :=
    ⟨false, t, v, rfl, le_rfl, fun h => absurd h Bool.false_ne_true⟩
  obtain ⟨found, u, w, hopen, hle, hlt⟩ := moves_parseChar (t := t) (v := v) 0x22
  rw [parseQuotedString, hopen]
  cases found with
  | false => exact hnot
  | true =>
    obtain ⟨chars, u', hchars, rfl⟩ := quotedChars_length isText u
    obtain ⟨found', u'', w', hclose, hle', -⟩ := moves_parseChar (t := u') (v := w) 0x22
    have hmove : (of (chars ++ u') w).move chars.length = of u' w := by
      rw [move_of, List.drop_left]
    dsimp only
    rw [left_of, rest_of, hchars]
    dsimp only
    rw [hmove, hclose]
    rw [List.length_append] at hlt
    have hshort := hlt rfl
    cases found' with
    | false => exact hnot
    | true => exact ⟨true, u'', chars, rfl, by omega, fun _ => by omega⟩

theorem moves_parseLine : Moves t (of t v).parseLine := by
  rw [parseLine, left_of, rest_of]
  rcases lineChars_length t with h | ⟨line, u, h, heq⟩
  · rw [h, Option.map_some]
    exact ⟨false, t, v, rfl, le_rfl, fun h => absurd h Bool.false_ne_true⟩
  · rw [h, Option.map_some]
    dsimp only
    rw [move_of]
    have hdrop : t.drop (line.length + 2) = u := by
      rw [heq, ← List.drop_drop, List.drop_left]
      rfl
    have hlength : t.length = line.length + (u.length + 2) := by
      rw [heq, List.length_append, List.length_cons, List.length_cons]
    rw [hdrop]
    exact ⟨true, u, line, rfl, by omega, fun _ => by omega⟩

theorem moves_matchString {str : Chars} (hstr : str ≠ []) :
    Moves t ((of t v).matchString str) := by
  rw [matchString_of]
  split
  case isFalse => exact ⟨false, t, v, rfl, le_rfl, fun h => absurd h Bool.false_ne_true⟩
  case isTrue h =>
    have hle := (List.isPrefixOf_iff_prefix.1 h).length_le
    have hpos := List.length_pos_iff.2 hstr
    have hlength := @List.length_drop _ str.length t
    exact ⟨true, _, str, rfl, by omega, fun _ => by omega⟩

theorem length_dropWhile_le (isKind : Nat → Bool) (t : Chars) :
    (t.dropWhile isKind).length ≤ t.length :=
  (List.dropWhile_sublist isKind).length_le

end Of

end StringParser

end McuMediaServer
