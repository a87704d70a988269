import McuMediaServer.Json.Parser

/-!
# The strings of the JSON parser

`ParseJSONString` knows the eight simple escapes. Any other takes four characters and stands for a
question mark, also `\u` and its four digits, of which the last is then taken for a character of its
own. So where a string has such an escape its value is another one (`stringRight_iff`), but the
parser is behind it nevertheless, unless the escape is none of JSON (`nameExact_iff`).
-/

namespace McuMediaServer.JSONParser

open Json (Text spaces hexDigit simpleEscape hex4 Spells Reads passing passing_eq_some)

/-! ## What the parser reads -/

attribute [local simp] stringChars in
theorem stringChars_quote (t : Text) : stringChars (0x22 :: t) = some ([], t) := by
  unfold stringChars
  rfl

theorem stringChars_plain {c : Nat} (hplain : 31 < c) (hquote : c ≠ 0x22) (hbackslash : c ≠ 0x5C)
    (t : Text) :
    stringChars (c :: t) = (stringChars t).map fun found => (c :: found.1, found.2) := by
  conv_lhs => unfold stringChars
  simp [hplain, hquote, hbackslash]

/-- The loop takes an escape as `escape` has it. -/
theorem stringChars_escape (t : Text) :
    stringChars (0x5C :: t) =
      (escape t).bind fun e => (stringChars e.2).map fun found => (e.1 :: found.1, found.2) := by
  conv_lhs => unfold stringChars
  rcases t with _ | ⟨c, t⟩
  · simp [escape]
  cases hc : simpleEscape c with
  | some d => simp [escape, hc]
  | none => rcases t with _ | ⟨_, _ | ⟨_, _ | ⟨_, t⟩⟩⟩ <;> simp [escape, hc]

theorem escape_length {t u : Text} {d : Nat} (h : escape t = some (d, u)) :
    u.length < t.length := by
  rcases t with _ | ⟨c, t⟩
  · cases h
  unfold escape at h
  cases hc : simpleEscape c with
  | some d' =>
    simp only [hc, Option.some.injEq, Prod.mk.injEq] at h
    simp [← h.2]
  | none =>
    rcases t with _ | ⟨_, _ | ⟨_, _ | ⟨_, t⟩⟩⟩ <;> simp only [hc] at h
    · cases h
    · cases h
    · cases h
    · simp only [Option.some.injEq, Prod.mk.injEq] at h
      simp only [← h.2, List.length_cons]
      omega

variable {t v r : Text}

theorem stringChars_eq_some_iff : stringChars t = some (v, r) ↔ Spells escape t v r := by
  constructor
  · intro h
    induction hn : t.length using Nat.strong_induction_on generalizing t v r with
    | _ n ih =>
      rcases t with _ | ⟨c, t⟩
      · cases h
      by_cases hquote : c = 0x22
      · subst hquote
        rw [stringChars_quote] at h
        cases h
        exact .close _
      by_cases hbackslash : c = 0x5C
      · subst hbackslash
        rw [stringChars_escape] at h
        obtain ⟨⟨d, u⟩, he, h⟩ := Option.bind_eq_some_iff.1 h
        obtain ⟨found, htail, hfound⟩ := Option.map_eq_some_iff.1 h
        cases hfound
        have hlt := escape_length he
        exact .escape he (ih u.length (by simp only [List.length_cons] at hn; omega) htail rfl)
      by_cases hplain : 31 < c
      · rw [stringChars_plain hplain hquote hbackslash] at h
        obtain ⟨found, htail, hfound⟩ := Option.map_eq_some_iff.1 h
        cases hfound
        exact .plain hplain hquote hbackslash
          (ih t.length (by simp only [List.length_cons] at hn; omega) htail rfl)
      · unfold stringChars at h
        simp [hquote, hbackslash, hplain] at h
  · intro h
    induction h with
    | close t => exact stringChars_quote t
    | plain hplain hquote hbackslash _ ih =>
      rw [stringChars_plain hplain hquote hbackslash, ih]
      rfl
    | escape he _ ih =>
      rw [stringChars_escape, he, Option.bind_some, ih]
      rfl

/-! ## Its escapes and those of JSON -/

/-- Whether an escape is one of the simple ones. -/
def isSimple : Text → Bool
  | [] => false
  | c :: _ => (simpleEscape c).isSome

/-- Whether an escape is one of JSON. -/
def isKnown (t : Text) : Bool := (Json.escape t).isSome

theorem hexDigit_plain {c d : Nat} (h : hexDigit c = some d) : 31 < c ∧ c ≠ 0x22 ∧ c ≠ 0x5C := by
  unfold hexDigit Json.isDigit at h
  split at h
  · rename_i hc
    simp only [Bool.and_eq_true, decide_eq_true_eq] at hc
    omega
  split at h
  · omega
  split at h
  · omega
  · cases h

/-- The four digits behind a `u` end in a character that a string may have. -/
theorem hex4_plain {a b c d n : Nat} (h : hex4 a b c d = some n) :
    31 < d ∧ d ≠ 0x22 ∧ d ≠ 0x5C := by
  unfold hex4 at h
  simp only [Option.bind_eq_bind, Option.bind_eq_some_iff] at h
  obtain ⟨_, _, _, _, _, _, _, hd, _⟩ := h
  exact hexDigit_plain hd

theorem escape_of_isSimple {t : Text} (h : isSimple t = true) : escape t = Json.escape t := by
  rcases t with _ | ⟨c, t⟩
  · cases h
  obtain ⟨d, hd⟩ := Option.isSome_iff_exists.1 h
  simp [escape, Json.escape, hd]

theorem escape_of_not_isSimple {t u : Text} {d : Nat} (hsimple : isSimple t = false)
    (h : Json.escape t = some (d, u)) :
    ∃ c, (31 < c ∧ c ≠ 0x22 ∧ c ≠ 0x5C) ∧ escape t = some (0x3F, c :: u) := by
  rcases t with _ | ⟨c, t⟩
  · cases h
  have hc : simpleEscape c = none := Option.not_isSome_iff_eq_none.1 (by simpa [isSimple] using hsimple)
  unfold Json.escape at h
  simp only [hc] at h
  split at h
  · rcases t with _ | ⟨h₁, _ | ⟨h₂, _ | ⟨h₃, _ | ⟨h₄, t⟩⟩⟩⟩
    · cases h
    · cases h
    · cases h
    · cases h
    · obtain ⟨n, hn, hu⟩ := Option.map_eq_some_iff.1 h
      cases hu
      exact ⟨h₄, hex4_plain hn, by simp [escape, hc]⟩
  · cases h

theorem chars_of_json (h : Spells Json.escape t v r) :
    ∃ v', Spells (passing isKnown escape) t v' r ∧ v.length ≤ v'.length ∧
      (v'.length = v.length → Spells (passing isSimple escape) t v' r) := by
  induction h with
  | close t => exact ⟨[], .close t, le_refl _, fun _ => .close t⟩
  | @plain c t v r hplain hquote hbackslash _ ih =>
    obtain ⟨v', hknown, hlength, hsimple⟩ := ih
    refine ⟨c :: v', .plain hplain hquote hbackslash hknown, Nat.succ_le_succ hlength, ?_⟩
    intro heq
    exact .plain hplain hquote hbackslash (hsimple (Nat.succ.inj heq))
  | @escape d t u v r he _ ih =>
    obtain ⟨v', hknown, hlength, hsimple⟩ := ih
    have hok : isKnown t = true := by simp [isKnown, he]
    cases hs : isSimple t with
    | true =>
      have he' : escape t = some (d, u) := (escape_of_isSimple hs).trans he
      refine ⟨d :: v', .escape (passing_eq_some.2 ⟨hok, he'⟩) hknown, Nat.succ_le_succ hlength, ?_⟩
      intro heq
      exact .escape (passing_eq_some.2 ⟨hs, he'⟩) (hsimple (Nat.succ.inj heq))
    | false =>
      -- the last digit becomes a character, so the value is one longer
      obtain ⟨c, ⟨hplain, hquote, hbackslash⟩, he'⟩ := escape_of_not_isSimple hs he
      refine ⟨0x3F :: c :: v', .escape (passing_eq_some.2 ⟨hok, he'⟩)
        (.plain hplain hquote hbackslash hknown), ?_, ?_⟩
      · simp only [List.length_cons]
        omega
      · intro heq
        simp only [List.length_cons] at heq
        omega

theorem json_of_simple (h : Spells (passing isSimple escape) t v r) : Spells Json.escape t v r := by
  refine h.mono ?_
  intro t d u he
  obtain ⟨hs, he⟩ := passing_eq_some.1 he
  rw [← escape_of_isSimple hs, he]

theorem json_of_known (h : Spells (passing isKnown escape) t v r) : ∃ v', Spells Json.escape t v' r := by
  induction hn : t.length using Nat.strong_induction_on generalizing t v r with
  | _ n ih =>
    cases h with
    | close => exact ⟨[], .close _⟩
    | @plain c t v r hplain hquote hbackslash h =>
      obtain ⟨v', h'⟩ := ih t.length (by simp only [List.length_cons] at hn; omega) h rfl
      exact ⟨c :: v', .plain hplain hquote hbackslash h'⟩
    | @escape d t u v r he h =>
      obtain ⟨hok, he⟩ := passing_eq_some.1 he
      obtain ⟨⟨e, w⟩, hjson⟩ := Option.isSome_iff_exists.1 hok
      have hlt := escape_length he
      obtain ⟨v', h'⟩ := ih u.length (by simp only [List.length_cons] at hn; omega) h rfl
      cases hs : isSimple t with
      | true =>
        rw [escape_of_isSimple hs] at he
        exact ⟨d :: v', .escape he h'⟩
      | false =>
        -- the last digit, which the parser took for a character, belongs to the escape
        obtain ⟨c, ⟨_, hquote, hbackslash⟩, he'⟩ := escape_of_not_isSimple hs hjson
        rw [he] at he'
        cases he'
        cases h' with
        | close => exact absurd rfl hquote
        | plain _ _ _ h' => exact ⟨_, .escape hjson h'⟩
        | escape => exact absurd rfl hbackslash

/-! ## When a string is right -/

/-- Where the parser finds a string in a text, all its escapes pass. -/
def EscapesPass (ok : Text → Bool) (t : Text) : Prop :=
  ∀ v r, Spells escape t v r → Spells (passing ok escape) t v r

theorem chars_of_passing {ok : Text → Bool}
    (h : Spells (passing ok escape) t v r) : Spells escape t v r :=
  h.mono fun he => (passing_eq_some.1 he).2

theorem stringChars_right_iff {t : Text} :
    (∀ v r, stringChars t = some (v, r) ↔ Spells Json.escape t v r) ↔ EscapesPass isSimple t := by
  constructor
  · intro hright v r h
    obtain ⟨v', hknown, -, hsimple⟩ :=
      chars_of_json ((hright v r).1 (stringChars_eq_some_iff.2 h))
    obtain ⟨rfl, -⟩ := (chars_of_passing hknown).det h
    exact hsimple rfl
  · intro hpass v r
    rw [stringChars_eq_some_iff]
    constructor
    · exact fun h => json_of_simple (hpass v r h)
    · intro h
      obtain ⟨v', hknown, -⟩ := chars_of_json h
      have hcode := chars_of_passing hknown
      have hsimple := hpass v' r hcode
      obtain ⟨rfl, -⟩ := (json_of_simple hsimple).det h
      exact hcode

theorem stringChars_exact_iff {t : Text} :
    (∀ r, (∃ v, stringChars t = some (v, r)) ↔ ∃ v, Spells Json.escape t v r) ↔
      EscapesPass isKnown t := by
  constructor
  · intro hright v r h
    obtain ⟨v₁, h₁⟩ := (hright r).1 ⟨v, stringChars_eq_some_iff.2 h⟩
    obtain ⟨v', hknown, -⟩ := chars_of_json h₁
    obtain ⟨rfl, -⟩ := (chars_of_passing hknown).det h
    exact hknown
  · intro hpass r
    constructor
    · rintro ⟨v, h⟩
      exact json_of_known (hpass v r (stringChars_eq_some_iff.1 h))
    · rintro ⟨v, h⟩
      obtain ⟨v', hknown, -⟩ := chars_of_json h
      exact ⟨v', stringChars_eq_some_iff.2 (chars_of_passing hknown)⟩

end McuMediaServer.JSONParser
