import McuMediaServer.Json.Numbers

/-!
# Skipping a value of JSON

Each of the functions that `SkipJSONValue` tries decides by the next character that is no space, so
one of them finds something at most. Strings are found exactly where their escapes are known
(`parseJSONString_exact`), scalars where also the number is as it should be (`skipScalar_exact`). The
recursion ends, because each part takes a character (`skip_takes`, `skip_fuel`).
-/

namespace McuMediaServer.JSONParser

open Json (Text Kind spaces literals Spells Reads Met opens spaces_spaces reads_name_iff
  reads_string_iff reads_object_iff reads_array_iff reads_scalar_iff reads_members_iff
  reads_elements_iff)

variable {lib : Libc.Numbers} {p : JSONParser} {t u : Text}

/-! ## Single characters -/

@[simp] theorem skipJSONSpaces_rest : p.skipJSONSpaces.rest = spaces p.rest := rfl

@[simp] theorem skipJSONSpaces_einval : p.skipJSONSpaces.einval = p.einval := rfl

theorem skipChar_of_eq {x : Nat} (h : spaces p.rest = x :: u) :
    p.skipJSONSpaces.parseChar x = (true, { p with rest := u }) := by
  simp [parseChar, skipJSONSpaces, h]

theorem skipChar_of_ne {x : Nat} (h : ∀ u, spaces p.rest ≠ x :: u) :
    p.skipJSONSpaces.parseChar x = (false, p.skipJSONSpaces) := by
  unfold parseChar
  rw [skipJSONSpaces_rest]
  cases hs : spaces p.rest with
  | nil => rfl
  | cons c u =>
    have hc : c ≠ x := by
      rintro rfl
      exact h u hs
    simp [hc]

theorem skipChar_cases (p : JSONParser) (x : Nat) :
    (∃ u, spaces p.rest = x :: u ∧ p.skipJSONSpaces.parseChar x = (true, { p with rest := u })) ∨
      (∀ u, spaces p.rest ≠ x :: u) ∧
        p.skipJSONSpaces.parseChar x = (false, p.skipJSONSpaces) := by
  by_cases h : ∃ u, spaces p.rest = x :: u
  · obtain ⟨u, h⟩ := h
    exact .inl ⟨u, h, skipChar_of_eq h⟩
  · have h' : ∀ u, spaces p.rest ≠ x :: u := by
      intro u hu
      exact h ⟨u, hu⟩
    exact .inr ⟨h', skipChar_of_ne h'⟩

/-! ## What is right -/

/-- What is found of a kind in a text is what JSON has there: exactly what is left behind it, or
nothing. -/
def Exact (kind : Kind) (t : Text) : Option Found → Prop
  | none => False
  | some (true, p') => ∀ r, Reads kind t r ↔ r = p'.rest
  | some (false, _) => ∀ r, ¬Reads kind t r

/-- The parser knows the escapes of a string that comes next. -/
def Known (t : Text) : Prop := ∀ u, spaces t = 0x22 :: u → EscapesPass isKnown u

/-- What `wcstold` takes is what JSON has of a number, no exponent follows, and no zero comes when
`errno` may be `EINVAL`. -/
def NumberOk (einval : Bool) (t : Text) : Prop :=
  match Json.number t with
  | none => Libc.wcstold t = none
  | some r => (∃ z, Libc.wcstold t = some ⟨z, r⟩ ∧ ¬(z = true ∧ einval = true)) ∧
      ∀ c u, r = c :: u → ¬(c = 0x45 ∨ c = 0x65)

/-! ## Strings -/

theorem parseJSONString_of_ne (h : ∀ u, spaces p.rest ≠ 0x22 :: u) :
    p.parseJSONString = (false, p.skipJSONSpaces) := by
  simp only [parseJSONString, skipChar_of_ne h]
  rfl

theorem parseJSONString_of_eq (h : spaces p.rest = 0x22 :: u) :
    p.parseJSONString = match stringChars u with
      | none => (false, p.skipJSONSpaces)
      | some (value, rest) => (true, { p with value, rest }) := by
  simp only [parseJSONString, skipChar_of_eq h]
  cases stringChars u <;> rfl

theorem parseJSONString_exact (hp : spaces p.rest = spaces t) (hknown : Known t) :
    Exact .name t (some p.parseJSONString) := by
  rcases skipChar_cases p 0x22 with ⟨u, hu, -⟩ | ⟨hne, -⟩
  · have hright := stringChars_exact_iff.2 (hknown u (hp ▸ hu))
    have hreads : ∀ r, Reads .name t r ↔ ∃ v, stringChars u = some (v, r) := by
      intro r
      rw [hright, reads_name_iff, ← hp, hu]
      constructor
      · rintro ⟨u', v, hu', h⟩
        cases hu'
        exact ⟨v, h⟩
      · rintro ⟨v, h⟩
        exact ⟨u, v, rfl, h⟩
    rw [parseJSONString_of_eq hu]
    cases hs : stringChars u with
    | none =>
      intro r h
      obtain ⟨v, hv⟩ := (hreads r).1 h
      rw [hs] at hv
      cases hv
    | some found =>
      intro r
      rw [hreads, hs]
      constructor
      · rintro ⟨v, hv⟩
        cases hv
        rfl
      · rintro rfl
        exact ⟨found.1, rfl⟩
  · rw [parseJSONString_of_ne hne]
    intro r h
    obtain ⟨u, v, hu, -⟩ := reads_name_iff.1 h
    exact hne u (hp ▸ hu)

theorem known_of_exact (h : Exact .name t (some ({ rest := t } : JSONParser).parseJSONString)) :
    Known t := by
  intro u hu
  refine stringChars_exact_iff.1 ?_
  have hp : spaces ({ rest := t } : JSONParser).rest = 0x22 :: u := hu
  have hreads : ∀ r, Reads .name t r ↔ ∃ v, Spells Json.escape u v r := by
    intro r
    rw [reads_name_iff, hu]
    constructor
    · rintro ⟨u', v, hu', h⟩
      cases hu'
      exact ⟨v, h⟩
    · rintro ⟨v, h⟩
      exact ⟨u, v, rfl, h⟩
  rw [parseJSONString_of_eq hp] at h
  intro r
  rw [← hreads]
  cases hs : stringChars u with
  | none =>
    rw [hs] at h
    constructor
    · rintro ⟨v, hv⟩
      cases hv
    · exact fun hr => absurd hr (h r)
  | some found =>
    rw [hs] at h
    constructor
    · rintro ⟨v, hv⟩
      cases hv
      exact (h _).2 rfl
    · intro hr
      cases (h r).1 hr
      exact ⟨found.1, rfl⟩

/-! ## Literals -/

theorem matchString_cases (p : JSONParser) (w : Text) :
    (∃ r, spaces p.rest = w ++ r ∧
        p.matchString w = (true, { p with rest := r, value := w })) ∨
      (∀ r, spaces p.rest ≠ w ++ r) ∧ p.matchString w = (false, p.skipJSONSpaces) := by
  by_cases h : (spaces p.rest).take w.length = w
  · have hr : spaces p.rest = w ++ (spaces p.rest).drop w.length := by
      conv_lhs => rw [← List.take_append_drop w.length (spaces p.rest), h]
    refine .inl ⟨_, hr, ?_⟩
    simp [matchString, h]
    rfl
  · refine .inr ⟨?_, ?_⟩
    · intro r hr
      rw [hr, List.take_left] at h
      exact h rfl
    · simp [matchString, h]

@[simp] theorem orElse_true (p : JSONParser) (next : JSONParser → Option Found) :
    orElse (some (true, p)) next = some (true, p) := rfl

@[simp] theorem orElse_false (p : JSONParser) (next : JSONParser → Option Found) :
    orElse (some (false, p)) next = next p := rfl

theorem skipLiteral_spec (p : JSONParser) :
    ∃ found p', p.skipLiteral = some (found, p') ∧
      (found = true → ∃ w ∈ literals, spaces p.rest = w ++ p'.rest) ∧
      (found = false → ∀ w ∈ literals, ∀ r, spaces p.rest ≠ w ++ r) := by
  unfold skipLiteral parseJSONTrue parseJSONFalse parseJSONNull
  rcases matchString_cases p [0x74, 0x72, 0x75, 0x65] with ⟨r, hr, htrue⟩ | ⟨hnt, htrue⟩
  · rw [htrue, orElse_true]
    exact ⟨_, _, rfl, fun _ => ⟨_, by simp [literals], hr⟩, by simp⟩
  rw [htrue, orElse_false]
  rcases matchString_cases p.skipJSONSpaces [0x66, 0x61, 0x6C, 0x73, 0x65] with
    ⟨r, hr, hfalse⟩ | ⟨hnf, hfalse⟩
  · rw [hfalse, orElse_true]
    rw [skipJSONSpaces_rest, spaces_spaces] at hr
    exact ⟨_, _, rfl, fun _ => ⟨_, by simp [literals], hr⟩, by simp⟩
  rw [hfalse, orElse_false]
  rcases matchString_cases p.skipJSONSpaces.skipJSONSpaces [0x6E, 0x75, 0x6C, 0x6C] with
    ⟨r, hr, hnull⟩ | ⟨hnn, hnull⟩
  · rw [hnull]
    simp only [skipJSONSpaces_rest, spaces_spaces] at hr
    exact ⟨_, _, rfl, fun _ => ⟨_, by simp [literals], hr⟩, by simp⟩
  · rw [hnull]
    simp only [skipJSONSpaces_rest, spaces_spaces] at hnf hnn
    refine ⟨_, _, rfl, by simp, ?_⟩
    intro _ w hw r
    simp only [literals, List.mem_cons, List.not_mem_nil, or_false] at hw
    rcases hw with rfl | rfl | rfl
    · exact hnt r
    · exact hnf r
    · exact hnn r

/-! ## Numbers -/

variable {c : Libc.Conversion}

section Numbers

theorem parseJSONNumber_none (h : Libc.wcstold (spaces p.rest) = none) :
    p.parseJSONNumber lib = some (false, p.skipJSONSpaces) := by
  simp [parseJSONNumber, h]

theorem parseJSONNumber_zero (h : Libc.wcstold (spaces p.rest) = some c)
    (hzero : c.zero = true) (he : p.einval = true) :
    p.parseJSONNumber lib = some (false, p.skipJSONSpaces) := by
  simp [parseJSONNumber, h, hzero, he]

/-- The parser is behind what `wcstold` has taken, if no exponent follows. -/
theorem parseJSONNumber_some (h : Libc.wcstold (spaces p.rest) = some c)
    (hzero : ¬(c.zero = true ∧ p.einval = true))
    (hrest : ∀ d u, c.rest = d :: u → ¬(d = 0x45 ∨ d = 0x65)) :
    ∃ p', p.parseJSONNumber lib = some (true, p') ∧ p'.rest = c.rest := by
  unfold parseJSONNumber
  simp only [skipJSONSpaces_rest, h, skipJSONSpaces_einval, Bool.and_eq_true, if_neg hzero]
  cases hr : c.rest with
  | nil => exact ⟨_, rfl, rfl⟩
  | cons d u =>
    simp only [if_neg (hrest d u hr)]
    exact ⟨_, rfl, rfl⟩

/-- A second exponent takes the parser beyond what `wcstold` has taken. -/
theorem parseJSONNumber_exponent {d : Nat}
    (h : Libc.wcstold (spaces p.rest) = some c) (he : p.einval = false) (hrest : c.rest = d :: u)
    (hd : d = 0x45 ∨ d = 0x65) :
    p.parseJSONNumber lib = none ∨
      ∃ p', p.parseJSONNumber lib = some (true, p') ∧ p'.rest.length < c.rest.length := by
  unfold parseJSONNumber
  simp only [skipJSONSpaces_rest, h, skipJSONSpaces_einval, he, Bool.and_false, Bool.false_eq_true,
    if_false, hrest, if_pos hd, parseExponent, Bool.false_and]
  split
  · refine .inr ⟨_, rfl, ?_⟩
    simp only [List.length_drop, List.length_cons]
    omega
  · exact .inl rfl

/-- Where `errno` is not `EINVAL` a number is found wherever `wcstold` takes something, unless the
parser leaves the text. -/
theorem parseJSONNumber_found (h : Libc.wcstold (spaces p.rest) = some c) (he : p.einval = false) :
    p.parseJSONNumber lib = none ∨
      ∃ p', p.parseJSONNumber lib = some (true, p') ∧ p'.rest.length ≤ c.rest.length ∧
        (p'.rest.length = c.rest.length →
          p'.rest = c.rest ∧ ∀ d u, c.rest = d :: u → ¬(d = 0x45 ∨ d = 0x65)) := by
  by_cases hrest : ∃ d u, c.rest = d :: u ∧ (d = 0x45 ∨ d = 0x65)
  · obtain ⟨d, u, hrest, hd⟩ := hrest
    rcases parseJSONNumber_exponent h he hrest hd with hnone | ⟨p', hp', hlt⟩
    · exact .inl hnone
    · exact .inr ⟨p', hp', hlt.le, fun heq => absurd heq hlt.ne⟩
  · have hrest' : ∀ d u, c.rest = d :: u → ¬(d = 0x45 ∨ d = 0x65) := by
      intro d u hdu hd
      exact hrest ⟨d, u, hdu, hd⟩
    obtain ⟨p', hp', heq⟩ := @parseJSONNumber_some lib _ _ h (by simp [he]) hrest'
    exact .inr ⟨p', hp', (congrArg List.length heq).le, fun _ => ⟨heq, hrest'⟩⟩

end Numbers

/-! ## Scalars -/

section Scalars

theorem skipScalar_of_not_opens (h : ¬opens (spaces p.rest)) :
    p.skipScalar lib =
      orElse (p.skipJSONSpaces.parseJSONNumber lib) fun p => p.skipLiteral := by
  have hne : ∀ u, spaces p.rest ≠ 0x22 :: u := by
    intro u hu
    exact h ⟨_, _, .inl rfl, hu⟩
  unfold skipScalar
  rw [parseJSONString_of_ne hne, orElse_false]

theorem no_literal_of_number {w r r' : Text} (hn : Json.number t = some r) (hw : w ∈ literals) :
    t ≠ w ++ r' := by
  rintro rfl
  obtain ⟨c, hc, -⟩ := Libc.wcstold_of_number hn
  rw [Libc.wcstold_literal hw] at hc
  cases hc

theorem skipScalar_exact {e : Bool} (hopen : ¬opens (spaces t)) (hnumber : NumberOk e (spaces t))
    (hp : spaces p.rest = spaces t) (he : p.einval = true → e = true) :
    Exact .value t (p.skipScalar lib) := by
  have hq : spaces p.skipJSONSpaces.rest = spaces t := by
    rw [skipJSONSpaces_rest, spaces_spaces, hp]
  rw [skipScalar_of_not_opens (hp ▸ hopen)]
  unfold NumberOk at hnumber
  cases hn : Json.number (spaces t) with
  | none =>
    simp only [hn] at hnumber
    have hreads : ∀ r, Reads .value t r ↔ ∃ w ∈ literals, spaces t = w ++ r := by
      intro r
      rw [reads_scalar_iff hopen, hn]
      simp
    rw [parseJSONNumber_none (hq ▸ hnumber), orElse_false]
    obtain ⟨found, p', hfound, htrue, hfalse⟩ := skipLiteral_spec p.skipJSONSpaces.skipJSONSpaces
    simp only [skipJSONSpaces_rest, spaces_spaces, hp] at htrue hfalse
    rw [hfound]
    cases found with
    | true =>
      obtain ⟨w, hw, hr⟩ := htrue rfl
      intro r
      rw [hreads]
      constructor
      · rintro ⟨w', hw', hr'⟩
        exact Json.literal_det hw' hw (hr'.symm.trans hr)
      · rintro rfl
        exact ⟨w, hw, hr⟩
    | false =>
      intro r hr
      obtain ⟨w, hw, hr⟩ := (hreads r).1 hr
      exact hfalse rfl w hw r hr
  | some r =>
    simp only [hn] at hnumber
    obtain ⟨⟨z, hz, hzero⟩, hrest⟩ := hnumber
    obtain ⟨p', hp', heq⟩ := @parseJSONNumber_some lib p.skipJSONSpaces _
      (hq ▸ hz) (fun h => hzero ⟨h.1, he h.2⟩) hrest
    rw [hp', orElse_true]
    intro r'
    rw [reads_scalar_iff hopen, hn, heq]
    constructor
    · rintro (h | ⟨w, hw, h⟩)
      · exact (Option.some.inj h).symm
      · exact absurd h (no_literal_of_number hn hw)
    · rintro rfl
      exact .inl rfl

theorem numberOk_of_exact {e : Bool} (hopen : ¬opens (spaces t))
    (h : ∀ p : JSONParser, p.rest = t → (p.einval = true → e = true) →
      Exact .value t (p.skipScalar lib)) : NumberOk e (spaces t) := by
  have hscalar := fun p (hp : p.rest = t) =>
    @skipScalar_of_not_opens lib p (hp ▸ hopen)
  have hspaces : ∀ p : JSONParser, p.rest = t → spaces p.skipJSONSpaces.rest = spaces t := by
    intro p hp
    rw [skipJSONSpaces_rest, spaces_spaces, hp]
  have h₀ := h { rest := t } rfl (by simp)
  rw [hscalar _ rfl] at h₀
  -- what is found where `errno` is not `EINVAL`
  have hfound : ∀ {c}, Libc.wcstold (spaces t) = some c → ∃ r, Reads .value t r ∧
      r.length ≤ c.rest.length ∧ (r.length = c.rest.length →
        r = c.rest ∧ ∀ d u, c.rest = d :: u → ¬(d = 0x45 ∨ d = 0x65)) := by
    intro c hc
    rcases @parseJSONNumber_found lib ({ rest := t } : JSONParser).skipJSONSpaces _
      ((hspaces { rest := t } rfl).symm ▸ hc) rfl with hnone | ⟨p', hp', hle, heq⟩
    · rw [hnone] at h₀
      exact absurd h₀ id
    · rw [hp', orElse_true] at h₀
      exact ⟨p'.rest, (h₀ _).2 rfl, hle, heq⟩
  unfold NumberOk
  cases hn : Json.number (spaces t) with
  | none =>
    dsimp only
    cases hc : Libc.wcstold (spaces t) with
    | none => rfl
    | some c =>
      obtain ⟨r, hr, -⟩ := hfound hc
      rcases (reads_scalar_iff hopen).1 hr with hr | ⟨w, hw, hr⟩
      · rw [hn] at hr
        cases hr
      · rw [hr, Libc.wcstold_literal hw] at hc
        cases hc
  | some r =>
    obtain ⟨c, hc, hle⟩ := Libc.wcstold_of_number hn
    obtain ⟨r', hr', hle', heq⟩ := hfound hc
    have hr : r' = r := by
      rcases (reads_scalar_iff hopen).1 hr' with hr' | ⟨w, hw, hr'⟩
      · rw [hn] at hr'
        exact (Option.some.inj hr').symm
      · exact absurd hr' (no_literal_of_number hn hw)
    subst hr
    obtain ⟨hrest, hexponent⟩ := heq (le_antisymm hle' hle)
    refine ⟨⟨c.zero, by rw [hc, hrest], ?_⟩, hrest ▸ hexponent⟩
    rintro ⟨hzero, rfl⟩
    -- with `EINVAL` a zero is taken for an error, and no literal is there
    have h₁ := h { rest := t, einval := true } rfl (fun _ => rfl)
    rw [hscalar _ rfl, parseJSONNumber_zero
      ((hspaces { rest := t, einval := true } rfl).symm ▸ hc) hzero rfl, orElse_false] at h₁
    obtain ⟨found, p', hliteral, htrue, -⟩ := skipLiteral_spec
      ({ rest := t, einval := true } : JSONParser).skipJSONSpaces.skipJSONSpaces
    rw [hliteral] at h₁
    cases found with
    | false => exact h₁ _ hr'
    | true =>
      obtain ⟨w, hw, hw'⟩ := htrue rfl
      simp only [skipJSONSpaces_rest, spaces_spaces] at hw'
      exact no_literal_of_number hn hw hw'

theorem skipNumber_of_opens (h : opens (spaces p.rest)) :
    ∃ p', orElse (p.parseJSONNumber lib) (fun p => p.skipLiteral) = some (false, p') := by
  rw [parseJSONNumber_none (Libc.wcstold_of_opens h), orElse_false]
  obtain ⟨found, p', hliteral, htrue, -⟩ := skipLiteral_spec p.skipJSONSpaces
  rw [hliteral]
  cases found with
  | false => exact ⟨p', rfl⟩
  | true =>
    obtain ⟨w, hw, hr⟩ := htrue rfl
    obtain ⟨c, u, hc, hcu⟩ := h
    rw [skipJSONSpaces_rest, spaces_spaces, hcu] at hr
    rcases hc with rfl | rfl | rfl <;> rcases Json.literal_start hw hr with h | h | h <;> cases h

theorem skipScalar_string (h : spaces p.rest = 0x22 :: u) :
    (∃ p', p.parseJSONString = (true, p') ∧ p.skipScalar lib = some (true, p')) ∨
      ∃ p' p'', p.parseJSONString = (false, p') ∧ p.skipScalar lib = some (false, p'') := by
  unfold skipScalar
  cases hs : stringChars u with
  | none =>
    have hfalse : p.parseJSONString = (false, p.skipJSONSpaces) := by
      rw [parseJSONString_of_eq h, hs]
    have hopens : opens (spaces p.skipJSONSpaces.rest) := by
      rw [skipJSONSpaces_rest, spaces_spaces]
      exact ⟨_, _, .inl rfl, h⟩
    obtain ⟨p'', hp''⟩ := @skipNumber_of_opens lib _ hopens
    rw [hfalse, orElse_false]
    exact .inr ⟨_, p'', rfl, hp''⟩
  | some found =>
    rw [parseJSONString_of_eq h, hs]
    exact .inl ⟨_, rfl, rfl⟩

theorem skipScalar_other {c : Nat} (hc : c = 0x7B ∨ c = 0x5B) (h : spaces p.rest = c :: u) :
    ∃ p', p.skipScalar lib = some (false, p') := by
  have hne : ∀ u, spaces p.rest ≠ 0x22 :: u := by
    intro v hv
    rw [h] at hv
    rcases hc with rfl | rfl <;> cases hv
  have hopens : opens (spaces p.skipJSONSpaces.rest) := by
    rw [skipJSONSpaces_rest, spaces_spaces]
    exact ⟨c, u, .inr hc, h⟩
  unfold skipScalar
  rw [parseJSONString_of_ne hne, orElse_false]
  exact skipNumber_of_opens hopens

end Scalars

/-! ## Objects and arrays -/

section Nested
variable {parts : JSONParser → Option Found}

/-- An object or an array between its brackets, with the loop over its parts as a parameter. -/
def skipBracketsWith (start close : Nat) (parts : JSONParser → Option Found) (p : JSONParser) :
    Option Found :=
  let opened := p.skipJSONSpaces.parseChar start
  if opened.1 then
    let closed := opened.2.skipJSONSpaces.parseChar close
    if closed.1 then some closed
    else orReset p.rest (parts closed.2)
  else some (false, { opened.2 with rest := p.rest })

theorem skipObjectWith_eq : p.skipObjectWith parts = p.skipBracketsWith 0x7B 0x7D parts := rfl

theorem skipArrayWith_eq : p.skipArrayWith parts = p.skipBracketsWith 0x5B 0x5D parts := rfl

variable {start close : Nat}

theorem skipBracketsWith_of_ne (h : ∀ u, spaces p.rest ≠ start :: u) :
    p.skipBracketsWith start close parts = some (false, p) := by
  simp only [skipBracketsWith, skipChar_of_ne h]
  rfl

theorem skipBracketsWith_of_eq (h : spaces p.rest = start :: u) :
    (∃ r, spaces u = close :: r ∧
        p.skipBracketsWith start close parts = some (true, { p with rest := r })) ∨
      (∀ r, spaces u ≠ close :: r) ∧ p.skipBracketsWith start close parts =
        orReset p.rest (parts { p with rest := spaces u }) := by
  unfold skipBracketsWith
  rw [skipChar_of_eq h]
  rcases skipChar_cases { p with rest := u } close with ⟨r, hr, hclose⟩ | ⟨hne, hclose⟩
  · refine .inl ⟨r, hr, ?_⟩
    simp only [hclose, if_true]
  · refine .inr ⟨hne, ?_⟩
    simp only [hclose, if_true, Bool.false_eq_true, if_false]
    rfl

end Nested

/-! ## What `errno` can be -/

variable {found : Option Found} {next : JSONParser → Option Found}

section Errno
variable {e : Bool}

/-- `errno` is `EINVAL` behind what is found only if it may be. -/
def Keeps (e : Bool) (found : Option Found) : Prop :=
  ∀ b p', found = some (b, p') → p'.einval = true → e = true

theorem keeps_some {b : Bool} (h : p.einval = true → e = true) : Keeps e (some (b, p)) := by
  intro b' p' hp' he
  cases hp'
  exact h he

theorem keeps_found {found : Found} (h : found.2.einval = p.einval)
    (he : p.einval = true → e = true) : Keeps e (some found) :=
  keeps_some (p := found.2) (b := found.1) (h ▸ he)

theorem Keeps.orElse
    (h : Keeps e found) (hnext : ∀ q : JSONParser, (q.einval = true → e = true) → Keeps e (next q)) :
    Keeps e (JSONParser.orElse found next) := by
  rcases found with _ | ⟨_ | _, q⟩
  · intro b p' hp'
    cases hp'
  · exact hnext q (h _ _ rfl)
  · exact h

theorem Keeps.orReset (h : Keeps e found) : Keeps e (JSONParser.orReset t found) := by
  rcases found with _ | ⟨_ | _, q⟩
  · exact h
  · exact keeps_some (p := { q with rest := t }) (h false q rfl)
  · exact h

@[simp] theorem parseChar_einval (x : Nat) : (p.parseChar x).2.einval = p.einval := by
  unfold parseChar
  split
  · rfl
  · split <;> rfl

theorem parseJSONString_einval : p.parseJSONString.2.einval = p.einval := by
  unfold parseJSONString
  dsimp only
  split
  · split <;> rfl
  · rfl

theorem matchString_einval (w : Text) : (p.matchString w).2.einval = p.einval := by
  unfold matchString
  dsimp only
  split <;> rfl

theorem parseJSONNumber_keeps (he : p.einval = true → e = true) :
    Keeps e (p.parseJSONNumber lib) := by
  unfold parseJSONNumber
  dsimp only
  split
  · exact keeps_some he
  · split
    · exact keeps_some he
    · have hand : ∀ b : Bool, (p.einval && b) = true → e = true := by
        intro b h
        exact he (Bool.and_eq_true_iff.1 h).1
      split
      · exact keeps_some (hand _)
      · split
        · unfold parseExponent
          dsimp only
          split
          · exact keeps_some (fun h => hand _ (Bool.and_eq_true_iff.1 h).1)
          · split
            · exact keeps_some (fun h => hand _ (Bool.and_eq_true_iff.1 h).1)
            · intro b p' hp'
              cases hp'
        · exact keeps_some (hand _)

theorem skipScalar_keeps (he : p.einval = true → e = true) : Keeps e (p.skipScalar lib) := by
  unfold skipScalar skipLiteral
  refine (keeps_found parseJSONString_einval he).orElse fun q hq => ?_
  refine (parseJSONNumber_keeps hq).orElse fun q hq => ?_
  refine (keeps_found (matchString_einval _) hq).orElse fun q hq => ?_
  refine (keeps_found (matchString_einval _) hq).orElse fun q hq => ?_
  exact keeps_found (matchString_einval _) hq

theorem skipBracketsWith_keeps {start close : Nat} {parts : JSONParser → Option Found}
    (hparts : ∀ q : JSONParser, (q.einval = true → e = true) → Keeps e (parts q))
    (he : p.einval = true → e = true) : Keeps e (p.skipBracketsWith start close parts) := by
  by_cases hopen : ∃ u, spaces p.rest = start :: u
  · obtain ⟨u, hu⟩ := hopen
    rcases @skipBracketsWith_of_eq _ _ parts start close hu with ⟨r, -, hskip⟩ | ⟨-, hskip⟩
    · rw [hskip]
      exact keeps_some he
    · rw [hskip]
      exact (hparts { p with rest := spaces u } he).orReset
  · rw [skipBracketsWith_of_ne fun u hu => hopen ⟨u, hu⟩]
    exact keeps_some he

theorem skip_keeps {fuel : Nat} {kind : Kind} (he : p.einval = true → e = true) :
    Keeps e (skip lib fuel kind p) := by
  induction fuel generalizing kind p with
  | zero => exact keeps_some he
  | succ fuel ih =>
    cases kind with
    | name => exact keeps_found parseJSONString_einval he
    | value =>
      refine (skipBracketsWith_keeps (fun q hq => ih hq) he).orElse fun q hq => ?_
      refine (skipBracketsWith_keeps (fun q hq => ih hq) hq).orElse fun q hq => ?_
      exact skipScalar_keeps hq
    | members =>
      have hname : p.parseJSONString.2.einval = true → e = true := by
        rw [parseJSONString_einval]
        exact he
      unfold skip
      dsimp only [parseDoubleDot, parseComma, parseJSONObjectEnd]
      split
      · split
        · have hvalue : Keeps e (skip lib fuel .value
              (p.parseJSONString.2.skipJSONSpaces.parseChar 0x3A).2) := ih (by simpa using hname)
          split
          · intro b p' hp'
            cases hp'
          · rename_i hv
            exact keeps_some (hvalue _ _ hv)
          · rename_i q hv
            have hq := hvalue _ _ hv
            split
            · exact ih (by simpa using hq)
            · exact keeps_found (p := q) (by simp) hq
        · exact keeps_some (by simpa using hname)
      · exact keeps_some hname
    | elements =>
      have hvalue : Keeps e (skip lib fuel .value p) := ih he
      unfold skip
      dsimp only [parseComma, parseJSONArrayEnd]
      split
      · intro b p' hp'
        cases hp'
      · rename_i hv
        exact keeps_some (hvalue _ _ hv)
      · rename_i q hv
        have hq := hvalue _ _ hv
        split
        · exact ih (by simpa using hq)
        · exact keeps_found (p := q) (by simp) hq

end Errno

/-! ## Termination -/

section Termination
variable {n : Nat}

/-- Of a text of so many characters one at least is taken where something is found, and else the
parser has not been moved back beyond its start. -/
def Takes (n : Nat) (found : Option Found) : Prop :=
  ∀ b p', found = some (b, p') → p'.rest.length + b.toNat ≤ n

theorem takes_some {b : Bool} (h : p.rest.length + b.toNat ≤ n) : Takes n (some (b, p)) := by
  intro b' p' hp'
  cases hp'
  exact h

theorem takes_none : Takes n none := by
  intro b p' hp'
  cases hp'

theorem Takes.mono {m : Nat} (h : Takes m found) (hle : m ≤ n) : Takes n found :=
  fun b p' hp' => (h b p' hp').trans hle

theorem Takes.orElse
    (h : Takes n found) (hnext : ∀ q : JSONParser, q.rest.length ≤ n → Takes n (next q)) :
    Takes n (JSONParser.orElse found next) := by
  rcases found with _ | ⟨_ | _, q⟩
  · exact takes_none
  · exact hnext q (h _ _ rfl)
  · exact h

theorem Takes.orReset (h : Takes n found) (hle : t.length ≤ n) :
    Takes n (JSONParser.orReset t found) := by
  rcases found with _ | ⟨_ | _, q⟩
  · exact takes_none
  · exact takes_some (p := { q with rest := t }) hle
  · exact h

theorem skipChar_takes (p : JSONParser) (x : Nat) :
    Takes p.rest.length (some (p.skipJSONSpaces.parseChar x)) := by
  rcases skipChar_cases p x with ⟨u, hu, hx⟩ | ⟨-, hx⟩
  · rw [hx]
    exact takes_some (Json.length_of_spaces hu)
  · rw [hx]
    exact takes_some (Json.spaces_length p.rest)

theorem skipChar_length (p : JSONParser) (x : Nat) :
    (p.skipJSONSpaces.parseChar x).2.rest.length + (p.skipJSONSpaces.parseChar x).1.toNat ≤
      p.rest.length :=
  skipChar_takes p x _ _ rfl

theorem parseJSONString_takes (p : JSONParser) :
    Takes p.rest.length (some p.parseJSONString) := by
  rcases skipChar_cases p 0x22 with ⟨u, hu, -⟩ | ⟨hne, -⟩
  · rw [parseJSONString_of_eq hu]
    cases hs : stringChars u with
    | none => exact takes_some (Json.spaces_length p.rest)
    | some found =>
      have hchars := stringChars_eq_some_iff.1 hs
      exact takes_some ((hchars.length escape_length).trans (Json.length_of_spaces hu))
  · rw [parseJSONString_of_ne hne]
    exact takes_some (Json.spaces_length p.rest)

theorem parseJSONString_length (p : JSONParser) :
    p.parseJSONString.2.rest.length + p.parseJSONString.1.toNat ≤ p.rest.length :=
  parseJSONString_takes p _ _ rfl

theorem parseJSONNumber_takes (p : JSONParser) :
    Takes p.rest.length (p.parseJSONNumber lib) := by
  have hle := Json.spaces_length p.rest
  unfold parseJSONNumber
  simp only [skipJSONSpaces_rest]
  cases hc : Libc.wcstold (spaces p.rest) with
  | none => exact takes_some hle
  | some c =>
    have hlt := Libc.wcstold_length hc
    dsimp only
    split
    · exact takes_some hle
    cases hr : c.rest with
    | nil =>
      rw [hr] at hlt
      exact takes_some (hlt.trans_le hle)
    | cons d u =>
      rw [hr] at hlt
      dsimp only
      split
      · unfold parseExponent
        dsimp only
        split
        · exact takes_some hle
        · split
          · refine takes_some ?_
            simp only [List.length_drop, List.length_cons, Bool.toNat_true] at hlt ⊢
            omega
          · exact takes_none
      · exact takes_some (hlt.trans_le hle)

theorem matchString_takes (p : JSONParser) {w : Text} (hw : w ≠ []) :
    Takes p.rest.length (some (p.matchString w)) := by
  have hle := Json.spaces_length p.rest
  rcases matchString_cases p w with ⟨r, hr, hword⟩ | ⟨-, hword⟩
  · rw [hword]
    rw [hr, List.length_append] at hle
    have hpos := List.length_pos_iff.2 hw
    refine takes_some ?_
    simp only [Bool.toNat_true]
    omega
  · rw [hword]
    exact takes_some hle

theorem skipScalar_takes (p : JSONParser) : Takes p.rest.length (p.skipScalar lib) := by
  unfold skipScalar skipLiteral
  refine (parseJSONString_takes p).orElse fun q hq => ?_
  refine ((parseJSONNumber_takes q).mono hq).orElse fun q hq => ?_
  refine ((matchString_takes q (by simp)).mono hq).orElse fun q hq => ?_
  refine ((matchString_takes q (by simp)).mono hq).orElse fun q hq => ?_
  exact (matchString_takes q (by simp)).mono hq

theorem skipBracketsWith_takes {start close : Nat} {parts : JSONParser → Option Found}
    (hparts : ∀ q : JSONParser, q.rest.length < p.rest.length → Takes q.rest.length (parts q)) :
    Takes p.rest.length (p.skipBracketsWith start close parts) := by
  by_cases hopen : ∃ u, spaces p.rest = start :: u
  · obtain ⟨u, hu⟩ := hopen
    have hlt := Json.length_of_spaces hu
    rcases @skipBracketsWith_of_eq _ _ parts start close hu with ⟨r, hr, hskip⟩ | ⟨-, hskip⟩
    · rw [hskip]
      exact takes_some ((Json.length_of_spaces hr).trans hlt)
    · have hlt' := (Json.spaces_length u).trans_lt hlt
      rw [hskip]
      exact ((hparts { p with rest := spaces u } hlt').mono hlt'.le).orReset (le_refl _)
  · rw [skipBracketsWith_of_ne fun u hu => hopen ⟨u, hu⟩]
    exact takes_some (le_refl _)

theorem rest_takes {close : Nat} (hnext : ∀ q : JSONParser, Takes q.rest.length (next q)) :
    Takes p.rest.length (if p.parseComma.1 then next p.parseComma.2
      else some (p.parseComma.2.skipJSONSpaces.parseChar close)) := by
  have hcomma := skipChar_length p 0x2C
  have hle : p.parseComma.2.rest.length ≤ p.rest.length := (Nat.le_add_right _ _).trans hcomma
  split
  · exact (hnext _).mono hle
  · exact (skipChar_takes _ close).mono hle

theorem skip_takes {fuel : Nat} {kind : Kind} (p : JSONParser) :
    Takes p.rest.length (skip lib fuel kind p) := by
  induction fuel generalizing kind p with
  | zero => exact takes_some (le_refl _)
  | succ fuel ih =>
    cases kind with
    | name => exact parseJSONString_takes p
    | value =>
      refine (skipBracketsWith_takes fun q _ => ih q).orElse fun q hq => ?_
      refine ((skipBracketsWith_takes fun q _ => ih q).mono hq).orElse fun q hq => ?_
      exact (skipScalar_takes q).mono hq
    | members =>
      have hname := (Nat.le_add_right _ _).trans (parseJSONString_length p)
      unfold skip
      dsimp only
      split
      · have hcolon := (Nat.le_add_right _ _).trans
          (skipChar_length p.parseJSONString.2 0x3A)
        split
        · have hvalue := @ih .value p.parseJSONString.2.parseDoubleDot.2
          split
          · exact takes_none
          · rename_i q hv
            exact takes_some ((hvalue _ _ hv).trans (hcolon.trans hname))
          · rename_i q hv
            have hq := (Nat.le_add_right _ _).trans (hvalue _ _ hv)
            exact (rest_takes fun q => ih q).mono (hq.trans (hcolon.trans hname))
        · exact takes_some (hcolon.trans hname)
      · exact takes_some hname
    | elements =>
      have hvalue := @ih .value p
      unfold skip
      split
      · exact takes_none
      · rename_i q hv
        exact takes_some (hvalue _ _ hv)
      · rename_i q hv
        have hq := (Nat.le_add_right _ _).trans (hvalue _ _ hv)
        exact (rest_takes fun q => ih q).mono hq

theorem skipBracketsWith_congr {start close : Nat} {parts parts' : JSONParser → Option Found}
    (h : ∀ q : JSONParser, q.rest.length < p.rest.length → parts q = parts' q) :
    p.skipBracketsWith start close parts = p.skipBracketsWith start close parts' := by
  unfold skipBracketsWith
  dsimp only
  split
  · rename_i hstart
    have hopen := skipChar_length p start
    have hclose := skipChar_length (p.skipJSONSpaces.parseChar start).2 close
    rw [hstart, Bool.toNat_true] at hopen
    split
    · rfl
    · rw [h _ (((Nat.le_add_right _ _).trans hclose).trans_lt hopen)]
  · rfl

theorem orElse_congr {next next' : JSONParser → Option Found}
    (h : Takes n found) (hnext : ∀ q : JSONParser, q.rest.length ≤ n → next q = next' q) :
    orElse found next = orElse found next' := by
  rcases found with _ | ⟨_ | _, q⟩
  · rfl
  · exact hnext q (h _ _ rfl)
  · rfl

/-- The fuel that something of a kind needs. -/
def need (t : Text) : Kind → Nat
  | .name => 1
  | .value => 2 * t.length + 1
  | _ => 2 * t.length + 2

end Termination

end McuMediaServer.JSONParser
