import McuMediaServer.Json.Skipping

/-!
# The JSON scanner

What `SkipJSONValue` makes of a text is decided where strings and numbers are met in it: `skip_exact`
takes what is right there to the objects and arrays around them, and `scannerRight_iff` says exactly
when the parser is right everywhere.
-/

namespace McuMediaServer.JSONParser

open Json (Text Kind spaces literals Spells Reads Met opens spaces_spaces reads_name_iff
  reads_string_iff reads_object_iff reads_array_iff reads_scalar_iff reads_members_iff
  reads_elements_iff)

variable {lib : Libc.Numbers} {p : JSONParser} {t u : Text}

/-! ## Everything that is met -/

/-- What has to be right where something of a kind is met: the string that comes next, and, where it
is a value, the number. -/
def RightAt (e : Bool) : Kind × Text → Prop
  | (.name, t) => Known t
  | (.value, t) => Known t ∧ NumberOk e (spaces t)
  | _ => True

theorem Exact.congr {kind kind' : Kind} {t t' : Text} {found : Option Found}
    (h : Exact kind t found) (hreads : ∀ r, Reads kind' t' r ↔ Reads kind t r) :
    Exact kind' t' found := by
  rcases found with _ | ⟨_ | _, q⟩
  · exact h
  · exact fun r hr => h r ((hreads r).1 hr)
  · exact fun r => (hreads r).trans (h r)

theorem exact_nested {found : Option Found} {next : JSONParser → Option Found} {kind : Kind}
    {ini : Text} (h : Exact kind u found)
    (hreads : ∀ r, Reads .value t r ↔ Reads kind u r)
    (hnext : ∀ q : JSONParser, q.rest = ini → ∃ q', next q = some (false, q')) :
    Exact .value t (orElse (orReset ini found) next) := by
  rcases found with _ | ⟨_ | _, q⟩
  · exact h
  · obtain ⟨q', hq'⟩ := hnext { q with rest := ini } rfl
    change Exact _ _ (next { q with rest := ini })
    rw [hq']
    exact fun r hr => h r ((hreads r).1 hr)
  · exact fun r => (hreads r).trans (h r)

theorem no_value_of_bracket {r r' : Text} (h : spaces t = 0x5D :: r) : ¬Reads .value t r' := by
  have hopen : ¬opens (spaces t) := by
    rintro ⟨c, u, hc, hu⟩
    rw [h] at hu
    cases hu
    rcases hc with hc | hc | hc <;> cases hc
  rw [reads_scalar_iff hopen, h]
  rintro (hr | ⟨w, hw, hr⟩)
  · rcases Json.number_start hr with hr | hr <;> cases hr
  · rcases Json.literal_start hw hr with hr | hr | hr <;> cases hr

theorem value_exact {e : Bool} {members elements : JSONParser → Option Found}
    (hp : spaces p.rest = spaces t) (he : p.einval = true → e = true)
    (hright : RightAt e (.value, t))
    (hmembers : ∀ u, spaces t = 0x7B :: u → Exact .members u (members { p with rest := spaces u }))
    (helements : ∀ u, spaces t = 0x5B :: u →
      Exact .elements u (elements { p with rest := spaces u })) :
    Exact .value t (orElse (p.skipObjectWith members) fun p =>
      orElse (p.skipArrayWith elements) fun p => p.skipScalar lib) := by
  by_cases hbrace : ∃ u, spaces t = 0x7B :: u
  · obtain ⟨u, hu⟩ := hbrace
    rw [skipObjectWith_eq]
    rcases @skipBracketsWith_of_eq _ _ members 0x7B 0x7D (hp.trans hu) with
      ⟨r, hr, hskip⟩ | ⟨hne, hskip⟩
    · rw [hskip, orElse_true]
      intro r'
      rw [reads_object_iff hu, hr]
      constructor
      · rintro (h | h)
        · cases h
          rfl
        · obtain ⟨_, _, _, hname, -⟩ := reads_members_iff.1 h
          obtain ⟨_, _, hquote, -⟩ := reads_name_iff.1 hname
          rw [hr] at hquote
          cases hquote
      · rintro rfl
        exact .inl rfl
    · rw [hskip]
      refine exact_nested (hmembers u hu) ?_ ?_
      · intro r
        rw [reads_object_iff hu]
        exact or_iff_right (hne r)
      · intro q hq
        have hopen : spaces q.rest = 0x7B :: u := by rw [hq, hp, hu]
        have hne' : ∀ v, spaces q.rest ≠ 0x5B :: v := by
          intro v hv
          rw [hopen] at hv
          cases hv
        rw [skipArrayWith_eq, skipBracketsWith_of_ne hne', orElse_false]
        exact skipScalar_other (.inl rfl) hopen
  rw [skipObjectWith_eq, skipBracketsWith_of_ne fun u hu => hbrace ⟨u, hp ▸ hu⟩, orElse_false]
  by_cases hbracket : ∃ u, spaces t = 0x5B :: u
  · obtain ⟨u, hu⟩ := hbracket
    rw [skipArrayWith_eq]
    rcases @skipBracketsWith_of_eq _ _ elements 0x5B 0x5D (hp.trans hu) with
      ⟨r, hr, hskip⟩ | ⟨hne, hskip⟩
    · rw [hskip, orElse_true]
      intro r'
      rw [reads_array_iff hu, hr]
      constructor
      · rintro (h | h)
        · cases h
          rfl
        · obtain ⟨_, hvalue, -⟩ := reads_elements_iff.1 h
          exact absurd hvalue (no_value_of_bracket hr)
      · rintro rfl
        exact .inl rfl
    · rw [hskip]
      refine exact_nested (helements u hu) ?_ ?_
      · intro r
        rw [reads_array_iff hu]
        exact or_iff_right (hne r)
      · intro q hq
        have hopen : spaces q.rest = 0x5B :: u := by rw [hq, hp, hu]
        exact skipScalar_other (.inr rfl) hopen
  rw [skipArrayWith_eq, skipBracketsWith_of_ne fun u hu => hbracket ⟨u, hp ▸ hu⟩, orElse_false]
  by_cases hquote : ∃ u, spaces t = 0x22 :: u
  · obtain ⟨u, hu⟩ := hquote
    have hstring := parseJSONString_exact hp hright.1
    have hreads : ∀ r, Reads .value t r ↔ Reads .name t r := by
      intro r
      rw [reads_string_iff hu, reads_name_iff, hu]
      simp
    rcases @skipScalar_string lib _ _ (hp.trans hu) with ⟨p', hp', hskip⟩ | ⟨p', p'', hp', hskip⟩
    · rw [hp'] at hstring
      rw [hskip]
      exact hstring.congr hreads
    · rw [hp'] at hstring
      rw [hskip]
      exact fun r hr => hstring r ((hreads r).1 hr)
  refine skipScalar_exact ?_ hright.2 hp he
  rintro ⟨c, u, rfl | rfl | rfl, hu⟩
  · exact hquote ⟨u, hu⟩
  · exact hbrace ⟨u, hu⟩
  · exact hbracket ⟨u, hu⟩

theorem exact_rest {kind : Kind} {close : Nat} {next : JSONParser → Option Found}
    (hclose : close ≠ 0x2C)
    (hreads : ∀ r, Reads kind t r ↔
      spaces p.rest = close :: r ∨ ∃ y, spaces p.rest = 0x2C :: y ∧ Reads kind y r)
    (hnext : ∀ y, spaces p.rest = 0x2C :: y → Exact kind y (next { p with rest := y })) :
    Exact kind t (if p.parseComma.1 then next p.parseComma.2
      else some (p.parseComma.2.skipJSONSpaces.parseChar close)) := by
  unfold parseComma
  rcases skipChar_cases p 0x2C with ⟨y, hy, hcomma⟩ | ⟨hne, hcomma⟩
  · rw [hcomma, if_pos rfl]
    refine (hnext y hy).congr ?_
    intro r
    rw [hreads, hy]
    constructor
    · rintro (h | ⟨y', hy', h⟩)
      · cases h
        exact absurd rfl hclose
      · cases hy'
        exact h
    · exact fun h => .inr ⟨y, rfl, h⟩
  · have hreads' : ∀ r, Reads kind t r ↔ spaces p.rest = close :: r := by
      intro r
      rw [hreads]
      refine or_iff_left ?_
      rintro ⟨y, hy, -⟩
      exact hne y hy
    rw [hcomma, if_neg Bool.false_ne_true]
    rcases skipChar_cases p.skipJSONSpaces close with ⟨r, hr, hend⟩ | ⟨hne', hend⟩
    · rw [hend]
      rw [skipJSONSpaces_rest, spaces_spaces] at hr
      intro r'
      rw [hreads', hr]
      constructor
      · intro h
        cases h
        rfl
      · rintro rfl
        rfl
    · rw [hend]
      rw [skipJSONSpaces_rest, spaces_spaces] at hne'
      exact fun r hr => hne' r ((hreads' r).1 hr)

theorem skip_exact {e : Bool} {fuel : Nat} {kind : Kind} (hfuel : need t kind ≤ fuel)
    (hp : spaces p.rest = spaces t) (he : p.einval = true → e = true)
    (hright : ∀ place, Met (kind, t) place → RightAt e place) :
    Exact kind t (skip lib fuel kind p) := by
  induction fuel generalizing kind t p with
  | zero => cases kind <;> simp [need] at hfuel
  | succ fuel ih =>
    have hhere := hright _ .refl
    have hnext : ∀ {kind' u}, Json.Next (kind, t) (kind', u) →
        ∀ place, Met (kind', u) place → RightAt e place :=
      fun hn place hm => hright place (hm.head hn)
    cases kind with
    | name => exact parseJSONString_exact hp hhere
    | value =>
      refine value_exact hp he hhere ?_ ?_
      · intro u hu
        have hlt := Json.length_of_spaces hu
        refine ih ?_ (spaces_spaces u) he (hnext (.object hu))
        simp only [need] at hfuel ⊢
        omega
      · intro u hu
        have hlt := Json.length_of_spaces hu
        refine ih ?_ (spaces_spaces u) he (hnext (.array hu))
        simp only [need] at hfuel ⊢
        omega
    | members =>
      have hname := parseJSONString_exact hp (hright _ (.single .name))
      have hname_einval : p.parseJSONString.2.einval = true → e = true := by
        rw [parseJSONString_einval]
        exact he
      unfold skip
      dsimp only
      generalize p.parseJSONString = name at hname hname_einval
      rcases name with ⟨_ | _, p₁⟩
      · rw [if_neg Bool.false_ne_true]
        intro r hr
        obtain ⟨u, _, _, hu, -⟩ := reads_members_iff.1 hr
        exact hname u hu
      rw [if_pos rfl]
      have hu := (hname p₁.rest).2 rfl
      unfold parseDoubleDot
      rcases skipChar_cases p₁ 0x3A with ⟨w, hw, hcolon⟩ | ⟨hne, hcolon⟩
      swap
      · rw [hcolon, if_neg Bool.false_ne_true]
        intro r hr
        obtain ⟨u, w, _, hu', hw, -⟩ := reads_members_iff.1 hr
        rw [(hname u).1 hu'] at hw
        exact hne w hw
      rw [hcolon, if_pos rfl]
      have hlt : w.length < t.length := (Json.length_of_spaces hw).trans hu.length
      have hvalue : Exact .value w (skip lib fuel .value { p₁ with rest := w }) := ih
        (by simp only [need] at hfuel ⊢; omega) rfl hname_einval (hnext (.memberValue hu hw))
      have hkeeps := @skip_keeps lib { p₁ with rest := w } e fuel .value hname_einval
      have hreads : ∀ r, Reads .members t r ↔ ∃ x, Reads .value w x ∧
          (spaces x = 0x7D :: r ∨ ∃ y, spaces x = 0x2C :: y ∧ Reads .members y r) := by
        intro r
        rw [reads_members_iff]
        constructor
        · rintro ⟨u, w', x, hu', hw', hx, h⟩
          rw [(hname u).1 hu', hw] at hw'
          cases hw'
          exact ⟨x, hx, h⟩
        · rintro ⟨x, hx, h⟩
          exact ⟨_, w, x, hu, hw, hx, h⟩
      dsimp only
      generalize skip lib fuel .value { p₁ with rest := w } = value at hvalue hkeeps
      rcases value with _ | ⟨_ | _, p₂⟩
      · exact hvalue
      · intro r hr
        obtain ⟨x, hx, -⟩ := (hreads r).1 hr
        exact hvalue x hx
      have hx := (hvalue p₂.rest).2 rfl
      refine exact_rest (by decide) ?_ ?_
      · intro r
        rw [hreads]
        constructor
        · rintro ⟨x, hx', h⟩
          rwa [(hvalue x).1 hx'] at h
        · exact fun h => ⟨_, hx, h⟩
      · intro y hy
        have hlt' := ((Json.length_of_spaces hy).trans hx.length).trans hlt
        refine ih ?_ rfl (hkeeps true p₂ rfl) (hnext (.member hu hw hx hy))
        simp only [need] at hfuel ⊢
        omega
    | elements =>
      have hvalue : Exact .value t (skip lib fuel .value p) := ih
        (by simp only [need] at hfuel ⊢; omega) hp he (hnext .elementValue)
      have hkeeps := @skip_keeps lib p e fuel .value he
      unfold skip
      generalize skip lib fuel .value p = value at hvalue hkeeps
      rcases value with _ | ⟨_ | _, p₂⟩
      · exact hvalue
      · intro r hr
        obtain ⟨x, hx, -⟩ := reads_elements_iff.1 hr
        exact hvalue x hx
      have hx := (hvalue p₂.rest).2 rfl
      refine exact_rest (by decide) ?_ ?_
      · intro r
        rw [reads_elements_iff]
        constructor
        · rintro ⟨x, hx', h⟩
          rwa [(hvalue x).1 hx'] at h
        · exact fun h => ⟨_, hx, h⟩
      · intro y hy
        have hlt := (Json.length_of_spaces hy).trans hx.length
        refine ih ?_ rfl (hkeeps true p₂ rfl) (hnext (.element hx hy))
        simp only [need] at hfuel ⊢
        omega

/-! ## The parser as a whole -/

/-- A string is found exactly where JSON has one, with its value and its end. -/
def StringRight (t : Text) : Prop :=
  ∀ p : JSONParser, p.rest = t → ∀ v r,
    (∃ p', p.parseJSONString = (true, p') ∧ p'.value = v ∧ p'.rest = r) ↔
      ∃ u, spaces t = 0x22 :: u ∧ Spells Json.escape u v r

/-- What is met is skipped exactly, whatever `errno` is, except that it is `EINVAL` only if it may
be. -/
def SkippedRight (lib : Libc.Numbers) (e : Bool) (place : Kind × Text) : Prop :=
  ∀ p : JSONParser, p.rest = place.2 → (p.einval = true → e = true) →
    Exact place.1 place.2 (skip lib (enough place.2) place.1 p)

theorem stringRight_iff : StringRight t ↔ ∀ u, spaces t = 0x22 :: u → EscapesPass isSimple u := by
  have hfound : ∀ {p : JSONParser} {u}, spaces p.rest = 0x22 :: u → ∀ v r,
      (∃ p', p.parseJSONString = (true, p') ∧ p'.value = v ∧ p'.rest = r) ↔
        stringChars u = some (v, r) := by
    intro p u hu v r
    rw [parseJSONString_of_eq hu]
    cases hs : stringChars u with
    | none => simp
    | some found => simp [Prod.ext_iff]
  constructor
  · intro h u hu
    refine stringChars_right_iff.1 ?_
    intro v r
    have hp : spaces ({ rest := t } : JSONParser).rest = 0x22 :: u := hu
    rw [← hfound hp, h _ rfl, hu]
    simp
  · rintro h p rfl v r
    rcases skipChar_cases p 0x22 with ⟨u, hu, -⟩ | ⟨hne, -⟩
    · rw [hfound hu, stringChars_right_iff.2 (h u hu), hu]
      simp
    · rw [parseJSONString_of_ne hne]
      simp [hne]

theorem skip_scalar {fuel : Nat} (hbrace : ∀ u, spaces p.rest ≠ 0x7B :: u)
    (hbracket : ∀ u, spaces p.rest ≠ 0x5B :: u) :
    skip lib (fuel + 1) .value p = p.skipScalar lib := by
  unfold skip
  rw [skipObjectWith_eq, skipBracketsWith_of_ne hbrace, orElse_false, skipArrayWith_eq,
    skipBracketsWith_of_ne hbracket, orElse_false]

theorem rightAt_of_skipped {e : Bool} {place : Kind × Text} (h : SkippedRight lib e place) :
    RightAt e place := by
  obtain ⟨kind, t⟩ := place
  cases kind with
  | members => trivial
  | elements => trivial
  | name => exact known_of_exact (h { rest := t } rfl (by simp))
  | value =>
    refine ⟨?_, ?_⟩
    · intro u hu
      have hvalue := h { rest := t } rfl (by simp)
      have hother : ∀ c, c ≠ 0x22 → ∀ v, spaces ({ rest := t } : JSONParser).rest ≠ c :: v := by
        intro c hc v hv
        rw [hu] at hv
        cases hv
        exact hc rfl
      have hreads : ∀ r, Reads .name t r ↔ Reads .value t r := by
        intro r
        rw [reads_string_iff hu, reads_name_iff, hu]
        simp
      dsimp only [enough] at hvalue
      rw [skip_scalar (hother _ (by decide)) (hother _ (by decide))] at hvalue
      refine known_of_exact ?_ u hu
      rcases @skipScalar_string lib { rest := t } _ hu with
        ⟨p', hp', hskip⟩ | ⟨p', p'', hp', hskip⟩
      · rw [hskip] at hvalue
        rw [hp']
        exact hvalue.congr hreads
      · rw [hskip] at hvalue
        rw [hp']
        exact fun r hr => hvalue r ((hreads r).1 hr)
    · by_cases hopen : opens (spaces t)
      · have hnone := Libc.wcstold_of_opens hopen
        unfold NumberOk
        cases hn : Json.number (spaces t) with
        | none => exact hnone
        | some r =>
          obtain ⟨c, hc, -⟩ := Libc.wcstold_of_number hn
          rw [hnone] at hc
          cases hc
      · refine @numberOk_of_exact lib _ _ hopen ?_
        rintro p rfl he
        have hvalue := h p rfl he
        dsimp only [enough] at hvalue
        rwa [skip_scalar (fun u hu => hopen ⟨_, _, .inr (.inl rfl), hu⟩)
          (fun u hu => hopen ⟨_, _, .inr (.inr rfl), hu⟩)] at hvalue

/-- For every text, the parser is right about a string if and only if all its escapes are simple
ones, and it is right about everything that is met in a value if and only if all escapes there are
those of JSON, and `wcstold` and JSON agree about the numbers. -/
theorem scannerRight_iff (lib : Libc.Numbers) (text : Text) (e : Bool) :
    (StringRight text ↔ ∀ u, spaces text = 0x22 :: u → EscapesPass isSimple u) ∧
      ((∀ place, Met (.value, text) place → SkippedRight lib e place) ↔
        ∀ place, Met (.value, text) place → RightAt e place) := by
  refine ⟨stringRight_iff, ?_⟩
  constructor
  · exact fun h place hmet => rightAt_of_skipped (h place hmet)
  · rintro h ⟨kind, t⟩ hmet p hp he
    refine skip_exact ?_ (congrArg spaces hp) he fun place hplace => h place (hmet.trans hplace)
    cases kind <;> simp only [need, enough] <;> omega

/-- The string of `\u0041` is a question mark and a one to the parser, and in the array `[1e]` it
leaves the text. -/
theorem not_scannerRight :
    ¬StringRight [0x22, 0x5C, 0x75, 0x30, 0x30, 0x34, 0x31, 0x22] ∧
      ∀ lib, ¬SkippedRight lib false (.value, [0x5B, 0x31, 0x65, 0x5D]) := by
  refine ⟨?_, ?_⟩
  · intro h
    have hchars : Spells Json.escape [0x5C, 0x75, 0x30, 0x30, 0x34, 0x31, 0x22] [0x41] [] :=
      .escape rfl (.close [])
    obtain ⟨p', hp', hv, -⟩ := (h { rest := _ } rfl [0x41] []).2 ⟨_, rfl, hchars⟩
    have hvalue : [0x3F, 0x31] = p'.value := congrArg (fun found => found.2.value) hp'
    rw [hv] at hvalue
    cases hvalue
  · intro lib h
    exact h { rest := _ } rfl (by simp)

end McuMediaServer.JSONParser
