import McuMediaServer.Http.Printing

/-!
# Printing a content type and parsing it again

A content type that was parsed has tokens for its names, and values that are tokens or the inside of
quoted strings. All printers print the values without quotes, and `ToString` prints no semicolon
between two names, so what is parsed again is the same exactly for one name whose values are tokens
(`ContentType.roundTrips_iff`).
-/

namespace McuMediaServer

open StringParser (of Found Behind)
open Parsing Printed

/-- All characters are those of a token. -/
def Plain (s : Chars) : Prop := ∀ c ∈ s, StringParser.isTokenChar c = true

/-- No quote but behind a backslash, when the text follows a character. -/
def escapedFrom : Nat → Chars → Prop
  | _, [] => True
  | prev, c :: s => (c = 0x22 → prev = 0x5C) ∧ escapedFrom c s

/-- No quote but behind a backslash. -/
def Unquoted (s : Chars) : Prop := escapedFrom 0 s

variable {isKind : Nat → Bool}

section Characters

variable {s t : Chars} {c : Nat}

theorem ne_of_isTokenChar (h : StringParser.isTokenChar c = true) :
    32 < c ∧ c ∉ StringParser.separators := by
  rw [StringParser.isTokenChar, Bool.and_eq_true, Bool.and_eq_true, decide_eq_true_eq,
    Bool.not_eq_true', List.contains_eq_mem, decide_eq_false_iff_not] at h
  exact ⟨h.1.1, h.2⟩

theorem escapedFrom_of_unquoted (h : Unquoted s) (prev : Nat) : escapedFrom prev s := by
  cases s with
  | nil => trivial
  | cons c s => exact ⟨fun hc => absurd (h.1 hc) (by decide), h.2⟩

theorem escapedFrom_append {prev : Nat} (hs : escapedFrom prev s) (ht : Unquoted t) :
    escapedFrom prev (s ++ t) := by
  induction s generalizing prev with
  | nil => exact escapedFrom_of_unquoted ht prev
  | cons c s ih => exact ⟨hs.1, ih hs.2⟩

theorem Unquoted.append (hs : Unquoted s) (ht : Unquoted t) : Unquoted (s ++ t) :=
  escapedFrom_append hs ht

theorem Unquoted.tail (h : Unquoted (c :: s)) (hc : c ≠ 0x5C) : Unquoted s := by
  cases s with
  | nil => trivial
  | cons d s => exact ⟨fun hd => absurd (h.2.1 hd) hc, h.2.2⟩

theorem Unquoted.dropWhile (hkind : isKind 0x5C = false) (h : Unquoted s) :
    Unquoted (s.dropWhile isKind) := by
  induction s with
  | nil => exact h
  | cons c s ih =>
    rw [List.dropWhile_cons]
    split
    case isTrue hc =>
      refine ih (h.tail ?_)
      rintro rfl
      rw [hkind] at hc
      cases hc
    case isFalse => exact h

theorem Plain.unquoted (h : Plain s) : Unquoted s := by
  have hprev : ∀ prev, escapedFrom prev s := by
    induction s with
    | nil => exact fun _ => trivial
    | cons c s ih =>
      intro prev
      have hc := ne_of_isTokenChar (h c List.mem_cons_self)
      refine ⟨fun hquote => absurd ?_ hc.2, ih (fun d hd => h d (List.mem_cons_of_mem _ hd)) c⟩
      rw [hquote]
      decide
  exact hprev 0

theorem Plain.not_mem (h : Plain s) {c : Nat} (hc : StringParser.isTokenChar c = false) : c ∉ s := by
  intro hmem
  rw [h c hmem] at hc
  cases hc

end Characters

/-! ## What is parsed -/

theorem quotedChars_unquoted {isText : Nat → Bool} (hnul : isText 0 = false) {left : Nat}
    {t chars : Chars} (h : StringParser.quotedChars isText left t = some chars) :
    Unquoted chars ∧ 0 ∉ chars := by
  have hcons : ∀ {c : Nat} {s : Chars}, c ≠ 0x22 → c ≠ 0 → Unquoted s ∧ 0 ∉ s →
      Unquoted (c :: s) ∧ 0 ∉ c :: s := by
    rintro c s hquote hzero ⟨hs, hmem⟩
    refine ⟨⟨fun hc => absurd hc hquote, escapedFrom_of_unquoted hs c⟩, ?_⟩
    rw [List.mem_cons, not_or]
    exact ⟨hzero.symm, hmem⟩
  have hnil : Unquoted [] ∧ 0 ∉ ([] : Chars) := ⟨trivial, List.not_mem_nil⟩
  have htext : ∀ {c : Nat}, isText c = true → c ≠ 0 := by
    rintro c hc rfl
    rw [hnul] at hc
    cases hc
  fun_induction StringParser.quotedChars isText left t generalizing chars with
  | case1 =>
    cases h
    exact hnil
  | case2 => cases h
  | case3 c t =>
    cases h
    split
    case isTrue hc => exact hcons hc.1 (htext hc.2) hnil
    case isFalse => exact hnil
  | case4 =>
    cases h
    exact hnil
  | case5 => cases h
  | case6 left rest _ ih =>
    obtain ⟨chars', hchars, rfl⟩ := Option.map_eq_some_iff.1 h
    obtain ⟨hunquoted, hmem⟩ := ih hchars
    refine ⟨⟨fun hc => absurd hc (by decide), fun _ => rfl, escapedFrom_of_unquoted hunquoted _⟩, ?_⟩
    simp only [List.mem_cons, not_or]
    exact ⟨by decide, by decide, hmem⟩
  | case7 left d rest _ hquote htext' ih =>
    obtain ⟨chars', hchars, rfl⟩ := Option.map_eq_some_iff.1 h
    exact hcons hquote (htext htext') (ih hchars)
  | case8 =>
    cases h
    exact hnil
  | case9 left c rest hquote _ htext' ih =>
    obtain ⟨chars', hchars, rfl⟩ := Option.map_eq_some_iff.1 h
    exact hcons hquote (htext htext') (ih hchars)
  | case10 =>
    cases h
    exact hnil

/-- A name and a value that have been parsed. -/
structure Entry (e : Chars × Chars) : Prop where
  name_ne : e.1 ≠ []
  name : Plain e.1
  unquoted : Unquoted e.2
  nul : 0 ∉ e.2

theorem parseChars_value {p q : StringParser} (h : p.parseChars isKind = some (true, q)) :
    q.value ≠ [] ∧ ∀ c ∈ q.value, isKind c = true := by
  obtain ⟨chars, hchars, heq⟩ := Option.map_eq_some_iff.1 h
  split at heq
  case isTrue => cases heq
  case isFalse hne =>
    cases heq
    refine ⟨hne, ?_⟩
    have hall : ∀ {left : Nat} {t chars : Chars}, StringParser.scanChars isKind left t = some chars →
        ∀ c ∈ chars, isKind c = true := by
      intro left t chars h
      fun_induction StringParser.scanChars isKind left t generalizing chars with
      | case1 =>
        cases h
        exact fun c hc => absurd hc List.not_mem_nil
      | case2 => cases h
      | case3 left c t hc ih =>
        obtain ⟨chars', hchars, rfl⟩ := Option.map_eq_some_iff.1 h
        intro d hd
        rcases List.mem_cons.1 hd with rfl | hd
        · exact hc
        · exact ih hchars d hd
      | case4 =>
        cases h
        exact fun c hc => absurd hc List.not_mem_nil
    exact hall hchars

theorem skipChars_value {p q : StringParser} (h : p.skipChars isKind = some q) : q.value = p.value := by
  obtain ⟨chars, -, rfl⟩ := Option.map_eq_some_iff.1 h
  rfl

theorem parseQuotedString_value {p q : StringParser}
    (h : p.parseQuotedString StringParser.isTextChar = some (true, q)) :
    Unquoted q.value ∧ 0 ∉ q.value := by
  rw [StringParser.parseQuotedString] at h
  split at h
  · cases h
  · cases h
  · split at h
    · cases h
    · rename_i value hvalue
      split at h
      · cases h
      · cases h
      · cases h
        exact quotedChars_unquoted rfl hvalue

theorem parseParameter_entry {p q : StringParser} {entry : Chars × Chars}
    (h : Parameters.parseParameter p = some (some (entry, q))) : Entry entry := by
  obtain ⟨p₁, -, h⟩ := Option.bind_eq_some_iff.1 h
  obtain ⟨p₂, h₂, h⟩ := Parameters.exists_of_required h
  obtain ⟨p₃, h₃, h⟩ := Option.bind_eq_some_iff.1 h
  obtain ⟨⟨found, p₄⟩, -, h⟩ := Option.bind_eq_some_iff.1 h
  obtain ⟨hne, hname⟩ := parseChars_value h₂
  rw [← skipChars_value h₃] at hne hname
  dsimp only at h
  split at h
  · obtain ⟨p₅, -, h⟩ := Option.bind_eq_some_iff.1 h
    obtain ⟨⟨found', p₆⟩, h₆, h⟩ := Option.bind_eq_some_iff.1 h
    dsimp only at h
    split at h
    case isTrue hfound =>
      cases h
      rw [hfound] at h₆
      have hvalue : Plain q.value := (parseChars_value h₆).2
      exact ⟨hne, hname, hvalue.unquoted, hvalue.not_mem rfl⟩
    case isFalse =>
      obtain ⟨p₇, h₇, h⟩ := Parameters.exists_of_required h
      cases h
      obtain ⟨hunquoted, hnul⟩ := parseQuotedString_value h₇
      exact ⟨hne, hname, hunquoted, hnul⟩
  · cases h
    exact ⟨hne, hname, trivial, List.not_mem_nil⟩

/-- Parameters that have been parsed: in the order of their names, each with a value at least. -/
structure Parameters.WellFormed (params : Values) : Prop where
  sorted : SortedMap.Sorted params
  values_ne : ∀ e ∈ params, e.2 ≠ []
  entry : ∀ e ∈ params, ∀ value ∈ e.2, Entry (e.1, value)

theorem Parameters.WellFormed.push {params : Values} (h : Parameters.WellFormed params)
    {entry : Chars × Chars} (hentry : Entry entry) :
    Parameters.WellFormed (SortedMap.push entry.1 entry.2 params) := by
  refine ⟨h.sorted.set _ _, fun e he => ?_, fun e he value hvalue => ?_⟩
  · rcases SortedMap.mem_set he with rfl | he
    · exact List.append_ne_nil_of_right_ne_nil _ (List.cons_ne_nil _ _)
    · exact h.values_ne e he
  · rcases SortedMap.mem_set he with rfl | he
    · rcases List.mem_append.1 hvalue with hold | hnew
      · cases hget : SortedMap.get? entry.1 params with
        | none =>
          rw [hget] at hold
          exact absurd hold List.not_mem_nil
        | some values =>
          rw [hget] at hold
          exact h.entry _ (SortedMap.mem_of_get? hget) value hold
      · rw [List.mem_singleton.1 hnew]
        exact hentry
    · exact h.entry e he value hvalue

theorem parseLoop_induct {C : Values → StringParser → Prop} {D : Values → Prop}
    (hend : ∀ {params p}, C params p → D params)
    (hstep : ∀ {params p q entry r}, C params p → p.parseChar 0x3B = some (true, q) →
      Parameters.parseParameter q = some (some (entry, r)) →
      C (SortedMap.push entry.1 entry.2 params) r)
    {params params' : Values} {p : StringParser} (hC : C params p)
    (h : Parameters.parseLoop params p = some (some params')) : D params' := by
  induction hn : p.left using Nat.strong_induction_on generalizing params p with
  | _ n ih =>
    subst hn
    rw [Parameters.parseLoop] at h
    split at h
    · cases h
    · cases h
      exact hend hC
    · rename_i q hchar
      split at h
      · cases h
      · cases h
      · rename_i entry r hparam
        have hshort := (Parameters.behind_parseParameter hparam).left_le.trans_lt
          (StringParser.left_parseChar hchar)
        exact ih _ hshort (hstep hC hchar hparam) h rfl

theorem wellFormed_parse {p : StringParser} {params : Values}
    (h : Parameters.parse p = some (some params)) : Parameters.WellFormed params := by
  obtain ⟨q, -, h⟩ := Option.bind_eq_some_iff.1 h
  refine parseLoop_induct (C := fun params _ => Parameters.WellFormed params) (fun h => h)
    (fun h _ hparam => h.push (parseParameter_entry hparam)) ?_ h
  exact ⟨.nil, fun e he => absurd he List.not_mem_nil, fun e he => absurd he List.not_mem_nil⟩

/-! ## Parsing a text without opening quotes -/

/-- All values are tokens, or empty. -/
def PlainValues (params : Values) : Prop := ∀ e ∈ params, ∀ value ∈ e.2, Plain value

theorem PlainValues.push {params : Values} (h : PlainValues params) {name value : Chars}
    (hvalue : Plain value) : PlainValues (SortedMap.push name value params) := by
  intro e he v hv
  rcases SortedMap.mem_set he with rfl | he
  · rcases List.mem_append.1 hv with hold | hnew
    · cases hget : SortedMap.get? name params with
      | none =>
        rw [hget] at hold
        exact absurd hold List.not_mem_nil
      | some values =>
        rw [hget] at hold
        exact h _ (SortedMap.mem_of_get? hget) v hold
    · rw [List.mem_singleton.1 hnew]
      exact hvalue
  · exact h e he v hv

/-- Within its buffer, and what is left has no quote but behind a backslash. -/
def OfUnquoted (p : StringParser) : Prop := ∃ t v, p = of t v ∧ Unquoted t

namespace OfUnquoted

variable {p q : StringParser}

theorem skipChars {isKind : Nat → Bool} (hkind : isKind 0x5C = false) (hp : OfUnquoted p)
    (h : p.skipChars isKind = some q) : OfUnquoted q := by
  obtain ⟨t, v, rfl, ht⟩ := hp
  rw [StringParser.skipChars_of, Option.some.injEq] at h
  exact ⟨_, _, h.symm, ht.dropWhile hkind⟩

theorem parseToken (hp : OfUnquoted p) (h : p.parseToken = some (true, q)) : OfUnquoted q := by
  obtain ⟨t, v, rfl, ht⟩ := hp
  rw [StringParser.parseToken, StringParser.parseChars_of] at h
  split at h
  · cases h
  · cases h
    exact ⟨_, _, rfl, ht.dropWhile rfl⟩

theorem parseChar {x : Nat} (hx : x ≠ 0x5C) (hp : OfUnquoted p)
    (h : p.parseChar x = some (true, q)) : OfUnquoted q := by
  obtain ⟨t, v, rfl, ht⟩ := hp
  cases t with
  | nil => cases h
  | cons c t =>
    rw [StringParser.parseChar_of_cons] at h
    split at h
    case isTrue hc =>
      rw [Option.some.injEq, Prod.mk.injEq] at h
      exact ⟨_, _, h.2.symm, ht.tail (hc ▸ hx)⟩
    case isFalse hc =>
      rw [Option.some.injEq, Prod.mk.injEq] at h
      exact absurd (eq_of_beq h.1) hc

theorem parseQuotedString (hp : OfUnquoted p) (isText : Nat → Bool) :
    p.parseQuotedString isText = some (false, p) := by
  obtain ⟨t, v, rfl, ht⟩ := hp
  have hhead : t.head? ≠ some 0x22 := by
    cases t with
    | nil => exact fun h => by cases h
    | cons c t => exact fun h => absurd (ht.1 (Option.some.inj h)) (by decide)
  rw [StringParser.parseQuotedString, StringParser.parseChar_of_ne hhead]

theorem parseParameter (hp : OfUnquoted p) {entry : Chars × Chars}
    (h : Parameters.parseParameter p = some (some (entry, q))) :
    Plain entry.2 ∧ OfUnquoted q := by
  obtain ⟨p₁, h₁, h⟩ := Option.bind_eq_some_iff.1 h
  obtain ⟨p₂, h₂, h⟩ := Parameters.exists_of_required h
  obtain ⟨p₃, h₃, h⟩ := Option.bind_eq_some_iff.1 h
  obtain ⟨⟨found, p₄⟩, h₄, h⟩ := Option.bind_eq_some_iff.1 h
  have hname := ((hp.skipChars rfl h₁).parseToken h₂).skipChars rfl h₃
  dsimp only at h
  split at h
  case isTrue hfound =>
    obtain ⟨p₅, h₅, h⟩ := Option.bind_eq_some_iff.1 h
    obtain ⟨⟨found', p₆⟩, h₆, h⟩ := Option.bind_eq_some_iff.1 h
    rw [hfound] at h₄
    have hmark := (hname.parseChar (by decide) h₄).skipChars rfl h₅
    dsimp only at h
    split at h
    case isTrue hfound' =>
      rw [hfound'] at h₆
      cases h
      exact ⟨(parseChars_value h₆).2, hmark.parseToken h₆⟩
    case isFalse =>
      rw [hmark.parseQuotedString, required_false] at h
      cases h
  case isFalse =>
    cases h
    exact ⟨fun c hc => absurd hc List.not_mem_nil, hname⟩

end OfUnquoted

theorem plainValues_parse {p : StringParser} (hp : OfUnquoted p) {params : Values}
    (h : Parameters.parse p = some (some params)) : PlainValues params := by
  obtain ⟨q, hq, h⟩ := Option.bind_eq_some_iff.1 h
  refine (parseLoop_induct (C := fun params p => PlainValues params ∧ OfUnquoted p) (fun h => h.1)
    (fun h hchar hparam => ?_) ?_ h : PlainValues params)
  · obtain ⟨hvalue, hrest⟩ := (h.2.parseChar (by decide) hchar).parseParameter hparam
    exact ⟨h.1.push hvalue, hrest⟩
  · exact ⟨fun e he => absurd he List.not_mem_nil, hp.skipChars rfl hq⟩

/-! ## How many values are parsed -/

/-- How many values the names have. -/
def count (params : Values) : Nat := (params.map fun e => e.2.length).sum

theorem count_cons (e : Chars × List Chars) (params : Values) :
    count (e :: params) = e.2.length + count params := rfl

theorem count_set {params : Values} (h : SortedMap.Sorted params) (name : Chars)
    (values : List Chars) :
    count (SortedMap.set name values params) + ((SortedMap.get? name params).getD []).length =
      count params + values.length := by
  induction params with
  | nil => exact (Nat.zero_add _).symm
  | cons e params ih =>
    have hrest := List.pairwise_cons.1 h
    rw [SortedMap.set, SortedMap.get?_cons]
    split
    case isTrue hlt =>
      have hnone : SortedMap.get? name params = none :=
        SortedMap.get?_eq_none_of_forall_lt fun e' he' => hlt.trans (hrest.1 e' he')
      rw [if_neg hlt.ne, hnone, Option.getD_none, count_cons, List.length_nil]
      dsimp only
      omega
    case isFalse =>
      split
      case isTrue heq =>
        rw [Option.getD_some, count_cons, count_cons]
        dsimp only
        omega
      case isFalse =>
        have := ih hrest.2
        rw [count_cons, count_cons]
        omega

theorem count_push {params : Values} (h : SortedMap.Sorted params) (name value : Chars) :
    count (SortedMap.push name value params) = count params + 1 := by
  have := count_set h name ((SortedMap.get? name params).getD [] ++ [value])
  rw [List.length_append, List.length_singleton] at this
  rw [SortedMap.push]
  omega

theorem count_parseChar {p q : StringParser} {x : Nat} (h : p.parseChar x = some (true, q)) :
    p.rest.count x = q.rest.count x + 1 := by
  obtain ⟨found, hcheck, heq⟩ := Option.map_eq_some_iff.1 h
  cases heq
  rw [StringParser.checkChar] at hcheck
  split at hcheck
  · cases hcheck
  · obtain ⟨c, hc, heq⟩ := Option.map_eq_some_iff.1 hcheck
    obtain ⟨t, ht⟩ := List.head?_eq_some_iff.1 hc
    rw [if_pos rfl, StringParser.move, ht, List.drop_succ_cons, List.drop_zero, eq_of_beq heq,
      List.count_cons_self]

theorem count_parse {p : StringParser} {params : Values}
    (h : Parameters.parse p = some (some params)) : count params ≤ p.rest.count 0x3B := by
  obtain ⟨q, hq, h⟩ := Option.bind_eq_some_iff.1 h
  have hle := (StringParser.behind_skipChars hq).suffix.sublist.count_le 0x3B
  refine (parseLoop_induct (C := fun params p => SortedMap.Sorted params ∧
    count params + p.rest.count 0x3B ≤ q.rest.count 0x3B) (D := fun params =>
      count params ≤ q.rest.count 0x3B) (fun h => ?_) (fun h hchar hparam => ?_) ?_ h).trans hle
  · exact (Nat.le_add_right _ _).trans h.2
  · have hread := count_parseChar hchar
    have hrest := (Parameters.behind_parseParameter hparam).suffix.sublist.count_le 0x3B
    refine ⟨h.1.set _ _, ?_⟩
    rw [count_push h.1]
    have := h.2
    omega
  · exact ⟨.nil, (Nat.zero_add _).le⟩

/-! ## Parsing what was printed -/

/-- The names with their values, one behind the other. -/
def entries (params : Values) : List (Chars × Chars) :=
  params.flatMap fun e => e.2.map fun value => (e.1, value)

theorem text_eq (params : Values) :
    Parameters.text params = (entries params).flatMap fun e => Parameters.parameterText e.1 e.2 := by
  rw [entries, List.flatMap_assoc, Parameters.text]
  refine congrArg (fun f => List.flatMap f params) (funext fun e => ?_)
  rw [List.flatMap_map]

theorem valuesOf_entries {params : Values} (h : SortedMap.Sorted params) (name : Chars) :
    SortedMap.valuesOf name (entries params) = (SortedMap.get? name params).getD [] := by
  induction params with
  | nil => rfl
  | cons e params ih =>
    have hrest := List.pairwise_cons.1 h
    rw [entries, List.flatMap_cons, ← entries, SortedMap.valuesOf, List.filter_append,
      List.map_append, ← SortedMap.valuesOf, ← SortedMap.valuesOf, ih hrest.2, SortedMap.get?_cons]
    split
    case isTrue heq =>
      have hnone : SortedMap.get? name params = none :=
        SortedMap.get?_eq_none_of_forall_lt fun e' he' => heq ▸ hrest.1 e' he'
      rw [hnone, Option.getD_none, List.append_nil, Option.getD_some, SortedMap.valuesOf,
        List.filter_eq_self.2, List.map_map]
      · exact List.map_id _
      · intro e' he'
        obtain ⟨value, -, rfl⟩ := List.mem_map.1 he'
        simpa using heq
    case isFalse hne =>
      rw [SortedMap.valuesOf, List.filter_eq_nil_iff.2, List.map_nil, List.nil_append]
      intro e' he'
      obtain ⟨value, -, rfl⟩ := List.mem_map.1 he'
      simpa using hne

theorem sorted_foldl_push (l : List (Chars × Chars)) {params : Values}
    (h : SortedMap.Sorted params) :
    SortedMap.Sorted (l.foldl (fun params e => SortedMap.push e.1 e.2 params) params) := by
  induction l generalizing params with
  | nil => exact h
  | cons e l ih => exact ih (h.set _ _)

theorem foldl_push_entries {params : Values} (h : Parameters.WellFormed params) :
    (entries params).foldl (fun params e => SortedMap.push e.1 e.2 params) [] = params := by
  refine (sorted_foldl_push _ .nil).ext h.sorted fun name => ?_
  rw [SortedMap.get?_foldl_push, valuesOf_entries h.sorted]
  cases hget : SortedMap.get? name params with
  | none => exact if_pos rfl
  | some values => exact if_neg (h.values_ne _ (SortedMap.mem_of_get? hget))

/-- The text does not go on with a token or a space. -/
def Stops (t : Chars) : Prop :=
  ∀ c, t.head? = some c → StringParser.isTokenChar c = false ∧ c ≠ 0x20

theorem Stops.dropWhile {t : Chars} (h : Stops t) : t.dropWhile (· == 0x20) = t := by
  cases t with
  | nil => rfl
  | cons c t =>
    rw [List.dropWhile_cons_of_neg]
    exact fun hc => (h c rfl).2 (eq_of_beq hc)

theorem parseToken_of {name t v : Chars} (hne : name ≠ []) (hname : Plain name) (ht : Stops t) :
    (of (name ++ t) v).parseToken = some (true, of t name) := by
  have htake : (name ++ t).takeWhile StringParser.isTokenChar = name := by
    rw [List.takeWhile_append_of_pos hname]
    cases t with
    | nil => exact List.append_nil _
    | cons c t =>
      have hc : ¬StringParser.isTokenChar c = true := by
        rw [(ht c rfl).1]
        exact Bool.false_ne_true
      rw [List.takeWhile_cons_of_neg hc, List.append_nil]
  have hdrop : (name ++ t).dropWhile StringParser.isTokenChar = t := by
    rw [← StringParser.drop_length_takeWhile, htake, List.drop_left]
  rw [StringParser.parseToken, StringParser.parseChars_of, htake, hdrop, if_neg hne]

theorem dropWhile_token {name : Chars} (hne : name ≠ []) (hname : Plain name) (t : Chars) :
    (name ++ t).dropWhile (· == 0x20) = name ++ t := by
  obtain ⟨c, name, rfl⟩ := List.exists_cons_of_ne_nil hne
  have hc := (ne_of_isTokenChar (hname c List.mem_cons_self)).1
  rw [List.cons_append, List.dropWhile_cons_of_neg]
  intro heq
  rw [eq_of_beq heq] at hc
  exact absurd hc (by decide)

theorem parseParameter_print {name value t v : Chars} (hne : name ≠ []) (hname : Plain name)
    (hvalue : Plain value) (ht : Stops t) (hequals : t.head? ≠ some 0x3D) :
    ∃ w, Parameters.parseParameter
      (of (name ++ (if value = [] then [] else 0x3D :: value) ++ t) v) =
        some (some ((name, value), of t w)) := by
  rw [Parameters.parseParameter, StringParser.skipSpaces, StringParser.skipChars_of, Option.bind_some,
    List.append_assoc, dropWhile_token hne hname]
  split
  case isTrue hempty =>
    rw [List.nil_append, parseToken_of hne hname ht, required_true, StringParser.skipSpaces,
      StringParser.skipChars_of, Option.bind_some, ht.dropWhile, StringParser.parseChar_of_ne hequals,
      Option.bind_some, hempty]
    exact ⟨name, rfl⟩
  case isFalse hvalue_ne =>
    have hstops : Stops (0x3D :: value ++ t) := by
      intro c hc
      cases hc
      decide
    rw [parseToken_of hne hname hstops, required_true, StringParser.skipSpaces,
      StringParser.skipChars_of, Option.bind_some, hstops.dropWhile, List.cons_append,
      StringParser.parseChar_of_cons, Option.bind_some, if_pos rfl]
    dsimp only
    rw [if_pos (beq_self_eq_true _), StringParser.skipSpaces, StringParser.skipChars_of,
      Option.bind_some, dropWhile_token hvalue_ne hvalue, parseToken_of hvalue_ne hvalue ht,
      Option.bind_some]
    exact ⟨value, rfl⟩

theorem parseLoop_print {l : List (Chars × Chars)}
    (hl : ∀ e ∈ l, e.1 ≠ [] ∧ Plain e.1 ∧ Plain e.2) (params : Values) (v : Chars) :
    Parameters.parseLoop params
        (of (l.flatMap fun e => Parameters.parameterText e.1 e.2) v) =
      some (some (l.foldl (fun params e => SortedMap.push e.1 e.2 params) params)) := by
  induction l generalizing params v with
  | nil =>
    rw [List.flatMap_nil, Parameters.parseLoop]
    rfl
  | cons e l ih =>
    obtain ⟨hne, hname, hvalue⟩ := hl e List.mem_cons_self
    have hrest : Stops (l.flatMap fun e => Parameters.parameterText e.1 e.2) ∧
        (l.flatMap fun e => Parameters.parameterText e.1 e.2).head? ≠ some 0x3D := by
      cases l with
      | nil =>
        refine ⟨fun c hc => ?_, fun h => ?_⟩
        · cases hc
        · cases h
      | cons e' l =>
        refine ⟨fun c hc => ?_, fun h => ?_⟩
        · cases hc
          decide
        · cases h
    obtain ⟨w, hparam⟩ := @parseParameter_print e.1 e.2 _ v hne hname hvalue hrest.1 hrest.2
    have htext : (e :: l).flatMap (fun e => Parameters.parameterText e.1 e.2) =
        0x3B :: (e.1 ++ (if e.2 = [] then [] else 0x3D :: e.2) ++
          l.flatMap fun e => Parameters.parameterText e.1 e.2) := rfl
    have hchar := @StringParser.parseChar_of_cons
      (e.1 ++ (if e.2 = [] then [] else 0x3D :: e.2) ++
        l.flatMap fun e => Parameters.parameterText e.1 e.2) v 0x3B 0x3B
    rw [beq_self_eq_true, if_pos rfl] at hchar
    rw [htext, Parameters.parseLoop]
    split
    · rename_i heq
      rw [hchar] at heq
      cases heq
    · rename_i heq
      rw [hchar] at heq
      cases heq
    · rename_i q heq
      rw [hchar] at heq
      cases heq
      split
      · rename_i heq
        rw [hparam] at heq
        cases heq
      · rename_i heq
        rw [hparam] at heq
        cases heq
      · rename_i entry r heq
        rw [hparam] at heq
        cases heq
        exact ih (fun e he => hl e (List.mem_cons_of_mem _ he)) _ w

theorem parse_print {params : Values} (h : Parameters.WellFormed params)
    (hplain : PlainValues params) (v : Chars) :
    Parameters.parse (of (Parameters.text params) v) = some (some params) := by
  have hspaces : (Parameters.text params).dropWhile (· == 0x20) = Parameters.text params := by
    rw [text_eq]
    cases entries params with
    | nil => rfl
    | cons e l => rfl
  rw [Parameters.parse, StringParser.skipSpaces, StringParser.skipChars_of, Option.bind_some, hspaces,
    text_eq, parseLoop_print, foldl_push_entries h]
  intro e he
  obtain ⟨e', he', hmem⟩ := List.mem_flatMap.1 he
  obtain ⟨value, hvalue, rfl⟩ := List.mem_map.1 hmem
  have hentry := h.entry e' he' value hvalue
  exact ⟨hentry.name_ne, hentry.name, hplain e' he' value hvalue⟩

/-! ## What `ToString` prints -/

theorem Unquoted.flatMap {α : Type} {l : List α} {f : α → Chars} (h : ∀ a ∈ l, Unquoted (f a)) :
    Unquoted (l.flatMap f) := by
  induction l with
  | nil => trivial
  | cons a l ih =>
    rw [List.flatMap_cons]
    exact (h a List.mem_cons_self).append (ih fun b hb => h b (List.mem_cons_of_mem _ hb))

theorem Entry.unquoted_text {e : Chars × Chars} (h : Entry e) :
    Unquoted (Parameters.parameterText e.1 e.2) := by
  have hmark : ∀ {c : Nat} {s : Chars}, c ≠ 0x22 → Unquoted s → Unquoted (c :: s) :=
    fun hc hs => ⟨fun heq => absurd heq hc, escapedFrom_of_unquoted hs _⟩
  have hname : Unquoted (0x3B :: e.1) := hmark (by decide) h.name.unquoted
  rw [Parameters.parameterText]
  split
  case isTrue => exact hname.append trivial
  case isFalse => exact hname.append (hmark (by decide) h.unquoted)

theorem Entry.nul_text {e : Chars × Chars} (h : Entry e) :
    0 ∉ Parameters.parameterText e.1 e.2 := by
  rw [Parameters.parameterText, List.mem_append, List.mem_cons]
  rintro ((hmem | hmem) | hmem)
  · cases hmem
  · exact h.name.not_mem rfl hmem
  · split at hmem
    · cases hmem
    · rcases List.mem_cons.1 hmem with hmem | hmem
      · cases hmem
      · exact h.nul hmem

theorem toString_single {name : Chars} {values : List Chars} (hne : values ≠ []) (hname : 0 ∉ name)
    (hvalues : ∀ value ∈ values, 0 ∉ value) :
    0x3B :: Parameters.toString [(name, values)] = values.flatMap (Parameters.parameterText name) := by
  have hvalue : ∀ value : Chars, 0 ∉ value →
      0x3B :: (if value = [] then cstr name else cstr name ++ 0x3D :: cstr value) =
        Parameters.parameterText name value := by
    intro value hnul
    rw [Parameters.parameterText, cstr_eq hname, cstr_eq hnul]
    split
    · rw [List.append_nil]
    · rfl
  have hrest : ∀ (values : List Chars) (k : Nat), (∀ value ∈ values, 0 ∉ value) →
      ((values.zipIdx (k + 1)).flatMap fun value => (if value.2 = 0 then [] else [0x3B]) ++
        if value.1 = [] then cstr name else cstr name ++ 0x3D :: cstr value.1) =
          values.flatMap (Parameters.parameterText name) := by
    intro values
    induction values with
    | nil => exact fun _ _ => rfl
    | cons value values ih =>
      intro k hvalues
      rw [List.zipIdx_cons, List.flatMap_cons, List.flatMap_cons,
        ih _ fun value hv => hvalues value (List.mem_cons_of_mem _ hv),
        ← hvalue value (hvalues value List.mem_cons_self)]
      rfl
  obtain ⟨value, values, rfl⟩ := List.exists_cons_of_ne_nil hne
  rw [Parameters.toString, List.flatMap_cons, List.flatMap_nil, List.append_nil, List.zipIdx_cons,
    List.flatMap_cons, List.flatMap_cons, ← hvalue value (hvalues value List.mem_cons_self)]
  dsimp only
  rw [hrest values 0 fun value hv => hvalues value (List.mem_cons_of_mem _ hv), if_pos rfl,
    List.nil_append, List.cons_append]

section WellFormed

variable {e : Chars × List Chars} {params : Values}

theorem Parameters.WellFormed.tail (h : Parameters.WellFormed (e :: params)) :
    Parameters.WellFormed params :=
  ⟨(List.pairwise_cons.1 h.sorted).2, fun e he => h.values_ne e (List.mem_cons_of_mem _ he),
    fun e he => h.entry e (List.mem_cons_of_mem _ he)⟩

theorem Parameters.WellFormed.toString_single (h : Parameters.WellFormed (e :: params)) :
    0x3B :: Parameters.toString [e] = e.2.flatMap (Parameters.parameterText e.1) := by
  have hentry := h.entry e List.mem_cons_self
  have hne := h.values_ne e List.mem_cons_self
  obtain ⟨value, hvalue⟩ := List.exists_mem_of_ne_nil _ hne
  exact McuMediaServer.toString_single hne ((hentry value hvalue).name.not_mem rfl)
    fun value hvalue => (hentry value hvalue).nul

theorem toString_cons (e : Chars × List Chars) (params : Values) :
    Parameters.toString (e :: params) = Parameters.toString [e] ++ Parameters.toString params := by
  rw [Parameters.toString, List.flatMap_cons, Parameters.toString, List.flatMap_cons,
    List.flatMap_nil, List.append_nil]
  rfl

theorem Parameters.WellFormed.unquoted_toString (h : Parameters.WellFormed params) :
    Unquoted (Parameters.toString params) := by
  induction params with
  | nil => trivial
  | cons e params ih =>
    have htext : Unquoted (0x3B :: Parameters.toString [e]) := by
      rw [h.toString_single]
      exact Unquoted.flatMap fun value hvalue =>
        (h.entry e List.mem_cons_self value hvalue).unquoted_text
    rw [toString_cons]
    exact (htext.tail (by decide)).append (ih h.tail)

theorem Parameters.WellFormed.count_toString (h : Parameters.WellFormed params)
    (hplain : PlainValues params) :
    (Parameters.toString params).count 0x3B + params.length = count params := by
  have hvalues : ∀ {name : Chars} {values : List Chars}, Plain name →
      (∀ value ∈ values, Plain value) →
        (values.flatMap (Parameters.parameterText name)).count 0x3B = values.length := by
    intro name values hname hvalues
    induction values with
    | nil => rfl
    | cons value values ih =>
      have hvalue := List.count_eq_zero.2
        ((hvalues value List.mem_cons_self).not_mem (c := 0x3B) rfl)
      rw [List.flatMap_cons, List.count_append,
        ih fun value hv => hvalues value (List.mem_cons_of_mem _ hv), Parameters.parameterText,
        List.count_append, List.count_cons_self, List.count_eq_zero.2 (hname.not_mem rfl),
        List.length_cons]
      split
      · rw [List.count_nil]
        omega
      · rw [List.count_cons_of_ne (by decide), hvalue]
        omega
  induction params with
  | nil => rfl
  | cons e params ih =>
    have hrest := ih h.tail fun e he => hplain e (List.mem_cons_of_mem _ he)
    have hentry := h.entry e List.mem_cons_self
    obtain ⟨value, hvalue⟩ := List.exists_mem_of_ne_nil _ (h.values_ne e List.mem_cons_self)
    have hfirst := hvalues (hentry value hvalue).name (hplain e List.mem_cons_self)
    rw [← h.toString_single, List.count_cons_self] at hfirst
    rw [toString_cons, List.count_append, List.length_cons, count_cons]
    omega

end WellFormed

/-! ## Round trips -/

theorem Printed.CString.unique {memory : Nat → Option Nat} {s t : Chars} (hs : Printed.CString memory s)
    (ht : Printed.CString memory t) : s = t := by
  have hle : ∀ {s t : Chars}, Printed.CString memory s → Printed.CString memory t → t.length ≤ s.length := by
    intro s t hs ht
    by_contra hlt
    have hzero := hs.2 s.length le_rfl
    rw [ht.2 s.length (by omega), List.getElem?_append_left (by omega),
      List.getElem?_append_right le_rfl, Nat.sub_self] at hzero
    exact ht.1 (List.mem_of_getElem? hzero)
  have hlength := (hle ht hs).antisymm (hle hs ht)
  refine List.ext_getElem? fun i => ?_
  rcases Nat.lt_or_ge i s.length with hi | hi
  · have heq := (hs.2 i hi.le).symm.trans (ht.2 i (by omega))
    rwa [List.getElem?_append_left hi, List.getElem?_append_left (by omega)] at heq
  · rw [List.getElem?_eq_none_iff.2 hi, List.getElem?_eq_none_iff.2 (by omega)]

namespace ContentType

/-- What all three printers print is parsed as the same content type. -/
def RoundTrips (c : ContentType) : Prop :=
  (∀ (size : UInt32) (out : Printed) (s : Chars),
    c.serialize size.toNat = some out → Printed.CString out.memory s → parse s = some (some c)) ∧
  parse c.toString = some (some c) ∧ parse c.clone.toString = some (some c)

/-- A content type that was parsed. -/
structure WellFormed (c : ContentType) : Prop where
  type_ne : c.type ≠ []
  type : Plain c.type
  subtype_ne : c.subtype ≠ []
  subtype : Plain c.subtype
  params : Parameters.WellFormed c.params

theorem exists_of_parse {s : Chars} {c : ContentType} (h : parse s = some (some c)) :
    ∃ p q r, (of s).parseToken = some (true, p) ∧ p.parseChar 0x2F = some (true, q) ∧
      q.parseToken = some (true, r) ∧ Parameters.parse r = some (some c.params) ∧
      c.type = p.value ∧ c.subtype = r.value := by
  obtain ⟨p, hp, h⟩ := Parameters.exists_of_required h
  obtain ⟨q, hq, h⟩ := Parameters.exists_of_required h
  obtain ⟨r, hr, h⟩ := Parameters.exists_of_required h
  obtain ⟨result, hparams, heq⟩ := Option.map_eq_some_iff.1 h
  obtain ⟨params, rfl, rfl⟩ := Option.map_eq_some_iff.1 heq
  exact ⟨p, q, r, hp, hq, hr, hparams, rfl, rfl⟩

theorem wellFormed_parse {s : Chars} {c : ContentType} (h : parse s = some (some c)) :
    c.WellFormed := by
  obtain ⟨p, q, r, hp, -, hr, hparams, htype, hsubtype⟩ := exists_of_parse h
  obtain ⟨hp_ne, hp_plain⟩ := parseChars_value hp
  obtain ⟨hr_ne, hr_plain⟩ := parseChars_value hr
  exact ⟨htype ▸ hp_ne, htype ▸ hp_plain, hsubtype ▸ hr_ne, hsubtype ▸ hr_plain,
    McuMediaServer.wellFormed_parse hparams⟩

theorem plainValues_parse {s : Chars} (hs : Unquoted s) {c : ContentType}
    (h : parse s = some (some c)) : PlainValues c.params := by
  obtain ⟨p, q, r, hp, hq, hr, hparams, -, -⟩ := exists_of_parse h
  have htype : OfUnquoted p := OfUnquoted.parseToken ⟨s, [], rfl, hs⟩ hp
  exact McuMediaServer.plainValues_parse ((htype.parseChar (by decide) hq).parseToken hr) hparams

theorem count_parse {s : Chars} {c : ContentType} (h : parse s = some (some c)) :
    count c.params ≤ s.count 0x3B := by
  obtain ⟨p, q, r, hp, hq, hr, hparams, -, -⟩ := exists_of_parse h
  have hbehind := ((StringParser.behind_parseChars hp).trans (StringParser.behind_parseChar hq)).trans
    (StringParser.behind_parseChars hr)
  exact (McuMediaServer.count_parse hparams).trans (hbehind.suffix.sublist.count_le 0x3B)

variable {c : ContentType}

theorem WellFormed.unquoted_toString (h : c.WellFormed) : Unquoted c.toString := by
  have hmark : ∀ {x : Nat} {s : Chars}, x ≠ 0x22 → Unquoted s → Unquoted (x :: s) :=
    fun hx hs => ⟨fun heq => absurd heq hx, escapedFrom_of_unquoted hs _⟩
  have hsubtype : Unquoted (0x2F :: c.subtype) := hmark (by decide) h.subtype.unquoted
  rw [toString]
  refine (h.type.unquoted.append hsubtype).append ?_
  split
  case isTrue => trivial
  case isFalse => exact hmark (by decide) h.params.unquoted_toString

/-- With two names `ToString` has too few semicolons. -/
theorem WellFormed.length_le_of_parse (h : c.WellFormed) (hplain : PlainValues c.params)
    (hparse : parse c.toString = some (some c)) : c.params.length ≤ 1 := by
  have hsemicolons := count_parse hparse
  have hcount := h.params.count_toString hplain
  rw [toString, List.count_append, List.count_append, List.count_cons_of_ne (by decide),
    List.count_eq_zero.2 (h.type.not_mem rfl), List.count_eq_zero.2 (h.subtype.not_mem rfl)]
    at hsemicolons
  split at hsemicolons
  case isTrue hnil =>
    rw [hnil]
    exact Nat.zero_le _
  case isFalse =>
    rw [List.count_cons_self] at hsemicolons
    omega

/-- With one name `ToString` prints what `Serialize` prints. -/
theorem WellFormed.toString_eq_text (h : c.WellFormed) (hlength : c.params.length ≤ 1) :
    c.toString = c.text := by
  have hparams := h.params
  rw [toString, text]
  rcases hcases : c.params with _ | ⟨e, _ | ⟨e', params⟩⟩
  · rfl
  · rw [hcases] at hparams
    rw [if_neg (List.cons_ne_nil _ _), hparams.toString_single, Parameters.text, List.flatMap_cons,
      List.flatMap_nil, List.append_nil]
  · rw [hcases, List.length_cons, List.length_cons] at hlength
    omega

theorem WellFormed.parse_text (h : c.WellFormed) (hplain : PlainValues c.params) :
    parse c.text = some (some c) := by
  have hslash : Stops (0x2F :: (c.subtype ++ Parameters.text c.params)) := by
    intro x hx
    cases hx
    decide
  have hrest : Stops (Parameters.text c.params) := by
    rw [text_eq]
    cases entries c.params with
    | nil =>
      intro x hx
      cases hx
    | cons e l =>
      intro x hx
      cases hx
      decide
  rw [parse, text, List.append_assoc, List.cons_append, parseToken_of h.type_ne h.type hslash,
    required_true, StringParser.parseChar_of_cons, if_pos rfl, beq_self_eq_true, required_true,
    parseToken_of h.subtype_ne h.subtype hrest, required_true, parse_print h.params hplain]
  rfl

theorem WellFormed.nul_text (h : c.WellFormed) : 0 ∉ c.text := by
  have hparams : 0 ∉ Parameters.text c.params := by
    rw [text_eq]
    intro hmem
    obtain ⟨e, he, hmem⟩ := List.mem_flatMap.1 hmem
    obtain ⟨e', he', he⟩ := List.mem_flatMap.1 he
    obtain ⟨value, hvalue, rfl⟩ := List.mem_map.1 he
    exact (h.params.entry e' he' value hvalue).nul_text hmem
  rw [text, List.mem_append, List.mem_append, List.mem_cons]
  rintro ((hmem | hmem | hmem) | hmem)
  · exact h.type.not_mem rfl hmem
  · cases hmem
  · exact h.subtype.not_mem rfl hmem
  · exact hparams hmem

theorem WellFormed.clone_eq (h : c.WellFormed) : c.clone = c := by
  have hfold : ∀ {l : Values}, (∀ e ∈ l, e.2 ≠ []) → ∀ params : Values,
      l.foldl (fun params e =>
        if e.2 = [] then SortedMap.push e.1 [] params
        else e.2.foldl (fun params value => SortedMap.push e.1 value params) params) params =
      (entries l).foldl (fun params e => SortedMap.push e.1 e.2 params) params := by
    intro l hl
    induction l with
    | nil => exact fun _ => rfl
    | cons e l ih =>
      intro params
      rw [List.foldl_cons, if_neg (hl e List.mem_cons_self), entries, List.flatMap_cons, ← entries,
        List.foldl_append, List.foldl_map]
      exact ih (fun e he => hl e (List.mem_cons_of_mem _ he)) _
  rw [clone, hfold h.params.values_ne, foldl_push_entries h.params]

/-- **A content type that was parsed** is parsed again from what each printer prints exactly when it
has one name at most, and the values are tokens. -/
theorem WellFormed.roundTrips_iff (h : c.WellFormed) :
    c.RoundTrips ↔ c.params.length ≤ 1 ∧ PlainValues c.params := by
  constructor
  · rintro ⟨-, hparse, -⟩
    have hplain := plainValues_parse h.unquoted_toString hparse
    exact ⟨h.length_le_of_parse hplain hparse, hplain⟩
  · rintro ⟨hlength, hplain⟩
    have hparse := h.parse_text hplain
    refine ⟨fun size out s hprint hs => ?_, ?_, ?_⟩
    · rw [serialize_eq] at hprint
      split at hprint
      case isTrue =>
        cases hprint
        have hfirst := hs.2 0 (Nat.zero_le _)
        cases s <;> cases hfirst
      case isFalse =>
        have hholds := @printAll_holds {} size.toNat c.pieces [] ⟨rfl, fun i hi => absurd hi (Nat.not_lt_zero i)⟩
          size.toNat_lt (List.cons_ne_nil _ _) (c.flatten_pieces ▸ h.nul_text)
        rw [c.flatten_pieces, List.length_nil, Nat.zero_add, hprint, List.nil_append] at hholds
        split at hholds
        case isTrue =>
          obtain ⟨b, hb, hout, hzero⟩ := hholds
          cases hb
          rwa [← (hout.cstring hzero h.nul_text).unique hs]
        case isFalse => cases hholds
    · rwa [h.toString_eq_text hlength]
    · rwa [h.clone_eq, h.toString_eq_text hlength]

end ContentType

/-- What each printer prints, for which sizes, and which content types are parsed again. -/
theorem printing_iff (c : ContentType) (d : ContentDisposition) (headers : Values) (size : UInt32)
    (s : Chars) :
    (PrintsOrFails (c.serialize size.toNat) c.text c.getSize ↔
      size.toNat < c.text.length % 2 ^ 32 ∨ c.text.length < size.toNat ∧ 0 ∉ c.text) ∧
    (PrintsOrFails (d.serialize size.toNat) d.text d.getSize ↔
      size.toNat < (d.text.length + 1) % 2 ^ 32) ∧
    (PrintsOrFails (Headers.serialize size.toNat headers) (Headers.text headers)
        (Headers.getSize headers) ↔
      size.toNat < Headers.getSize headers ∨ ∀ e ∈ headers, ∀ value ∈ e.2, value = []) ∧
    (ContentType.parse s = some (some c) →
      (c.RoundTrips ↔ c.params.length ≤ 1 ∧ PlainValues c.params)) :=
  ⟨c.printsOrFails_iff size, d.printsOrFails_iff size, Headers.printsOrFails_iff headers size,
    fun h => (ContentType.wellFormed_parse h).roundTrips_iff⟩

/-- In a buffer of the size that it tells, a content type has no room for its terminator. -/
theorem not_printsOrFails_text_plain : ¬∀ (c : ContentType) (size : UInt32),
    PrintsOrFails (c.serialize size.toNat) c.text c.getSize := by
  intro h
  obtain ⟨out, hprint, -⟩ := h ⟨[116, 101, 120, 116], [112, 108, 97, 105, 110], []⟩ 10
  have hnone : (⟨[116, 101, 120, 116], [112, 108, 97, 105, 110], []⟩ : ContentType).serialize
      (10 : UInt32).toNat = none := by
    rfl
  rw [hnone] at hprint
  cases hprint

end McuMediaServer
