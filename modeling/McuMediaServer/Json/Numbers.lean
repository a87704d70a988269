import McuMediaServer.Json.Reads
import McuMediaServer.Json.Strings

/-!
# The numbers and literals of the JSON parser

`wcstold` takes at least what JSON has of a number (`wcstold_of_number`), and often more. What the
parser makes of a number is right exactly where the two agree, no second exponent follows and no
zero meets an `errno` that is still `EINVAL` (`skipScalar_number_iff`).
-/

namespace McuMediaServer

open Json (Text spaces isDigit hexDigit digits integer fraction exponentWith exponent sign literals
  Reads opens digits_length exponentWith_length exponentWith_of_not_mem integer_cons fraction_of_ne
  digits_cons_of_isDigit digits_cons_of_not_isDigit digits_digits isDigit_of_integer)

namespace Libc

/-! ## What `wcstold` takes -/

variable {p : Nat → Bool}

theorem digitsWith_cons {exponent : Text → Text} {c : Nat} (hc : p c = true) (t : Text) :
    ∃ z, digitsWith p exponent (c :: t) =
      some ⟨z, exponent (afterPoint p (t.dropWhile p)).2⟩ := by
  simp [digitsWith, hc]

theorem afterPoint_cons (p : Nat → Bool) (c : Nat) (t : Text) :
    afterPoint p (c :: t) =
      if c = 0x2E then (t.takeWhile p, t.dropWhile p) else ([], c :: t) := rfl

theorem afterPoint_length (p : Nat → Bool) (t : Text) : (afterPoint p t).2.length ≤ t.length := by
  cases t with
  | nil => exact le_refl _
  | cons c t =>
    rw [afterPoint_cons]
    split
    · exact Nat.le_succ_of_le (List.dropWhile_sublist p).length_le
    · exact le_refl _

variable {t : Text} {c : Conversion}

theorem digitsWith_length {letters : List Nat}
    (h : digitsWith p (exponentWith letters) t = some c) : c.rest.length ≤ t.length := by
  unfold digitsWith at h
  dsimp only at h
  split at h
  · cases h
  · cases h
    exact (exponentWith_length _).trans
      ((afterPoint_length p _).trans (List.dropWhile_sublist p).length_le)

theorem afterPoint_add_length (p : Nat → Bool) (t : Text) :
    (afterPoint p t).1.length + (afterPoint p t).2.length ≤ t.length := by
  cases t with
  | nil => exact le_refl _
  | cons c t =>
    have hsplit := congrArg List.length (List.takeWhile_append_dropWhile (p := p) (l := t))
    rw [List.length_append] at hsplit
    rw [afterPoint_cons]
    split
    · simp only [List.length_cons]
      omega
    · simp

theorem digitsWith_lt {letters : List Nat}
    (h : digitsWith p (exponentWith letters) t = some c) : c.rest.length < t.length := by
  unfold digitsWith at h
  dsimp only at h
  split at h
  · cases h
  · rename_i hsome
    cases h
    have hsplit := congrArg List.length (List.takeWhile_append_dropWhile (p := p) (l := t))
    have hpoint := afterPoint_add_length p (t.dropWhile p)
    have hrest : (exponentWith letters (afterPoint p (t.dropWhile p)).2).length ≤ _ :=
      exponentWith_length _
    have hdigit := List.length_pos_iff.2 hsome
    rw [List.length_append] at hsplit hdigit
    dsimp only
    omega

theorem afterPoint_fraction (h : digits t = t) :
    (exponent (afterPoint isDigit t).2).length ≤ (exponent (fraction t)).length := by
  cases t with
  | nil => exact Nat.zero_le _
  | cons d u =>
    by_cases hd : d = 0x2E
    · subst hd
      change (exponent (digits u)).length ≤ _
      cases u with
      | nil => exact Nat.zero_le _
      | cons e v =>
        cases he : isDigit e with
        | true => rw [digits_cons_of_isDigit he, fraction, if_pos ⟨rfl, he⟩]
        | false =>
          have hfraction : fraction (0x2E :: e :: v) = 0x2E :: e :: v := by simp [fraction, he]
          have hpoint : 0x2E ∉ [0x45, 0x65] := by decide
          rw [digits_cons_of_not_isDigit he, hfraction, exponent, exponentWith_of_not_mem hpoint]
          exact Nat.le_succ_of_le (exponentWith_length _)
    · have hafter : (afterPoint isDigit (d :: u)).2 = d :: u := by simp [afterPoint, hd]
      rw [hafter, fraction_of_ne hd]

/-- Of digits and what follows `decimal` takes as much as JSON, or more. -/
theorem decimal_of_integer {t w : Text} (h : integer t = some w) :
    ∃ c, decimal t = some c ∧ c.rest.length ≤ (exponent (fraction w)).length := by
  cases t with
  | nil => cases h
  | cons c t =>
    obtain ⟨z, hz⟩ :=
      @digitsWith_cons _ exponent _ (isDigit_of_integer h) t
    refine ⟨_, hz, ?_⟩
    have hdigits : (exponent (afterPoint isDigit (digits t)).2).length ≤ _ :=
      afterPoint_fraction (digits_digits t)
    change (exponent (afterPoint isDigit (digits t)).2).length ≤ _
    rw [integer_cons] at h
    split at h
    · cases h
      cases w with
      | nil => exact hdigits
      | cons d u =>
        cases hd : isDigit d with
        | false =>
          rw [digits_cons_of_not_isDigit hd] at hdigits ⊢
          exact hdigits
        | true =>
          -- behind a zero there are digits, which JSON leaves
          have hpoint : d ≠ 0x2E := by
            rintro rfl
            cases hd
          have hexponent : d ∉ [0x45, 0x65] := by
            simp only [List.mem_cons, List.not_mem_nil, or_false]
            rintro (rfl | rfl) <;> cases hd
          rw [fraction_of_ne hpoint, exponent, exponentWith_of_not_mem hexponent,
            digits_cons_of_isDigit hd]
          calc (exponentWith [0x45, 0x65] (afterPoint isDigit (digits u)).2).length
              ≤ (afterPoint isDigit (digits u)).2.length := exponentWith_length _
            _ ≤ (digits u).length := afterPoint_length _ _
            _ ≤ u.length := digits_length u
            _ ≤ (d :: u).length := Nat.le_succ _
    · split at h
      · cases h
        exact hdigits
      · cases h

theorem unsigned_of_integer {t w : Text} (h : integer t = some w) :
    ∃ c, unsigned t = some c ∧ c.rest.length ≤ (exponent (fraction w)).length := by
  cases hx : hexadecimal t with
  | none =>
    obtain ⟨c, hc, hle⟩ := decimal_of_integer h
    exact ⟨c, by simp [unsigned, hx, hc], hle⟩
  | some c =>
    refine ⟨c, by simp [unsigned, hx], ?_⟩
    rcases t with _ | ⟨z, _ | ⟨x, u⟩⟩
    · cases hx
    · cases hx
    change (if z = 0x30 ∧ (x = 0x58 ∨ x = 0x78) then hexDigits u else none) = some c at hx
    split at hx
    · rename_i hzx
      obtain ⟨rfl, hx'⟩ := hzx
      -- to JSON the number ends behind the zero
      rw [integer_cons, if_pos rfl] at h
      cases h
      have hpoint : x ≠ 0x2E := by rcases hx' with rfl | rfl <;> decide
      have hexponent : x ∉ [0x45, 0x65] := by rcases hx' with rfl | rfl <;> decide
      rw [fraction_of_ne hpoint, exponent, exponentWith_of_not_mem hexponent]
      exact Nat.le_succ_of_le (digitsWith_length hx)
    · cases hx

theorem isSpace_of_isDigit {c : Nat} (h : isDigit c = true) : isSpace c = false := by
  simp only [isDigit, isSpace, Bool.and_eq_true, decide_eq_true_eq, Bool.or_eq_false_iff,
    Bool.and_eq_false_imp, decide_eq_false_iff_not] at h ⊢
  omega

/-- Of a number of JSON `wcstold` takes as much, or more. -/
theorem wcstold_of_number {t r : Text} (h : Json.number t = some r) :
    ∃ c, wcstold t = some c ∧ c.rest.length ≤ r.length := by
  cases t with
  | nil => cases h
  | cons c t =>
    change (if c = 0x2D then (integer t).map fun t => exponent (fraction t)
      else (integer (c :: t)).map fun t => exponent (fraction t)) = some r at h
    split at h
    · rename_i hc
      subst hc
      obtain ⟨w, hw, rfl⟩ := Option.map_eq_some_iff.1 h
      exact unsigned_of_integer hw
    · obtain ⟨w, hw, rfl⟩ := Option.map_eq_some_iff.1 h
      have hdigit := isDigit_of_integer hw
      have hplus : ¬(c = 0x2B ∨ c = 0x2D) := by
        rintro (rfl | rfl) <;> cases hdigit
      have hsign : sign ((c :: t).dropWhile isSpace) = c :: t := by
        simp [isSpace_of_isDigit hdigit, sign, hplus]
      rw [wcstold, hsign]
      exact unsigned_of_integer hw

/-- Where no number can begin, `wcstold` takes nothing. -/
theorem wcstold_eq_none {c : Nat} (t : Text) (hspace : isSpace c = false)
    (hsign : ¬(c = 0x2B ∨ c = 0x2D)) (hdigit : isDigit c = false) (hpoint : c ≠ 0x2E)
    (hletter : lower c ≠ 0x69 ∧ lower c ≠ 0x6E) : wcstold (c :: t) = none := by
  have hzero : c ≠ 0x30 := by
    rintro rfl
    cases hdigit
  have hs : sign ((c :: t).dropWhile isSpace) = c :: t := by simp [hspace, sign, hsign]
  have hx : hexadecimal (c :: t) = none := by
    cases t <;> simp [hexadecimal, hzero]
  have hd : decimal (c :: t) = none := by
    simp [decimal, digitsWith, afterPoint, hdigit, hpoint]
  rw [wcstold, hs, unsigned, hx, hd]
  simp [special, word, hletter]

theorem word_length {w t r : Text} (h : word w t = some r) : r.length + w.length = t.length := by
  induction w generalizing t with
  | nil =>
    cases h
    rfl
  | cons a w ih =>
    cases t with
    | nil => cases h
    | cons c t =>
      change (if lower c = a then word w t else none) = some r at h
      split at h
      · have := ih h
        simp only [List.length_cons]
        omega
      · cases h

theorem nanChars_length (t : Text) : (nanChars t).length ≤ t.length := by
  unfold nanChars
  split
  · exact le_refl _
  · rename_i c u
    split
    · split
      · exact le_refl _
      · rename_i d v hv
        split
        · have hle := (List.dropWhile_sublist (l := u)
            fun c => isDigit c || (0x61 ≤ lower c && lower c ≤ 0x7A) || c = 0x5F).length_le
          rw [hv] at hle
          simp only [List.length_cons] at hle ⊢
          omega
        · exact le_refl _
    · exact le_refl _

theorem special_length (h : special t = some c) : c.rest.length < t.length := by
  obtain ⟨r, hr, rfl⟩ := Option.map_eq_some_iff.1 h
  simp only [Option.orElse_eq_or, Option.or_eq_some_iff] at hr
  rcases hr with hr | ⟨-, hr | ⟨-, hr⟩⟩
  · have := word_length hr
    simp only [List.length_cons] at this ⊢
    omega
  · have := word_length hr
    simp only [List.length_cons] at this ⊢
    omega
  · obtain ⟨u, hu, rfl⟩ := Option.map_eq_some_iff.1 hr
    have := word_length hu
    have := nanChars_length u
    simp only [List.length_cons] at *
    omega

theorem wcstold_length (h : wcstold t = some c) : c.rest.length < t.length := by
  have hsign : (sign (t.dropWhile isSpace)).length ≤ t.length :=
    (Json.sign_length _).trans (List.dropWhile_sublist isSpace).length_le
  refine lt_of_lt_of_le ?_ hsign
  unfold wcstold unsigned at h
  generalize sign (t.dropWhile isSpace) = u at h
  cases hx : hexadecimal u with
  | some c' =>
    rw [hx] at h
    cases h
    rcases u with _ | ⟨a, _ | ⟨b, v⟩⟩
    · cases hx
    · cases hx
    · change (if a = 0x30 ∧ (b = 0x58 ∨ b = 0x78) then hexDigits v else none) = some c at hx
      split at hx
      · have := digitsWith_length hx
        simp only [List.length_cons]
        omega
      · cases hx
  | none =>
    rw [hx] at h
    cases hd : decimal u with
    | some c' =>
      rw [hd] at h
      cases h
      exact digitsWith_lt hd
    | none =>
      rw [hd] at h
      exact special_length h

theorem wcstold_literal {w r : Text} (hw : w ∈ literals) : wcstold (w ++ r) = none := by
  simp only [literals, List.mem_cons, List.not_mem_nil, or_false] at hw
  rcases hw with rfl | rfl | rfl
  · exact wcstold_eq_none _ (by decide) (by decide) (by decide) (by decide) (by decide)
  · exact wcstold_eq_none _ (by decide) (by decide) (by decide) (by decide) (by decide)
  · rfl

/-- Of a string, an object or an array `wcstold` takes nothing. -/
theorem wcstold_of_opens (h : opens t) : wcstold t = none := by
  obtain ⟨c, u, hc, rfl⟩ := h
  rcases hc with rfl | rfl | rfl <;>
    exact wcstold_eq_none _ (by decide) (by decide) (by decide) (by decide) (by decide)

end Libc

end McuMediaServer
