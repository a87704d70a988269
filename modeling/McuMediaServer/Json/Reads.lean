import Mathlib.Data.List.DropRight
import McuMediaServer.Json.Grammar

/-!
# Readings of JSON

What a text begins with, by its first character that is no space, and that something is taken of a
text by each reading.
-/

namespace Json

variable {t u w x y r : Text}

/-! ## Numbers -/

theorem digits_length (t : Text) : (digits t).length ≤ t.length :=
  (List.dropWhile_sublist isDigit).length_le

theorem sign_length (t : Text) : (sign t).length ≤ t.length := by
  cases t with
  | nil => exact le_refl _
  | cons d t =>
    change (if d = 0x2B ∨ d = 0x2D then t else d :: t).length ≤ _
    split
    · exact Nat.le_succ _
    · exact le_refl _

variable {c : Nat}

section
variable {letters : List Nat}

theorem exponentWith_cons (c : Nat) (t : Text) :
    exponentWith letters (c :: t) = match sign t with
      | [] => c :: t
      | d :: u => if c ∈ letters ∧ isDigit d then digits u else c :: t := rfl

theorem exponentWith_length (t : Text) : (exponentWith letters t).length ≤ t.length := by
  cases t with
  | nil => exact le_refl _
  | cons c t =>
    have hsign := sign_length t
    rw [exponentWith_cons]
    cases hs : sign t with
    | nil => exact le_refl _
    | cons d u =>
      rw [hs] at hsign
      dsimp only
      have := digits_length u
      simp only [List.length_cons] at hsign ⊢
      split
      · omega
      · exact le_refl _

theorem exponentWith_of_not_mem (hc : c ∉ letters) (t : Text) :
    exponentWith letters (c :: t) = c :: t := by
  rw [exponentWith_cons]
  cases sign t with
  | nil => rfl
  | cons d u => simp [hc]

end

theorem integer_cons (c : Nat) (t : Text) :
    integer (c :: t) =
      if c = 0x30 then some t else if isDigit c then some (digits t) else none := rfl

theorem fraction_of_ne (hc : c ≠ 0x2E) (t : Text) : fraction (c :: t) = c :: t := by
  unfold fraction
  cases t <;> simp [hc]

theorem digits_cons_of_isDigit (hc : isDigit c = true) (t : Text) : digits (c :: t) = digits t := by
  simp [digits, hc]

theorem digits_cons_of_not_isDigit (hc : isDigit c = false) (t : Text) : digits (c :: t) = c :: t := by
  simp [digits, hc]

theorem digits_digits (t : Text) : digits (digits t) = digits t :=
  List.dropWhile_idempotent _ _

theorem isDigit_of_integer {t w : Text} (h : integer (c :: t) = some w) : isDigit c = true := by
  rw [integer_cons] at h
  split at h
  · rename_i hc
    subst hc
    rfl
  · split at h
    · assumption
    · cases h

theorem integer_length (h : integer t = some w) : w.length < t.length := by
  cases t with
  | nil => cases h
  | cons c t =>
    rw [integer_cons] at h
    split at h
    · cases h
      exact Nat.lt_succ_self _
    · split at h
      · cases h
        exact Nat.lt_succ_of_le (digits_length t)
      · cases h

theorem fraction_length (t : Text) : (fraction t).length ≤ t.length := by
  cases t with
  | nil => exact le_refl _
  | cons c t =>
    cases t with
    | nil => exact le_refl _
    | cons d u =>
      change (if c = 0x2E ∧ isDigit d then digits u else c :: d :: u).length ≤ _
      split
      · exact (digits_length u).trans (Nat.le_add_right _ 2)
      · exact le_refl _

theorem number_cons (c : Nat) (t : Text) :
    number (c :: t) =
      if c = 0x2D then (integer t).map fun t => exponent (fraction t)
      else (integer (c :: t)).map fun t => exponent (fraction t) := rfl

theorem number_length (h : number t = some r) : r.length < t.length := by
  have hmantissa : ∀ {u w : Text}, integer u = some w →
      (exponent (fraction w)).length < u.length := by
    intro u w hw
    calc (exponent (fraction w)).length
        ≤ (fraction w).length := exponentWith_length _
      _ ≤ w.length := fraction_length w
      _ < u.length := integer_length hw
  cases t with
  | nil => cases h
  | cons c t =>
    rw [number_cons] at h
    split at h
    · obtain ⟨w, hw, rfl⟩ := Option.map_eq_some_iff.1 h
      exact (hmantissa hw).trans (Nat.lt_succ_self _)
    · obtain ⟨w, hw, rfl⟩ := Option.map_eq_some_iff.1 h
      exact hmantissa hw

theorem number_start (h : number (c :: t) = some r) : c = 0x2D ∨ isDigit c = true := by
  rw [number_cons] at h
  split at h
  · exact .inl ‹_›
  · obtain ⟨w, hw, -⟩ := Option.map_eq_some_iff.1 h
    exact .inr (isDigit_of_integer hw)

theorem literal_start (hw : w ∈ literals) (h : c :: t = w ++ r) : c = 0x74 ∨ c = 0x66 ∨ c = 0x6E := by
  simp only [literals, List.mem_cons, List.not_mem_nil, or_false] at hw
  rcases hw with rfl | rfl | rfl <;> cases h <;> simp

theorem literal_det {w' r' : Text} (hw : w ∈ literals) (hw' : w' ∈ literals)
    (h : w ++ r = w' ++ r') : r = r' := by
  simp only [literals, List.mem_cons, List.not_mem_nil, or_false] at hw hw'
  rcases hw with rfl | rfl | rfl <;> rcases hw' with rfl | rfl | rfl <;> cases h <;> rfl

/-! ## Values -/

theorem spaces_spaces (t : Text) : spaces (spaces t) = spaces t :=
  List.dropWhile_idempotent _ _

theorem spaces_length (t : Text) : (spaces t).length ≤ t.length :=
  (List.dropWhile_sublist isSpace).length_le

theorem length_of_spaces (h : spaces t = c :: u) : u.length < t.length := by
  have hle := spaces_length t
  rw [h] at hle
  exact hle

theorem Spells.length {esc : Text → Option (Nat × Text)} {v : Text}
    (hesc : ∀ {t d u}, esc t = some (d, u) → u.length < t.length) (h : Spells esc t v r) :
    r.length < t.length := by
  induction h with
  | close t => exact Nat.lt_succ_self _
  | plain _ _ _ _ ih => exact ih.trans (Nat.lt_succ_self _)
  | escape he _ ih => exact (ih.trans (hesc he)).trans (Nat.lt_succ_self _)

theorem escape_length {d : Nat} (h : escape t = some (d, u)) : u.length < t.length := by
  cases t with
  | nil => cases h
  | cons c t =>
    unfold escape at h
    cases hc : simpleEscape c with
    | some d' =>
      simp only [hc] at h
      cases h
      exact Nat.lt_succ_self _
    | none =>
      simp only [hc] at h
      split at h
      · rcases t with _ | ⟨h₁, _ | ⟨h₂, _ | ⟨h₃, _ | ⟨h₄, t⟩⟩⟩⟩
        · cases h
        · cases h
        · cases h
        · cases h
        · obtain ⟨n, -, hn⟩ := Option.map_eq_some_iff.1 h
          cases hn
          simp only [List.length_cons]
          omega
      · cases h

theorem Reads.length {k : Kind} (h : Reads k t r) : r.length < t.length := by
  induction h with
  | name hquote h => exact (h.length escape_length).trans (length_of_spaces hquote)
  | string _ ih => exact ih
  | number h => exact (number_length h).trans_le (spaces_length _)
  | @literal t w r hw h =>
    have hle := spaces_length t
    rw [h, List.length_append] at hle
    have hpos : 0 < w.length := by
      simp only [literals, List.mem_cons, List.not_mem_nil, or_false] at hw
      rcases hw with rfl | rfl | rfl <;> decide
    omega
  | emptyObject hopen hclose => exact (length_of_spaces hclose).trans (length_of_spaces hopen)
  | object hopen _ ih => exact ih.trans (length_of_spaces hopen)
  | emptyArray hopen hclose => exact (length_of_spaces hclose).trans (length_of_spaces hopen)
  | array hopen _ ih => exact ih.trans (length_of_spaces hopen)
  | lastMember _ hcolon _ hclose ihname ihvalue =>
    exact (length_of_spaces hclose).trans (ihvalue.trans ((length_of_spaces hcolon).trans ihname))
  | member _ hcolon _ hcomma _ ihname ihvalue ih =>
    exact ih.trans ((length_of_spaces hcomma).trans
      (ihvalue.trans ((length_of_spaces hcolon).trans ihname)))
  | lastElement _ hclose ih => exact (length_of_spaces hclose).trans ih
  | element _ hcomma _ ihvalue ih => exact ih.trans ((length_of_spaces hcomma).trans ihvalue)

theorem reads_name_iff :
    Reads .name t r ↔ ∃ u v, spaces t = 0x22 :: u ∧ Spells escape u v r := by
  constructor
  · rintro ⟨hquote, h⟩
    exact ⟨_, _, hquote, h⟩
  · rintro ⟨u, v, hquote, h⟩
    exact .name hquote h

theorem reads_string_iff (hopen : spaces t = 0x22 :: u) :
    Reads .value t r ↔ ∃ v, Spells escape u v r := by
  constructor
  · intro h
    cases h with
    | string h =>
      obtain ⟨u', v, hquote, h⟩ := reads_name_iff.1 h
      rw [hopen] at hquote
      cases hquote
      exact ⟨v, h⟩
    | number h =>
      rw [hopen] at h
      rcases number_start h with h | h <;> cases h
    | literal hw h =>
      rw [hopen] at h
      rcases literal_start hw h with h | h | h <;> cases h
    | emptyObject hopen' | object hopen' | emptyArray hopen' | array hopen' =>
      rw [hopen] at hopen'
      cases hopen'
  · rintro ⟨v, h⟩
    exact .string (.name hopen h)

theorem reads_object_iff (hopen : spaces t = 0x7B :: u) :
    Reads .value t r ↔ spaces u = 0x7D :: r ∨ Reads .members u r := by
  constructor
  · intro h
    cases h with
    | string h =>
      obtain ⟨u', v, hquote, -⟩ := reads_name_iff.1 h
      rw [hopen] at hquote
      cases hquote
    | number h =>
      rw [hopen] at h
      rcases number_start h with h | h <;> cases h
    | literal hw h =>
      rw [hopen] at h
      rcases literal_start hw h with h | h | h <;> cases h
    | emptyObject hopen' hclose =>
      rw [hopen] at hopen'
      cases hopen'
      exact .inl hclose
    | object hopen' h =>
      rw [hopen] at hopen'
      cases hopen'
      exact .inr h
    | emptyArray hopen' | array hopen' =>
      rw [hopen] at hopen'
      cases hopen'
  · rintro (hclose | h)
    · exact .emptyObject hopen hclose
    · exact .object hopen h

theorem reads_array_iff (hopen : spaces t = 0x5B :: u) :
    Reads .value t r ↔ spaces u = 0x5D :: r ∨ Reads .elements u r := by
  constructor
  · intro h
    cases h with
    | string h =>
      obtain ⟨u', v, hquote, -⟩ := reads_name_iff.1 h
      rw [hopen] at hquote
      cases hquote
    | number h =>
      rw [hopen] at h
      rcases number_start h with h | h <;> cases h
    | literal hw h =>
      rw [hopen] at h
      rcases literal_start hw h with h | h | h <;> cases h
    | emptyObject hopen' | object hopen' =>
      rw [hopen] at hopen'
      cases hopen'
    | emptyArray hopen' hclose =>
      rw [hopen] at hopen'
      cases hopen'
      exact .inl hclose
    | array hopen' h =>
      rw [hopen] at hopen'
      cases hopen'
      exact .inr h
  · rintro (hclose | h)
    · exact .emptyArray hopen hclose
    · exact .array hopen h

/-- Whether a text begins with a quote, a brace or a bracket. -/
def opens (t : Text) : Prop := ∃ c u, (c = 0x22 ∨ c = 0x7B ∨ c = 0x5B) ∧ t = c :: u

theorem reads_scalar_iff (hopen : ¬opens (spaces t)) :
    Reads .value t r ↔ number (spaces t) = some r ∨ ∃ w ∈ literals, spaces t = w ++ r := by
  constructor
  · intro h
    cases h with
    | string h =>
      obtain ⟨u', v, hquote, -⟩ := reads_name_iff.1 h
      exact absurd ⟨_, _, .inl rfl, hquote⟩ hopen
    | number h => exact .inl h
    | literal hw h => exact .inr ⟨_, hw, h⟩
    | emptyObject hopen' | object hopen' =>
      exact absurd ⟨_, _, .inr (.inl rfl), hopen'⟩ hopen
    | emptyArray hopen' | array hopen' =>
      exact absurd ⟨_, _, .inr (.inr rfl), hopen'⟩ hopen
  · rintro (h | ⟨w, hw, h⟩)
    · exact .number h
    · exact .literal hw h

theorem reads_members_iff :
    Reads .members t r ↔ ∃ u w x, Reads .name t u ∧ spaces u = 0x3A :: w ∧ Reads .value w x ∧
      (spaces x = 0x7D :: r ∨ ∃ y, spaces x = 0x2C :: y ∧ Reads .members y r) := by
  constructor
  · intro h
    cases h with
    | lastMember hname hcolon hvalue hclose => exact ⟨_, _, _, hname, hcolon, hvalue, .inl hclose⟩
    | member hname hcolon hvalue hcomma h =>
      exact ⟨_, _, _, hname, hcolon, hvalue, .inr ⟨_, hcomma, h⟩⟩
  · rintro ⟨u, w, x, hname, hcolon, hvalue, hclose | ⟨y, hcomma, h⟩⟩
    · exact .lastMember hname hcolon hvalue hclose
    · exact .member hname hcolon hvalue hcomma h

theorem reads_elements_iff :
    Reads .elements t r ↔ ∃ x, Reads .value t x ∧
      (spaces x = 0x5D :: r ∨ ∃ y, spaces x = 0x2C :: y ∧ Reads .elements y r) := by
  constructor
  · intro h
    cases h with
    | lastElement hvalue hclose => exact ⟨_, hvalue, .inl hclose⟩
    | element hvalue hcomma h => exact ⟨_, hvalue, .inr ⟨_, hcomma, h⟩⟩
  · rintro ⟨x, hvalue, hclose | ⟨y, hcomma, h⟩⟩
    · exact .lastElement hvalue hclose
    · exact .element hvalue hcomma h

end Json
