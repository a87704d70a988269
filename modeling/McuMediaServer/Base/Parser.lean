import Mathlib.Algebra.Ring.Nat
import Mathlib.Data.List.Basic
import Mathlib.Tactic.Common

/-!
# Parsers that claim bytes

A parser is given the data from a pointer on and the size it may use. It has no value when it reads
past the data, and otherwise returns nothing, for an error, or what it parsed and the number of
bytes it claims, which the caller skips. `parseAll` is the loop that parses one value after the
other until the size is used up.
-/

/-- What a parser returns: nothing for an error, or what it parsed and the bytes it claims. -/
abbrev Parsed (α : Type) := Option (α × Nat)

namespace ByteParser

variable {α β : Type}

/-- Parse until the size is used up. A parser that claims no byte is an error. -/
def parseAll (parse : List UInt8 → Nat → Option (Parsed α)) :
    Nat → List UInt8 → Nat → Option (Parsed (List α))
  | _, _, 0 => some (some ([], 0))
  | 0, _, _ + 1 => none
  | fuel + 1, data, size + 1 => do
    match ← parse data (size + 1) with
    | none => return none
    | some (value, parsed) =>
      if parsed = 0 then
        return none
      match ← parseAll parse fuel (data.drop parsed) (size + 1 - parsed) with
      | none => return none
      | some (values, len) => return some (value :: values, parsed + len)

theorem map_parsed_eq_some {f : α → β} {x : Option (Parsed α)} {v : β} {n : Nat}
    (h : (x.map fun r => r.map (Prod.map f id)) = some (some (v, n))) :
    ∃ a, v = f a ∧ x = some (some (a, n)) := by
  obtain ⟨r, rfl, hr⟩ := Option.map_eq_some_iff.1 h
  obtain ⟨⟨a, m⟩, rfl, ha⟩ := Option.map_eq_some_iff.1 hr
  obtain ⟨hfst, hsnd⟩ := Prod.mk.inj ha
  obtain rfl : m = n := hsnd
  exact ⟨a, hfst.symm, rfl⟩

variable {bytes : α → List UInt8}

section ParseAll

variable {parse : List UInt8 → Nat → Option (Parsed α)} {fuel size len : Nat}
  {data : List UInt8} {values : List α}

attribute [local simp] parseAll in
@[simp]
theorem parseAll_zero : parseAll parse fuel data 0 = some (some ([], 0)) := by
  cases fuel <;> simp

/-- What a successful loop over some bytes did first. -/
theorem parseAll_eq_some (hsize : 0 < size)
    (h : parseAll parse fuel data size = some (some (values, len))) :
    ∃ fuel' value parsed values' len', fuel = fuel' + 1 ∧ 0 < parsed ∧
      parse data size = some (some (value, parsed)) ∧
      parseAll parse fuel' (data.drop parsed) (size - parsed) = some (some (values', len')) ∧
      values = value :: values' ∧ len = parsed + len' := by
  obtain ⟨size, rfl⟩ := Nat.exists_eq_succ_of_ne_zero (Nat.ne_of_gt hsize)
  cases fuel with
  | zero => cases h
  | succ fuel =>
    simp only [parseAll, Option.bind_eq_bind, Option.bind_eq_some_iff] at h
    obtain ⟨r, hr, h⟩ := h
    cases r with
    | none => cases h
    | some r =>
      obtain ⟨value, parsed⟩ := r
      dsimp only at h
      split at h
      case isTrue => cases h
      case isFalse hpos =>
        simp only [Option.bind_eq_some_iff] at h
        obtain ⟨rest, hrest, h⟩ := h
        cases rest with
        | none => cases h
        | some rest =>
          obtain ⟨values', len'⟩ := rest
          cases h
          exact ⟨fuel, value, parsed, values', len', rfl, Nat.pos_of_ne_zero hpos, hr, hrest,
            rfl, rfl⟩

/-- The first value of a loop and what is left to it. -/
theorem parseAll_succ {value : α} {parsed : Nat} (hsize : 0 < size) (hpos : 0 < parsed)
    (h : parse data size = some (some (value, parsed)))
    (hrest : parseAll parse fuel (data.drop parsed) (size - parsed) =
      some (some (values, len))) :
    parseAll parse (fuel + 1) data size = some (some (value :: values, parsed + len)) := by
  obtain ⟨size, rfl⟩ := Nat.exists_eq_succ_of_ne_zero (Nat.ne_of_gt hsize)
  rw [parseAll, h]
  simp only [Option.bind_eq_bind, Option.bind_some, if_neg (Nat.ne_of_gt hpos)]
  rw [show size + 1 - parsed = size.succ - parsed by rfl, hrest]
  rfl

/-- The loop stays inside the data if the parser does with some bytes to spare. -/
theorem isSome_parseAll {spare : Nat}
    (h : ∀ data size, size + spare ≤ data.length → (parse data size).isSome)
    (hfuel : size ≤ fuel) (hlen : size + spare ≤ data.length) :
    (parseAll parse fuel data size).isSome := by
  induction fuel generalizing data size with
  | zero =>
    rw [Nat.le_zero.1 hfuel, parseAll_zero]
    rfl
  | succ fuel ih =>
    cases size with
    | zero =>
      rw [parseAll_zero]
      rfl
    | succ size =>
      obtain ⟨r, hr⟩ := Option.isSome_iff_exists.1 (h data (size + 1) hlen)
      rw [parseAll, hr]
      cases r with
      | none => rfl
      | some r =>
        obtain ⟨value, parsed⟩ := r
        simp only [Option.bind_eq_bind, Option.bind_some]
        split
        · rfl
        case isFalse hpos =>
          have hrest : (parseAll parse fuel (data.drop parsed) (size + 1 - parsed)).isSome := by
            rcases Nat.lt_or_ge parsed (size + 1) with hlt | hge
            · refine ih (by omega) ?_
              rw [List.length_drop]
              omega
            · rw [Nat.sub_eq_zero_of_le hge, parseAll_zero]
              rfl
          obtain ⟨rest, hrest⟩ := Option.isSome_iff_exists.1 hrest
          rw [hrest]
          cases rest <;> rfl

/-- What holds of every value the parser returns holds of all the loop returns. -/
theorem forall_mem_of_parseAll {P : α → Prop}
    (hP : ∀ data size value parsed, parse data size = some (some (value, parsed)) → P value)
    (h : parseAll parse fuel data size = some (some (values, len))) : ∀ v ∈ values, P v := by
  induction fuel generalizing data size values len with
  | zero =>
    cases size with
    | zero =>
      rw [parseAll_zero] at h
      cases h
      exact fun _ hv => absurd hv List.not_mem_nil
    | succ size => cases h
  | succ fuel ih =>
    cases size with
    | zero =>
      rw [parseAll_zero] at h
      cases h
      exact fun _ hv => absurd hv List.not_mem_nil
    | succ size =>
      obtain ⟨fuel', value, parsed, values', len', hf, -, hvalue, hrest, rfl, -⟩ :=
        parseAll_eq_some (Nat.succ_pos size) h
      cases hf
      intro v hv
      rcases List.mem_cons.1 hv with rfl | hv
      · exact hP _ _ _ _ hvalue
      · exact ih hrest v hv

theorem length_le_length_flatMap
    (h : ∀ v ∈ values, 0 < (bytes v).length) : values.length ≤ (values.flatMap bytes).length := by
  induction values with
  | nil => exact Nat.zero_le _
  | cons v values ih =>
    have hv := h v List.mem_cons_self
    have hrest := ih fun w hw => h w (List.mem_cons_of_mem v hw)
    rw [List.flatMap_cons, List.length_append, List.length_cons]
    omega

/-- The loop over encodings one after the other gives what the parser makes of each. -/
theorem parseAll_flatMap {onWire : α → α}
    (hP : ∀ v ∈ values, 0 < (bytes v).length ∧ ∀ rest size, (bytes v).length ≤ size →
      parse (bytes v ++ rest) size = some (some (onWire v, (bytes v).length)))
    (hfuel : values.length ≤ fuel) :
    parseAll parse fuel (values.flatMap bytes) (values.flatMap bytes).length =
      some (some (values.map onWire, (values.flatMap bytes).length)) := by
  induction values generalizing fuel with
  | nil => simp
  | cons v values ih =>
    obtain ⟨hpos, hparse⟩ := hP v List.mem_cons_self
    cases fuel with
    | zero => exact absurd hfuel (Nat.not_succ_le_zero _)
    | succ fuel =>
      have hrest := ih (fun w hw => hP w (List.mem_cons_of_mem v hw)) (Nat.le_of_succ_le_succ hfuel)
      have hlen : (List.flatMap bytes (v :: values)).length =
          (bytes v).length + (values.flatMap bytes).length := by
        rw [List.flatMap_cons, List.length_append]
      rw [List.map_cons, hlen]
      refine parseAll_succ (by omega) hpos ?_ ?_
      · rw [List.flatMap_cons]
        exact hparse _ _ (by omega)
      · rw [List.flatMap_cons, List.drop_left, Nat.add_sub_cancel_left]
        exact hrest

/-- Encodings one after the other are read back as they were if and only if the parser reads each of
them back. -/
theorem parseAll_flatMap_iff {onWire : α → α} {K : α → Prop}
    (hK : ∀ data size value parsed, parse data size = some (some (value, parsed)) → K value)
    (hP : ∀ v, K v → 0 < (bytes v).length ∧ ∀ rest size, (bytes v).length ≤ size →
      parse (bytes v ++ rest) size = some (some (onWire v, (bytes v).length)))
    (hfuel : (values.flatMap bytes).length ≤ fuel) :
    (∃ n, parseAll parse fuel (values.flatMap bytes) (values.flatMap bytes).length =
      some (some (values, n))) ↔ ∀ v ∈ values, K v ∧ onWire v = v := by
  have hall (hkind : ∀ v ∈ values, K v) := parseAll_flatMap
    (fun v hv => hP v (hkind v hv))
    (Nat.le_trans (length_le_length_flatMap fun v hv => (hP v (hkind v hv)).1) hfuel)
  constructor
  · intro ⟨n, h⟩
    have hkind := forall_mem_of_parseAll hK h
    rw [hall hkind, Option.some.injEq, Option.some.injEq, Prod.mk.injEq] at h
    have hmap : values.map onWire = values.map id := by rw [h.1, List.map_id]
    exact fun v hv => ⟨hkind v hv, List.map_inj_left.1 hmap v hv⟩
  · intro h
    have hmap : values.map onWire = values := by
      rw [List.map_congr_left fun v hv => (h v hv).2, List.map_id']
    have hvalues := hall fun v hv => (h v hv).1
    rw [hmap] at hvalues
    exact ⟨_, hvalues⟩

/-- A parser that takes all there is makes a loop of at most one value. -/
theorem length_le_one_of_parseAll
    (hP : ∀ data size value parsed, parse data size = some (some (value, parsed)) →
      size ≤ parsed)
    (h : parseAll parse fuel data size = some (some (values, len))) : values.length ≤ 1 := by
  cases size with
  | zero =>
    rw [parseAll_zero] at h
    cases h
    exact Nat.zero_le 1
  | succ size =>
    obtain ⟨fuel', value, parsed, values', len', -, -, hvalue, hrest, rfl, -⟩ :=
      parseAll_eq_some (Nat.succ_pos size) h
    rw [Nat.sub_eq_zero_of_le (hP _ _ _ _ hvalue), parseAll_zero] at hrest
    cases hrest
    exact Nat.le_refl 1

end ParseAll

end ByteParser
