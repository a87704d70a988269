import Mathlib.Data.UInt
import Mathlib.Data.Nat.Bitwise
import Mathlib.Data.List.Induction
import Mathlib.Tactic.Common

/-!
# Byte strings and big-endian numbers

Bounded reads of big-endian numbers from a byte string and the encodings they read back. A read
past the end has no value, so a parser written with these reads says by itself which offsets it
touches. The second part is about lists of bits read as a number, most significant bit first.
-/

namespace ByteSeq

/-! ## Reading and writing numbers -/

/-- The byte at offset `i`. -/
def get1 (data : List UInt8) (i : Nat) : Option Nat :=
  data[i]?.map UInt8.toNat

/-- The 16-bit number at offset `i`. -/
def get2 (data : List UInt8) (i : Nat) : Option Nat := do
  let high ← get1 data i
  let low ← get1 data (i + 1)
  return high * 2 ^ 8 + low

/-- The 24-bit number at offset `i`. -/
def get3 (data : List UInt8) (i : Nat) : Option Nat := do
  let high ← get1 data i
  let low ← get2 data (i + 1)
  return high * 2 ^ 16 + low

/-- The 32-bit number at offset `i`. -/
def get4 (data : List UInt8) (i : Nat) : Option Nat := do
  let high ← get2 data i
  let low ← get2 data (i + 2)
  return high * 2 ^ 16 + low

/-- The 64-bit number at offset `i`, most significant byte first. -/
def get8 (data : List UInt8) (i : Nat) : Option Nat := do
  let high ← get4 data i
  let low ← get4 data (i + 4)
  return high * 2 ^ 32 + low

/-- The `n` bytes from offset `i` on. -/
def slice (data : List UInt8) (i n : Nat) : Option (List UInt8) :=
  if i + n ≤ data.length then some ((data.drop i).take n) else none

/-- The low byte of a number. -/
def be1 (v : Nat) : List UInt8 := [.ofNat v]

/-- The low 16 bits of a number, most significant byte first. -/
def be2 (v : Nat) : List UInt8 := be1 (v / 2 ^ 8) ++ be1 v

/-- The low 24 bits of a number, most significant byte first. -/
def be3 (v : Nat) : List UInt8 := be1 (v / 2 ^ 16) ++ be2 v

/-- The low 32 bits of a number, most significant byte first. -/
def be4 (v : Nat) : List UInt8 := be2 (v / 2 ^ 16) ++ be2 v

/-- The low 64 bits of a number, most significant byte first. -/
def be8 (v : Nat) : List UInt8 := be4 (v / 2 ^ 32) ++ be4 v

section Length

variable (v : Nat)

@[simp] theorem length_be1 : (be1 v).length = 1 := by simp [be1]
@[simp] theorem length_be2 : (be2 v).length = 2 := by simp [be2]
@[simp] theorem length_be3 : (be3 v).length = 3 := by simp [be3]
@[simp] theorem length_be4 : (be4 v).length = 4 := by simp [be4]
@[simp] theorem length_be8 : (be8 v).length = 8 := by simp [be8]

end Length

section Bounds

variable {data : List UInt8} {i n v : Nat}

theorem get1_lt (h : get1 data i = some v) : v < 2 ^ 8 := by
  obtain ⟨b, -, rfl⟩ := Option.map_eq_some_iff.1 h
  exact b.toNat_lt

theorem get2_lt (h : get2 data i = some v) : v < 2 ^ 16 := by
  simp only [get2, Option.bind_eq_bind, Option.bind_eq_some_iff, pure, Option.some.injEq] at h
  obtain ⟨a, ha, b, hb, rfl⟩ := h
  have := get1_lt ha
  have := get1_lt hb
  omega

theorem get3_lt (h : get3 data i = some v) : v < 2 ^ 24 := by
  simp only [get3, Option.bind_eq_bind, Option.bind_eq_some_iff, pure, Option.some.injEq] at h
  obtain ⟨a, ha, b, hb, rfl⟩ := h
  have := get1_lt ha
  have := get2_lt hb
  omega

theorem get4_lt (h : get4 data i = some v) : v < 2 ^ 32 := by
  simp only [get4, Option.bind_eq_bind, Option.bind_eq_some_iff, pure, Option.some.injEq] at h
  obtain ⟨a, ha, b, hb, rfl⟩ := h
  have := get2_lt ha
  have := get2_lt hb
  omega

variable (data i n)

theorem isSome_get1 : (get1 data i).isSome ↔ i < data.length := by
  simp [get1]

theorem isSome_get2 : (get2 data i).isSome ↔ i + 1 < data.length := by
  rcases Nat.lt_or_ge (i + 1) data.length with h | h
  · simp [get2, get1, h, List.getElem?_eq_getElem (show i < data.length by omega)]
  · simp [get2, get1, Nat.not_lt.2 h]

theorem isSome_get3 : (get3 data i).isSome ↔ i + 2 < data.length := by
  have h1 := isSome_get1 data i
  have h2 := isSome_get2 data (i + 1)
  cases ha : get1 data i <;> cases hb : get2 data (i + 1) <;>
    simp [get3, ha, hb] at h1 h2 ⊢ <;> omega

theorem isSome_get4 : (get4 data i).isSome ↔ i + 3 < data.length := by
  have h1 := isSome_get2 data i
  have h2 := isSome_get2 data (i + 2)
  cases ha : get2 data i <;> cases hb : get2 data (i + 2) <;>
    simp [get4, ha, hb] at h1 h2 ⊢ <;> omega

theorem isSome_slice : (slice data i n).isSome ↔ i + n ≤ data.length := by
  unfold slice
  split <;> simp_all

end Bounds

theorem isSome_bind {α β : Type} {x : Option α} {f : α → Option β} (hx : x.isSome)
    (hf : ∀ a, (f a).isSome) : (x >>= f).isSome := by
  obtain ⟨a, rfl⟩ := Option.isSome_iff_exists.1 hx
  exact hf a

theorem isSome_of_bind {α β : Type} {x : Option α} {f : α → Option β} (h : (x >>= f).isSome) :
    x.isSome := by
  cases x with
  | none => exact h
  | some a => rfl

section Append

variable {xs ys : List UInt8} {i n : Nat}

theorem get1_append (h : xs.length ≤ i) : get1 (xs ++ ys) i = get1 ys (i - xs.length) := by
  rw [get1, get1, List.getElem?_append_right h]

theorem get2_append (h : xs.length ≤ i) : get2 (xs ++ ys) i = get2 ys (i - xs.length) := by
  rw [get2, get2, get1_append h, get1_append (by omega), Nat.sub_add_comm h]

theorem get4_append (h : xs.length ≤ i) : get4 (xs ++ ys) i = get4 ys (i - xs.length) := by
  rw [get4, get4, get2_append h, get2_append (by omega), Nat.sub_add_comm h]

theorem get8_append (h : xs.length ≤ i) : get8 (xs ++ ys) i = get8 ys (i - xs.length) := by
  rw [get8, get8, get4_append h, get4_append (by omega), Nat.sub_add_comm h]

@[simp]
theorem get1_be1 (v : Nat) : get1 (be1 v ++ ys) 0 = some (v % 2 ^ 8) := by
  simp [get1, be1]

@[simp]
theorem get1_be1_self (v : Nat) : get1 (be1 v) 0 = some (v % 2 ^ 8) := by
  rw [← List.append_nil (be1 v), get1_be1]

@[simp]
theorem get2_be2 (v : Nat) : get2 (be2 v ++ ys) 0 = some (v % 2 ^ 16) := by
  simp only [get2, be2, List.append_assoc, get1_be1, Nat.zero_add,
    get1_append (length_be1 _).le, length_be1, Nat.sub_self, Option.bind_eq_bind,
    Option.bind_some, pure, Option.some.injEq]
  omega

@[simp]
theorem get2_be2_self (v : Nat) : get2 (be2 v) 0 = some (v % 2 ^ 16) := by
  rw [← List.append_nil (be2 v), get2_be2]

@[simp]
theorem get3_be3 (v : Nat) : get3 (be3 v ++ ys) 0 = some (v % 2 ^ 24) := by
  simp only [get3, be3, List.append_assoc, get1_be1, Nat.zero_add,
    get2_append (length_be1 _).le, length_be1, Nat.sub_self, get2_be2, Option.bind_eq_bind,
    Option.bind_some, pure, Option.some.injEq]
  omega

@[simp]
theorem get4_be4 (v : Nat) : get4 (be4 v ++ ys) 0 = some (v % 2 ^ 32) := by
  simp only [get4, be4, List.append_assoc, get2_be2, Nat.zero_add,
    get2_append (length_be2 _).le, length_be2, Nat.sub_self, Option.bind_eq_bind,
    Option.bind_some, pure, Option.some.injEq]
  omega

@[simp]
theorem get4_be4_self (v : Nat) : get4 (be4 v) 0 = some (v % 2 ^ 32) := by
  rw [← List.append_nil (be4 v), get4_be4]

@[simp]
theorem get8_be8 (v : Nat) : get8 (be8 v ++ ys) 0 = some (v % 2 ^ 64) := by
  simp only [get8, be8, List.append_assoc, get4_be4, Nat.zero_add,
    get4_append (length_be4 _).le, length_be4, Nat.sub_self, Option.bind_eq_bind,
    Option.bind_some, pure, Option.some.injEq]
  omega

theorem slice_append (h : xs.length ≤ i) : slice (xs ++ ys) i n = slice ys (i - xs.length) n := by
  unfold slice
  rw [List.length_append, List.drop_append, List.drop_eq_nil_of_le h, List.nil_append]
  exact if_congr (by omega) rfl rfl

@[simp]
theorem slice_left : slice (xs ++ ys) 0 xs.length = some xs := by
  simp [slice]

theorem length_of_slice {data : List UInt8} (h : slice data i n = some xs) : xs.length = n := by
  unfold slice at h
  split at h
  · cases h
    rw [List.length_take, List.length_drop]
    omega
  · cases h

end Append

theorem be1_mod (v : Nat) : be1 (v % 2 ^ 8) = be1 v := by
  simp only [be1, List.cons.injEq, and_true, ← UInt8.toNat_inj, UInt8.toNat_ofNat']
  omega

theorem be2_mod (v : Nat) : be2 (v % 2 ^ 16) = be2 v := by
  have hhigh : v % 2 ^ 16 / 2 ^ 8 = v / 2 ^ 8 % 2 ^ 8 := by omega
  have hlow : v % 2 ^ 16 % 2 ^ 8 = v % 2 ^ 8 := by omega
  rw [be2, be2, hhigh, be1_mod, ← be1_mod (v % 2 ^ 16), hlow, be1_mod]

section Rewrite

variable {data : List UInt8} {i v : Nat}

theorem be1_of_get1 (h : get1 data i = some v) : be1 v = (data.drop i).take 1 := by
  obtain ⟨b, hb, rfl⟩ := Option.map_eq_some_iff.1 h
  rw [be1, UInt8.ofNat_toNat, List.take_one, List.head?_drop, hb, Option.toList_some]

theorem be2_of_get2 (h : get2 data i = some v) : be2 v = (data.drop i).take 2 := by
  simp only [get2, Option.bind_eq_bind, Option.bind_eq_some_iff, pure, Option.some.injEq] at h
  obtain ⟨a, ha, b, hb, rfl⟩ := h
  have hb' := get1_lt hb
  have hhigh : (a * 2 ^ 8 + b) / 2 ^ 8 = a := by omega
  have hlow : (a * 2 ^ 8 + b) % 2 ^ 8 = b := by omega
  rw [be2, ← be1_mod (a * 2 ^ 8 + b), hlow, hhigh, be1_of_get1 ha, be1_of_get1 hb,
    ← List.drop_drop, ← List.take_add]

theorem be4_of_get4 (h : get4 data i = some v) : be4 v = (data.drop i).take 4 := by
  simp only [get4, Option.bind_eq_bind, Option.bind_eq_some_iff, pure, Option.some.injEq] at h
  obtain ⟨a, ha, b, hb, rfl⟩ := h
  have hb' := get2_lt hb
  have hhigh : (a * 2 ^ 16 + b) / 2 ^ 16 = a := by omega
  have hlow : (a * 2 ^ 16 + b) % 2 ^ 16 = b := by omega
  rw [be4, ← be2_mod (a * 2 ^ 16 + b), hlow, hhigh, be2_of_get2 ha, be2_of_get2 hb,
    ← List.drop_drop, ← List.take_add]

end Rewrite
/-! ## Bits -/

theorem shiftLeft_or_of_lt {a b i : Nat} (h : b < 2 ^ i) : a <<< i ||| b = a * 2 ^ i + b := by
  rw [← Nat.shiftLeft_add_eq_or_of_lt h, Nat.shiftLeft_eq]

/-- The bits that a mask of `k` bits from bit `j` on leaves. -/
theorem land_mask (x k j : Nat) : x &&& ((2 ^ k - 1) <<< j) = (x / 2 ^ j % 2 ^ k) <<< j := by
  rw [← Nat.and_two_pow_sub_one_eq_mod, ← Nat.shiftRight_eq_div_pow]
  refine Nat.eq_of_testBit_eq fun i => ?_
  rcases Nat.lt_or_ge i j with hi | hi
  · simp [Nat.testBit_shiftLeft, Nat.testBit_and, Nat.not_le.2 hi]
  · simp [Nat.testBit_shiftLeft, Nat.testBit_and, Nat.testBit_shiftRight, hi, Bool.and_comm]

/-- The number whose bits are those of a list, the first one being the most significant. -/
def ofBits (bits : List Bool) : Nat :=
  bits.foldl (fun v b => 2 * v + b.toNat) 0

@[simp]
theorem ofBits_nil : ofBits [] = 0 := rfl

@[simp]
theorem ofBits_concat (bits : List Bool) (b : Bool) :
    ofBits (bits ++ [b]) = 2 * ofBits bits + b.toNat := by
  rw [ofBits, List.foldl_append, List.foldl_cons, List.foldl_nil, ofBits]

theorem ofBits_lt (bits : List Bool) : ofBits bits < 2 ^ bits.length := by
  induction bits using List.reverseRecOn with
  | nil => simp
  | append_singleton bits b ih =>
    have hb : b.toNat ≤ 1 := b.toNat_le
    rw [ofBits_concat, List.length_append, List.length_singleton, Nat.pow_succ]
    omega

theorem ofBits_append_replicate (bits : List Bool) (n : Nat) :
    ofBits (bits ++ List.replicate n false) = ofBits bits * 2 ^ n := by
  induction n with
  | zero => simp
  | succ n ih =>
    rw [List.replicate_succ', ← List.append_assoc, ofBits_concat, ih, Nat.pow_succ,
      Bool.toNat_false, Nat.add_zero, Nat.mul_comm 2, Nat.mul_assoc]

/-- Bit `i` of the number, counted from the least significant, is the bit `i` places before the end
of the list. -/
theorem testBit_ofBits (bits : List Bool) (i : Nat) :
    (ofBits bits).testBit i = (bits.reverse[i]?).getD false := by
  induction bits using List.reverseRecOn generalizing i with
  | nil => simp
  | append_singleton bits b ih =>
    rw [ofBits_concat, List.reverse_append, List.reverse_singleton, List.singleton_append]
    cases i with
    | zero => cases b <;> simp [Nat.testBit_zero, Nat.add_mod]
    | succ i =>
      have hdiv : (2 * ofBits bits + b.toNat) / 2 = ofBits bits := by
        have := b.toNat_le
        omega
      rw [Nat.testBit_succ, hdiv, ih, List.getElem?_cons_succ]

end ByteSeq
