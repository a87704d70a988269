import McuMediaServer.Base.Bytes
import Mathlib.Tactic.Ring

/-!
# Bit strings

The bits of a number and of a byte string, most significant bit first, as lists. A number stored in
some bits of a word is `ofBits` of a list; taking bits off either end of the list divides the number
or takes a remainder, and the bits of bytes put one after the other are the bits of the bytes
appended.
-/

namespace ByteSeq

/-- The low `n` bits of a number. -/
def toBits : Nat → Nat → List Bool
  | 0, _ => []
  | n + 1, v => v.testBit n :: toBits n v

/-- The bits of a byte string. -/
def byteBits (bytes : List UInt8) : List Bool :=
  bytes.flatMap fun b => toBits 8 b.toNat

/-- The number a byte string spells, most significant byte first. -/
def ofBytes (bytes : List UInt8) : Nat :=
  bytes.foldl (fun v b => v * 2 ^ 8 + b.toNat) 0

variable {xs ys bits : List Bool} {m n v : Nat}

attribute [local simp] toBits in
@[simp]
theorem length_toBits (n v : Nat) : (toBits n v).length = n := by
  induction n with
  | zero => rfl
  | succ n ih => simp [ih]

theorem ofBits_cons (b : Bool) (bits : List Bool) :
    ofBits (b :: bits) = b.toNat * 2 ^ bits.length + ofBits bits := by
  induction bits using List.reverseRecOn with
  | nil => simp [ofBits]
  | append_singleton bits c ih =>
    rw [← List.cons_append, ofBits_concat, ofBits_concat, ih, List.length_append,
      List.length_singleton, Nat.pow_succ]
    ring

theorem ofBits_append (xs ys : List Bool) :
    ofBits (xs ++ ys) = ofBits xs * 2 ^ ys.length + ofBits ys := by
  induction xs with
  | nil => simp
  | cons b xs ih =>
    rw [List.cons_append, ofBits_cons, ofBits_cons, ih, List.length_append, pow_add]
    ring

theorem ofBits_toBits (n v : Nat) : ofBits (toBits n v) = v % 2 ^ n := by
  induction n with
  | zero => simp [toBits, Nat.mod_one]
  | succ n ih =>
    rw [toBits, ofBits_cons, ih, length_toBits, Nat.testBit_eq_decide_div_mod_eq]
    have hdiv : v % 2 ^ (n + 1) = v % 2 ^ n + 2 ^ n * (v / 2 ^ n % 2) := by
      rw [Nat.pow_succ, Nat.mod_mul]
    rcases Nat.mod_two_eq_zero_or_one (v / 2 ^ n) with h | h <;> simp [h, hdiv, Nat.add_comm]

/-- Bit strings of one length are told apart by their numbers. -/
theorem ofBits_injective (hlen : xs.length = ys.length) (h : ofBits xs = ofBits ys) : xs = ys := by
  induction xs generalizing ys with
  | nil => exact (List.length_eq_zero_iff.1 hlen.symm).symm
  | cons b xs ih =>
    cases ys with
    | nil => cases hlen
    | cons c ys =>
      have hlen' : xs.length = ys.length := Nat.succ.inj hlen
      have hx := ofBits_lt xs
      have hy := ofBits_lt ys
      rw [ofBits_cons, ofBits_cons, hlen'] at h
      rw [hlen'] at hx
      have hbc : b = c := by
        cases b <;> cases c <;> simp at h ⊢ <;> omega
      subst hbc
      rw [ih hlen' (by omega)]

theorem toBits_ofBits (bits : List Bool) : toBits bits.length (ofBits bits) = bits :=
  ofBits_injective (length_toBits _ _) (by
    rw [ofBits_toBits, Nat.mod_eq_of_lt (ofBits_lt bits)])

theorem toBits_add (m n v : Nat) : toBits (m + n) v = toBits m (v / 2 ^ n) ++ toBits n v := by
  refine ofBits_injective (by simp) ?_
  rw [ofBits_append, ofBits_toBits, ofBits_toBits, ofBits_toBits, length_toBits, Nat.add_comm m n,
    pow_add, Nat.mod_mul]
  ring

theorem toBits_mod (n v : Nat) : toBits n (v % 2 ^ n) = toBits n v :=
  ofBits_injective (by simp) (by rw [ofBits_toBits, ofBits_toBits, Nat.mod_mod])

@[simp]
theorem toBits_zero_right (n : Nat) : toBits n 0 = List.replicate n false := by
  induction n with
  | zero => rfl
  | succ n ih => rw [toBits, ih, Nat.zero_testBit, List.replicate_succ]

theorem byteBits_append (a b : List UInt8) : byteBits (a ++ b) = byteBits a ++ byteBits b :=
  List.flatMap_append

@[simp]
theorem length_byteBits (bytes : List UInt8) : (byteBits bytes).length = 8 * bytes.length := by
  induction bytes with
  | nil => rfl
  | cons b bytes ih =>
    rw [byteBits, List.flatMap_cons, List.length_append, length_toBits, ← byteBits, ih,
      List.length_cons]
    omega

theorem ofBits_byteBits (bytes : List UInt8) : ofBits (byteBits bytes) = ofBytes bytes := by
  induction bytes using List.reverseRecOn with
  | nil => rfl
  | append_singleton bytes b ih =>
    have hb : ofBits (byteBits [b]) = b.toNat := by
      rw [byteBits, List.flatMap_singleton, ofBits_toBits, Nat.mod_eq_of_lt b.toNat_lt]
    rw [byteBits_append, ofBits_append, hb, ih, ofBytes, ofBytes, List.foldl_append,
      List.foldl_cons, List.foldl_nil]
    rfl

section BigEndian

variable (v : Nat)

theorem byteBits_be1 : byteBits (be1 v) = toBits 8 v := by
  rw [be1, byteBits, List.flatMap_singleton, UInt8.toNat_ofNat', toBits_mod]

theorem byteBits_be2 : byteBits (be2 v) = toBits 16 v := by
  rw [be2, byteBits_append, byteBits_be1, byteBits_be1, ← toBits_add]

theorem byteBits_be3 : byteBits (be3 v) = toBits 24 v := by
  rw [be3, byteBits_append, byteBits_be1, byteBits_be2, ← toBits_add]

theorem byteBits_be4 : byteBits (be4 v) = toBits 32 v := by
  rw [be4, byteBits_append, byteBits_be2, byteBits_be2, ← toBits_add]

end BigEndian

end ByteSeq
