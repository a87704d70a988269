import Mathlib.Algebra.Order.Ring.Nat
import Mathlib.Data.Nat.Basic
import Mathlib.Tactic.Common
import Mathlib.Tactic.Ring
import Mathlib.Tactic.Linarith

/-!
# Numbers cut to their first bits

A number is stored as an exponent and a significand of `w` bits, which drops the bits below the
exponent. The exponent is searched from below: it is the first `i` for which the number is at most
`top w i`, the largest number with the exponent `i`.

The number that is read back is close to the stored one, but storing does not keep the order. The
numbers above `top w i` that still have `w + i` bits get the exponent `i + 1`, although a
significand of `w` bits would hold them with the exponent `i`; they are read back as less than
`top w i` itself. `trunc_le_trunc_iff` says that these are all pairs whose order is lost.
-/

namespace Significand

/-- The largest number with a significand of `w` bits and the exponent `i`. -/
def top (w i : Nat) : Nat := (2 ^ w - 1) * 2 ^ i

/-- The number without the bits below the exponent. -/
def trunc (i n : Nat) : Nat := n / 2 ^ i * 2 ^ i

/-- `i` is the exponent a search from below finds for `n`. -/
structure IsExp (w i n : Nat) : Prop where
  le_top : n ≤ top w i
  top_lt : ∀ k < i, top w k < n

/-- The larger of the two numbers has no place behind the significands of the exponent of the
smaller one, which is the largest of these. -/
def Gap (w a b : Nat) : Prop := ∃ i, a = top w i ∧ a < b ∧ b < 2 ^ (w + i)

variable {w i j a b n : Nat}

theorem top_add (w i : Nat) : top w i + 2 ^ i = 2 ^ (w + i) := by
  have hpos : 0 < 2 ^ w := by positivity
  rw [top, Nat.sub_mul, Nat.one_mul, ← pow_add]
  exact Nat.sub_add_cancel (Nat.pow_le_pow_right (by decide) (by omega))

theorem top_lt_pow (w i : Nat) : top w i < 2 ^ (w + i) := by
  have hpos : 0 < 2 ^ i := by positivity
  have hadd := top_add w i
  omega

theorem top_le_top (h : i ≤ j) : top w i ≤ top w j :=
  Nat.mul_le_mul_left _ (Nat.pow_le_pow_right (by decide) h)

theorem trunc_le (i n : Nat) : trunc i n ≤ n :=
  Nat.div_mul_le_self n (2 ^ i)

theorem lt_trunc_add (i n : Nat) : n < trunc i n + 2 ^ i := by
  have hmod := Nat.mod_lt n (show 2 ^ i > 0 by positivity)
  have hdiv := Nat.div_add_mod' n (2 ^ i)
  rw [trunc]
  omega

theorem trunc_mono (h : a ≤ b) : trunc i a ≤ trunc i b :=
  Nat.mul_le_mul_right _ (Nat.div_le_div_right h)

theorem le_trunc (k : Nat) (h : k * 2 ^ i ≤ n) : k * 2 ^ i ≤ trunc i n :=
  Nat.mul_le_mul_right _ ((Nat.le_div_iff_mul_le (by positivity)).2 h)

namespace IsExp

theorem div_lt (h : IsExp w i n) : n / 2 ^ i < 2 ^ w := by
  rw [Nat.div_lt_iff_lt_mul (by positivity), ← pow_add]
  exact h.le_top.trans_lt (top_lt_pow w i)

theorem le (ha : IsExp w i a) (hb : IsExp w j b) (hab : a ≤ b) : i ≤ j := by
  by_contra hij
  have := ha.top_lt j (Nat.lt_of_not_le hij)
  have := hb.le_top
  omega

theorem unique (ha : IsExp w i n) (hb : IsExp w j n) : i = j :=
  Nat.le_antisymm (ha.le hb (Nat.le_refl n)) (hb.le ha (Nat.le_refl n))

theorem of_top (hw : 0 < w) (i : Nat) : IsExp w i (top w i) where
  le_top := Nat.le_refl _
  top_lt k hk := by
    have hpos : 0 < 2 ^ w - 1 := Nat.sub_pos_of_lt (Nat.one_lt_two_pow (by omega))
    exact Nat.mul_lt_mul_of_pos_left (Nat.pow_lt_pow_right (by decide) hk) hpos

end IsExp

/-- A number in the gap behind `top w i` is cut to less than `top w i`. -/
theorem trunc_lt_of_gap (hw : 0 < w) (h : top w i < b) (hb : b < 2 ^ (w + i)) :
    trunc (i + 1) b < top w i := by
  have hadd := top_add w i
  have hhalf : 2 ^ (w + i) = 2 ^ (w - 1) * 2 ^ (i + 1) := by
    rw [← pow_add]
    congr 1
    omega
  have hlt : b / 2 ^ (i + 1) < 2 ^ (w - 1) := by
    rw [Nat.div_lt_iff_lt_mul (by positivity), ← hhalf]
    exact hb
  have hmul : b / 2 ^ (i + 1) * 2 ^ (i + 1) + 2 ^ (i + 1) ≤ 2 ^ (w + i) := by
    rw [hhalf, ← Nat.succ_mul]
    exact Nat.mul_le_mul_right _ hlt
  have hsucc : 2 ^ (i + 1) = 2 * 2 ^ i := pow_succ' 2 i
  have hpos : 0 < 2 ^ i := by positivity
  rw [trunc]
  omega

/-- **Order.** Of two numbers in order the truncated ones are in order, unless the second is in the
gap behind the first. -/
theorem trunc_le_trunc_iff (hw : 1 < w) (ha : IsExp w i a) (hb : IsExp w j b) (hab : a ≤ b) :
    trunc i a ≤ trunc j b ↔ ¬Gap w a b := by
  constructor
  · rintro hle ⟨k, rfl, hlt, hpow⟩
    obtain rfl := ha.unique (IsExp.of_top (by omega) k)
    have hj : i < j := by
      by_contra hji
      have := hb.le_top.trans (top_le_top (w := w) (Nat.le_of_not_lt hji))
      omega
    -- The gap ends below the numbers of the next exponent but one.
    have hj' : j = i + 1 := by
      by_contra hne
      have htop := hb.top_lt (i + 1) (by omega)
      have hadd := top_add w (i + 1)
      have hdouble : 2 ^ (w + (i + 1)) = 2 * 2 ^ (w + i) := pow_succ' 2 (w + i)
      have hsmall : 2 ^ (i + 1) ≤ 2 ^ (w + i) := Nat.pow_le_pow_right (by decide) (by omega)
      omega
    subst hj'
    have hcut := trunc_lt_of_gap (by omega) hlt hpow
    have hself : trunc i (top w i) = top w i := by
      rw [trunc, top, Nat.mul_div_cancel _ (by positivity)]
    omega
  · intro hgap
    rcases Nat.eq_or_lt_of_le (ha.le hb hab) with rfl | hij
    · exact trunc_mono hab
    obtain ⟨k, rfl⟩ : ∃ k, j = k + 1 := ⟨j - 1, by omega⟩
    have hk := hb.top_lt k (by omega)
    have hadd := top_add w k
    have hhalf : 2 ^ (w + k) = 2 ^ (w - 1) * 2 ^ (k + 1) := by
      rw [← pow_add]
      congr 1
      omega
    have hleft := trunc_le i a
    have hatop := ha.le_top.trans (top_le_top (w := w) (show i ≤ k by omega))
    have hpos : 0 < 2 ^ k := by positivity
    by_cases hbig : 2 ^ (w + k) ≤ b
    · rw [hhalf] at hbig
      have hcut : 2 ^ (w - 1) * 2 ^ (k + 1) ≤ trunc (k + 1) b := le_trunc _ hbig
      omega
    · -- `b` is cut to the last multiple below `2 ^ (w + k)`, and `a` is not above it.
      have hsucc : 2 ^ (k + 1) = 2 * 2 ^ k := pow_succ' 2 k
      have hone : 1 ≤ 2 ^ (w - 1) := Nat.one_le_two_pow
      have hlast : (2 ^ (w - 1) - 1) * 2 ^ (k + 1) + 2 ^ (k + 1) = 2 ^ (w + k) := by
        rw [hhalf, ← Nat.succ_mul, Nat.succ_eq_add_one, Nat.sub_add_cancel hone]
      have hcut := le_trunc (i := k + 1) (n := b) (2 ^ (w - 1) - 1) (by omega)
      have hne : a ≠ top w k := fun heq => hgap ⟨k, heq, by omega, by omega⟩
      rcases Nat.eq_or_lt_of_le (show i ≤ k by omega) with rfl | hik
      · -- The significand of `a` is not the largest.
        have hdiv : a / 2 ^ i < 2 ^ w - 1 := by
          rw [Nat.div_lt_iff_lt_mul hpos]
          exact Nat.lt_of_le_of_ne hatop hne
        have hmul : trunc i a + 2 ^ i ≤ top w i := by
          rw [trunc, ← Nat.succ_mul]
          exact Nat.mul_le_mul_right _ hdiv
        omega
      · have hlow := ha.le_top.trans (top_le_top (w := w) (show i ≤ k - 1 by omega))
        have hlowAdd := top_add w (k - 1)
        have hw₁ : 2 ^ (w + k) = 2 * 2 ^ (w + (k - 1)) := by
          rw [← pow_succ']
          congr 1
          omega
        have hk₁ : 2 ^ k = 2 * 2 ^ (k - 1) := by
          rw [← pow_succ']
          congr 1
          omega
        have hsmall : 2 ^ (k + 1) ≤ 2 ^ (w + (k - 1)) :=
          Nat.pow_le_pow_right (by decide) (by omega)
        omega

end Significand
