import Mathlib.Algebra.Ring.Nat

/-!
# Sizes

What the server computes everywhere with sizes: their alignment to 32 bits and their differences,
which wrap as differences of unsigned numbers do.
-/

namespace McuMediaServer

/-- The difference of two `DWORD`s. -/
def dwordSub (a b : Nat) : Nat :=
  if b ≤ a then a - b else 2 ^ 32 - (b - a)

/-- The difference of two `WORD`s, as it is stored in one. -/
def wordSub (a b : Nat) : Nat :=
  if b ≤ a then a - b else 2 ^ 16 - (b - a)

/-- Round up to a multiple of four. Reference: `tools.h:422`. -/
def pad32 (size : Nat) : Nat :=
  if size % 4 ≠ 0 then size / 4 * 4 + 4 else size

theorem le_pad32 (n : Nat) : n ≤ pad32 n := by
  unfold pad32
  split <;> omega

theorem pad32_eq_self_iff (n : Nat) : pad32 n = n ↔ n % 4 = 0 := by
  unfold pad32
  split <;> omega

theorem pad32_mod (n : Nat) : pad32 n % 4 = 0 := by
  unfold pad32
  split <;> omega

theorem pad32_add {n : Nat} (hn : n % 4 = 0) (m : Nat) : pad32 (n + m) = n + pad32 m := by
  unfold pad32
  split <;> split <;> omega

theorem pad32_lt (n : Nat) : pad32 n < n + 4 := by
  unfold pad32
  split <;> omega

theorem pad32_of_mod {n : Nat} (hmod : n % 4 = 0) (hlt : n < 2 ^ 32) :
    pad32 (n % 2 ^ 32) % 2 ^ 32 = n := by
  rw [Nat.mod_eq_of_lt hlt, (pad32_eq_self_iff n).2 hmod, Nat.mod_eq_of_lt hlt]

theorem pad32_mod_two_pow (n : Nat) : pad32 (n % 2 ^ 32) % 2 ^ 32 = pad32 n % 2 ^ 32 := by
  unfold pad32
  split <;> split <;> omega

end McuMediaServer
