import Mathlib.Data.List.GetD
import Mathlib.Tactic.Common

/-!
# Loops over blocks

A loop that combines two buffers block by block is one pointwise combination of so many blocks,
which leaves what is behind them alone.
-/

namespace Blocks

variable {α : Type*} (f : α → α → α) (b : Nat)

/-- Combine the first `n` blocks of `b` elements of two buffers into the first one. -/
def zipBlocks : Nat → List α → List α → List α
  | 0, d, _ => d
  | n + 1, d, s => List.zipWith f (d.take b) (s.take b) ++ zipBlocks n (d.drop b) (s.drop b)

variable {f b} {n : Nat} {d s : List α}

/-- The blocks one after the other are one range. -/
theorem zipBlocks_eq (hd : b * n ≤ d.length) (hs : b * n ≤ s.length) :
    zipBlocks f b n d s = List.zipWith f (d.take (b * n)) (s.take (b * n)) ++ d.drop (b * n) := by
  induction n generalizing d s with
  | zero => simp [zipBlocks]
  | succ n ih =>
    rw [Nat.mul_succ] at hd hs ⊢
    have htake (l : List α) : l.take (b * n + b) = l.take b ++ (l.drop b).take (b * n) := by
      rw [Nat.add_comm, List.take_add]
    have hlength : (d.take b).length = (s.take b).length := by
      rw [List.length_take, List.length_take]
      omega
    rw [zipBlocks, ih (by rw [List.length_drop]; omega) (by rw [List.length_drop]; omega), htake d,
      htake s, List.zipWith_append hlength, List.append_assoc, List.drop_drop, Nat.add_comm b]

@[simp]
theorem length_zipBlocks (hd : b * n ≤ d.length) (hs : b * n ≤ s.length) :
    (zipBlocks f b n d s).length = d.length := by
  rw [zipBlocks_eq hd hs, List.length_append, List.length_zipWith, List.length_take,
    List.length_take, List.length_drop]
  omega

/-- An element of a block is combined. -/
theorem getD_zipBlocks_of_lt {k : Nat} {x y : α} (hd : b * n ≤ d.length) (hs : b * n ≤ s.length)
    (hk : k < b * n) :
    (zipBlocks f b n d s).getD k x = f (d.getD k y) (s.getD k y) := by
  have hkd : k < d.length := by omega
  have hks : k < s.length := by omega
  have hzip : k < (List.zipWith f (d.take (b * n)) (s.take (b * n))).length := by
    rw [List.length_zipWith, List.length_take, List.length_take]
    omega
  rw [zipBlocks_eq hd hs, List.getD_append _ _ _ _ hzip, List.getD_eq_getElem _ _ hzip,
    List.getElem_zipWith, List.getElem_take, List.getElem_take, List.getD_eq_getElem _ _ hkd,
    List.getD_eq_getElem _ _ hks]

theorem getD_zipBlocks_of_le {k : Nat} {x : α} (hd : b * n ≤ d.length) (hs : b * n ≤ s.length)
    (hk : b * n ≤ k) : (zipBlocks f b n d s).getD k x = d.getD k x := by
  have hlength : (List.zipWith f (d.take (b * n)) (s.take (b * n))).length = b * n := by
    rw [List.length_zipWith, List.length_take, List.length_take]
    omega
  rw [zipBlocks_eq hd hs, List.getD_append_right _ _ _ _ (by omega), hlength,
    List.getD_eq_getElem?_getD, List.getElem?_drop, Nat.add_sub_cancel' hk,
    ← List.getD_eq_getElem?_getD]

end Blocks
