import Mathlib.Data.Set.Lattice
import Mathlib.Order.Interval.Set.Basic
import Mathlib.Tactic.Common

/-!
# Overwriting a set of cells

A change of a memory overwrites a set of cells when it leaves every cell outside the set as it was
and gives the cells of the set a value that does not depend on what the memory held. A change
overwrites one set at most (`Overwrites.unique`), so what a program overwrites is computed from
its pieces: one copy, one copy after the other, and a loop of copies. The rows of a picture with a
stride are a `block` of cells.
-/

namespace Overwrite

variable {ι α σ : Type*}

/-- Exactly the cells of `R` get a new value, which does not depend on the old ones. -/
structure Overwrites (f : (ι → α) → ι → α) (R : Set ι) : Prop where
  outside : ∀ m a, a ∉ R → f m a = m a
  inside : ∀ m m' a, a ∈ R → f m a = f m' a

/-- `for (i = 0; i < n; i++)` over a body that changes the state. -/
def forRange : Nat → (Nat → σ → σ) → σ → σ
  | 0, _, s => s
  | n + 1, body, s => body n (forRange n body s)

/-- The cells of `n` bytes from `dst` on get the values at the pointer `src`. -/
def memcpy (dst : Nat) (src : Nat → α) (n : Nat) (m : Nat → α) : Nat → α :=
  fun a => if dst ≤ a ∧ a < dst + n then src (a - dst) else m a

/-- The cells of `n` bytes from `dst` on get the value `b`. -/
def memset (dst : Nat) (b : α) (n : Nat) (m : Nat → α) : Nat → α :=
  memcpy dst (fun _ => b) n m

/-- The cells of `h` rows of `w` cells, the first at `base` and each one `stride` behind the one
before. -/
def block (base stride w h : Nat) : Set Nat :=
  {a | ∃ k < h, a ∈ Set.Ico (base + stride * k) (base + stride * k + w)}

variable {f g : (ι → α) → ι → α} {R S : Set ι}

theorem Overwrites.notMem_of_keeps [Nontrivial α] (hf : Overwrites f R) {a : ι}
    (hkeeps : ∀ m, f m a = m a) : a ∉ R := by
  intro ha
  obtain ⟨b, c, hbc⟩ := exists_pair_ne α
  have heq := hf.inside (fun _ => b) (fun _ => c) a ha
  rw [hkeeps, hkeeps] at heq
  exact hbc heq

theorem Overwrites.subset [Nontrivial α] (hf : Overwrites f R) (hf' : Overwrites f S) :
    R ⊆ S := by
  intro a ha
  by_contra hS
  exact hf.notMem_of_keeps (fun m => hf'.outside m a hS) ha

theorem Overwrites.unique [Nontrivial α] (hf : Overwrites f R) (hf' : Overwrites f S) : R = S :=
  Set.Subset.antisymm (hf.subset hf') (hf'.subset hf)

theorem Overwrites.iff_eq [Nontrivial α] (hf : Overwrites f R) : Overwrites f S ↔ R = S := by
  constructor
  · intro hf'
    exact hf.unique hf'
  · rintro rfl
    exact hf

theorem Overwrites.of_eq (hf : Overwrites f R) (hRS : R = S) : Overwrites f S := hRS ▸ hf

theorem overwrites_id : Overwrites (fun m : ι → α => m) ∅ :=
  ⟨fun _ _ _ => rfl, fun _ _ _ h => absurd h (Set.notMem_empty _)⟩

/-- One change after the other. -/
theorem Overwrites.comp (hf : Overwrites f R) (hg : Overwrites g S) :
    Overwrites (fun m => g (f m)) (R ∪ S) := by
  constructor
  · intro m a ha
    rw [Set.mem_union, not_or] at ha
    rw [hg.outside _ _ ha.2, hf.outside _ _ ha.1]
  · intro m m' a ha
    rcases Classical.em (a ∈ S) with hS | hS
    · exact hg.inside _ _ a hS
    · rw [hg.outside _ _ hS, hg.outside _ _ hS]
      exact hf.inside _ _ a (ha.resolve_right hS)

/-- A loop overwrites what its rounds overwrite. -/
theorem Overwrites.forRange {body : Nat → (ι → α) → ι → α} {R : Nat → Set ι} {n : Nat}
    (hbody : ∀ i, i < n → Overwrites (body i) (R i)) :
    Overwrites (Overwrite.forRange n body) {a | ∃ i < n, a ∈ R i} := by
  induction n with
  | zero => simpa [Overwrite.forRange] using overwrites_id
  | succ n ih =>
    have hrounds := (ih fun i hi => hbody i (by omega)).comp (hbody n (by omega))
    refine hrounds.of_eq ?_
    ext a
    simp only [Set.mem_union, Set.mem_ofPred_eq, Nat.lt_succ_iff_lt_or_eq]
    constructor
    · rintro (⟨i, hi, ha⟩ | ha)
      · exact ⟨i, .inl hi, ha⟩
      · exact ⟨n, .inr rfl, ha⟩
    · rintro ⟨i, hi | rfl, ha⟩
      · exact .inl ⟨i, hi, ha⟩
      · exact .inr ha

theorem overwrites_memcpy (dst : Nat) (src : Nat → α) (n : Nat) :
    Overwrites (memcpy dst src n) (Set.Ico dst (dst + n)) := by
  constructor
  · intro m a ha
    rw [memcpy, if_neg (by rwa [Set.mem_Ico] at ha)]
  · intro m m' a ha
    rw [memcpy, memcpy, if_pos (by rwa [Set.mem_Ico] at ha), if_pos (by rwa [Set.mem_Ico] at ha)]

theorem overwrites_memset (dst : Nat) (b : α) (n : Nat) :
    Overwrites (memset dst b n) (Set.Ico dst (dst + n)) :=
  overwrites_memcpy dst (fun _ => b) n

section Blocks
variable {base stride w h a : Nat}

theorem block_eq_empty (hempty : w = 0 ∨ h = 0) : block base stride w h = ∅ := by
  ext a
  simp only [block, Set.mem_ofPred_eq, Set.mem_Ico, Set.mem_empty_iff_false, iff_false]
  rintro ⟨k, hk, hlow, hhigh⟩
  omega

theorem base_mem_block (hw : 0 < w) (hh : 0 < h) : base ∈ block base stride w h :=
  ⟨0, hh, by simp only [Set.mem_Ico]; omega⟩

theorem base_le_of_mem_block (ha : a ∈ block base stride w h) : base ≤ a := by
  obtain ⟨k, -, hlow, -⟩ := ha
  exact le_trans (Nat.le_add_right _ _) hlow

end Blocks

end Overwrite
