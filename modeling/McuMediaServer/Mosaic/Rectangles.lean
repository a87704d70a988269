import Mathlib.Tactic.Ring
import McuMediaServer.Mosaic.Update

/-!
# The rectangles of the slots

The rectangle of a slot is what its four getters say. It lies in the picture, and the rectangles of
two slots have no sample in common, where no slot is laid over another one by design: the slots of
most types are cells of one grid, whose columns and rows are no wider than the picture. The
exception is the type that begins its slots on sixths of the height and gives them thirds of it.
-/

namespace McuMediaServer

open MosaicType

/-- A rectangle of samples. -/
structure Rect where
  left : Nat
  top : Nat
  width : Nat
  height : Nat

namespace Rect

/-- The sample is in the rectangle. -/
def Mem (r : Rect) (x y : Nat) : Prop :=
  (r.left ≤ x ∧ x < r.left + r.width) ∧ r.top ≤ y ∧ y < r.top + r.height

/-- The rectangle of the chroma planes. -/
def half (r : Rect) : Rect := ⟨r.left / 2, r.top / 2, r.width / 2, r.height / 2⟩

theorem not_mem_of_le {r t : Rect}
    (hle : r.left + r.width ≤ t.left ∨ t.left + t.width ≤ r.left ∨ r.top + r.height ≤ t.top ∨
      t.top + t.height ≤ r.top) (x y : Nat) : ¬ (r.Mem x y ∧ t.Mem x y) := by
  unfold Mem
  omega

end Rect

namespace Layout

variable (l : Layout)

/-- The rectangle of a slot. -/
def slot (pos : Nat) : Rect :=
  ⟨l.getLeft pos, l.getTop pos, l.getWidth pos, l.getHeight pos⟩

/-- The rectangles of the slots lie inside the frame. -/
def Inside : Prop :=
  ∀ pos, pos < l.numSlots → ∀ x y, (l.slot pos).Mem x y →
    x < l.mosaicTotalWidth ∧ y < l.mosaicTotalHeight

/-- No two slots have a sample in common. -/
def Disjoint : Prop :=
  ∀ p, p < l.numSlots → ∀ q, q < l.numSlots → p ≠ q →
    ∀ x y, ¬ ((l.slot p).Mem x y ∧ (l.slot q).Mem x y)

/-- The rectangles lie inside the frame and are apart, unless slots are laid over another one by
design. -/
def Apart : Prop :=
  l.Inside ∧ (l.mosaicType.create ≠ .pip → l.Disjoint)

/-- The slot has no sample. -/
def SlotEmpty (pos : Nat) : Prop :=
  l.getWidth pos = 0 ∨ l.getHeight pos = 0

/-- A slot that begins at a third of the height rounded down in sixths is not reached by a slot
above it that is a third high. -/
def ThirdsFit : Prop :=
  l.mosaicType = .mosaic1p2 → l.mosaicTotalHeight % 6 = 4 → l.mosaicTotalWidth < 3

/-- The cells of a grid that the slots of a type are. -/
structure Grid (cols rows : Nat) (col row width height : Nat → Nat) (n : Nat) : Prop where
  col_le : ∀ pos, pos < n → col pos + width pos ≤ cols
  row_le : ∀ pos, pos < n → row pos + height pos ≤ rows
  apart : ∀ p, p < n → ∀ q, q < n → p ≠ q → col p + width p ≤ col q ∨ col q + width q ≤ col p ∨
    row p + height p ≤ row q ∨ row q + height q ≤ row p

variable {l}

theorem apart_of_grid (cols rows : Nat) (col row width height : Nat → Nat)
    (hgrid : Grid cols rows col row width height l.numSlots)
    (hslot : ∀ pos, pos < l.numSlots → l.slot pos =
      ⟨l.mosaicTotalWidth / cols * col pos, l.mosaicTotalHeight / rows * row pos,
        l.mosaicTotalWidth / cols * width pos, l.mosaicTotalHeight / rows * height pos⟩) :
    l.Inside ∧ l.Disjoint := by
  constructor
  · intro pos hpos x y hmem
    have hx : l.mosaicTotalWidth / cols * (col pos + width pos) ≤ l.mosaicTotalWidth :=
      le_trans (Nat.mul_le_mul_left _ (hgrid.col_le pos hpos)) (Nat.div_mul_le_self _ _)
    have hy : l.mosaicTotalHeight / rows * (row pos + height pos) ≤ l.mosaicTotalHeight :=
      le_trans (Nat.mul_le_mul_left _ (hgrid.row_le pos hpos)) (Nat.div_mul_le_self _ _)
    rw [Nat.mul_add] at hx hy
    rw [hslot pos hpos, Rect.Mem] at hmem
    dsimp only at hmem
    omega
  · intro p hp q hq hpq
    refine Rect.not_mem_of_le ?_
    rw [hslot p hp, hslot q hq]
    dsimp only
    simp only [← Nat.mul_add]
    rcases hgrid.apart p hp q hq hpq with h | h | h | h
    · exact .inl (Nat.mul_le_mul_left _ h)
    · exact .inr (.inl (Nat.mul_le_mul_left _ h))
    · exact .inr (.inr (.inl (Nat.mul_le_mul_left _ h)))
    · exact .inr (.inr (.inr (Nat.mul_le_mul_left _ h)))

theorem apart_of_parted (hclass : l.mosaicType.create = .parted) : l.Inside ∧ l.Disjoint := by
  have hnum : l.numSlots = PartedMosaic.mosaicCols l * PartedMosaic.mosaicRows l := by
    unfold numSlots PartedMosaic.mosaicCols PartedMosaic.mosaicRows
    revert hclass
    cases l.mosaicType <;> decide
  have hcols : 0 < PartedMosaic.mosaicCols l := by
    unfold PartedMosaic.mosaicCols
    cases l.mosaicType <;> decide
  have hcol (pos : Nat) : pos - pos / PartedMosaic.mosaicCols l * PartedMosaic.mosaicCols l =
      pos % PartedMosaic.mosaicCols l := by
    rw [Nat.mod_eq_sub_div_mul]
  refine apart_of_grid (PartedMosaic.mosaicCols l) (PartedMosaic.mosaicRows l)
    (fun pos => pos % PartedMosaic.mosaicCols l) (fun pos => pos / PartedMosaic.mosaicCols l)
    (fun _ => 1) (fun _ => 1) ⟨?_, ?_, ?_⟩ ?_
  · intro pos _
    exact Nat.mod_lt _ hcols
  · intro pos hpos
    exact Nat.div_lt_of_lt_mul (hnum ▸ hpos)
  · intro p _ q _ hpq
    have hp := Nat.div_add_mod p (PartedMosaic.mosaicCols l)
    have hq := Nat.div_add_mod q (PartedMosaic.mosaicCols l)
    rcases Nat.lt_trichotomy (p / PartedMosaic.mosaicCols l) (q / PartedMosaic.mosaicCols l)
      with h | h | h
    · omega
    · rw [h] at hp
      omega
    · omega
  · intro pos hpos
    simp only [slot, getLeft, getTop, getWidth, getHeight, hclass, PartedMosaic.getLeft,
      PartedMosaic.getTop, PartedMosaic.getWidth, PartedMosaic.getHeight, hcol,
      if_neg (Nat.not_le.2 hpos), Nat.mul_one, PartedMosaic.mosaicWidth, PartedMosaic.mosaicHeight]

/-- The slots of the asymmetric mosaics that begin and end on one grid. -/
def Regular (type : MosaicType) : Prop :=
  type.create = .asymmetric ∧ type ≠ .mosaic1p1 ∧ type ≠ .mosaic1p2

instance (type : MosaicType) : Decidable (Regular type) := inferInstanceAs (Decidable (_ ∧ _))

instance (cols rows : Nat) (col row width height : Nat → Nat) (n : Nat) :
    Decidable (Grid cols rows col row width height n) :=
  decidable_of_iff ((∀ pos, pos < n → col pos + width pos ≤ cols) ∧
    (∀ pos, pos < n → row pos + height pos ≤ rows) ∧
    ∀ p, p < n → ∀ q, q < n → p ≠ q → col p + width p ≤ col q ∨ col q + width q ≤ col p ∨
      row p + height p ≤ row q ∨ row q + height q ≤ row p)
    ⟨fun h => ⟨h.1, h.2.1, h.2.2⟩, fun h => ⟨h.col_le, h.row_le, h.apart⟩⟩

theorem grid_of_regular (type : MosaicType) (hregular : Regular type) :
    Grid (AsymmetricMosaic.cells type).1 (AsymmetricMosaic.cells type).2.1
        (AsymmetricMosaic.col type) (AsymmetricMosaic.row type)
        (fun pos => (AsymmetricMosaic.widthCells type pos).2)
        (fun pos => (AsymmetricMosaic.heightCells type pos).2) type.numSlots ∧
      ∀ pos, pos < type.numSlots →
        (AsymmetricMosaic.widthCells type pos).1 = (AsymmetricMosaic.cells type).1 ∧
        (AsymmetricMosaic.heightCells type pos).1 = (AsymmetricMosaic.cells type).2.1 := by
  revert hregular
  cases type <;> decide

theorem slot_asymmetric (hclass : l.mosaicType.create = .asymmetric) {pos : Nat}
    (hpos : pos < l.numSlots) :
    l.slot pos =
      ⟨l.mosaicTotalWidth / (AsymmetricMosaic.cells l.mosaicType).1 *
          AsymmetricMosaic.col l.mosaicType pos,
        l.mosaicTotalHeight / (AsymmetricMosaic.cells l.mosaicType).2.1 *
          AsymmetricMosaic.row l.mosaicType pos,
        l.mosaicTotalWidth / (AsymmetricMosaic.widthCells l.mosaicType pos).1 *
          (AsymmetricMosaic.widthCells l.mosaicType pos).2,
        l.mosaicTotalHeight / (AsymmetricMosaic.heightCells l.mosaicType pos).1 *
          (AsymmetricMosaic.heightCells l.mosaicType pos).2⟩ := by
  simp only [slot, getLeft, getTop, getWidth, getHeight, hclass, AsymmetricMosaic.getLeft,
    AsymmetricMosaic.getTop, AsymmetricMosaic.getWidth, AsymmetricMosaic.getHeight,
    if_neg (Nat.not_le.2 hpos)]

theorem apart_of_regular (hregular : Regular l.mosaicType) : l.Inside ∧ l.Disjoint := by
  obtain ⟨hgrid, hunits⟩ := grid_of_regular l.mosaicType hregular
  refine apart_of_grid _ _ _ _ _ _ hgrid ?_
  intro pos hpos
  obtain ⟨hwidth, hheight⟩ := hunits pos hpos
  rw [slot_asymmetric hregular.1 hpos, hwidth, hheight]

theorem apart_of_mosaic1p1 (htype : l.mosaicType = .mosaic1p1) : l.Inside ∧ l.Disjoint := by
  have hclass : l.mosaicType.create = .asymmetric := by rw [htype]; rfl
  have hnum : l.numSlots = 2 := by rw [numSlots, htype]; rfl
  constructor
  · intro pos hpos x y
    rw [slot_asymmetric hclass hpos, htype, Rect.Mem]
    obtain rfl | rfl : pos = 0 ∨ pos = 1 := by omega
    · simp only [AsymmetricMosaic.cells, AsymmetricMosaic.col, AsymmetricMosaic.row,
        AsymmetricMosaic.widthCells, AsymmetricMosaic.heightCells, List.getD_cons_zero]
      omega
    · simp only [AsymmetricMosaic.cells, AsymmetricMosaic.col, AsymmetricMosaic.row,
        AsymmetricMosaic.widthCells, AsymmetricMosaic.heightCells, List.getD_cons_zero,
        List.getD_cons_succ]
      omega
  · intro p hp q hq hpq
    refine Rect.not_mem_of_le ?_
    rw [slot_asymmetric hclass hp, slot_asymmetric hclass hq, htype]
    obtain ⟨rfl, rfl⟩ | ⟨rfl, rfl⟩ : p = 0 ∧ q = 1 ∨ p = 1 ∧ q = 0 := by omega
    · simp only [AsymmetricMosaic.cells, AsymmetricMosaic.col, AsymmetricMosaic.widthCells,
        AsymmetricMosaic.row, List.getD_cons_zero, List.getD_cons_succ]
      omega
    · simp only [AsymmetricMosaic.cells, AsymmetricMosaic.col, AsymmetricMosaic.widthCells,
        AsymmetricMosaic.row, List.getD_cons_zero, List.getD_cons_succ]
      omega

theorem slot_mosaic1p2 (htype : l.mosaicType = .mosaic1p2) :
    l.slot 0 = ⟨0, l.mosaicTotalHeight / 6, l.mosaicTotalWidth / 3 * 2,
        l.mosaicTotalHeight / 3 * 2⟩ ∧
      l.slot 1 = ⟨l.mosaicTotalWidth / 3 * 2, l.mosaicTotalHeight / 6, l.mosaicTotalWidth / 3,
        l.mosaicTotalHeight / 3⟩ ∧
      l.slot 2 = ⟨l.mosaicTotalWidth / 3 * 2, l.mosaicTotalHeight / 6 * 3, l.mosaicTotalWidth / 3,
        l.mosaicTotalHeight / 3⟩ := by
  have hclass : l.mosaicType.create = .asymmetric := by rw [htype]; rfl
  have hnum : l.numSlots = 3 := by rw [numSlots, htype]; rfl
  refine ⟨?_, ?_, ?_⟩ <;> rw [slot_asymmetric hclass (by omega), htype] <;>
    simp [AsymmetricMosaic.cells, AsymmetricMosaic.col, AsymmetricMosaic.row,
      AsymmetricMosaic.widthCells, AsymmetricMosaic.heightCells]

theorem inside_of_mosaic1p2 (htype : l.mosaicType = .mosaic1p2) : l.Inside := by
  obtain ⟨h0, h1, h2⟩ := slot_mosaic1p2 htype
  have hnum : l.numSlots = 3 := by rw [numSlots, htype]; rfl
  intro pos hpos x y
  obtain rfl | rfl | rfl : pos = 0 ∨ pos = 1 ∨ pos = 2 := by omega
  · rw [h0, Rect.Mem]
    dsimp only
    omega
  · rw [h1, Rect.Mem]
    dsimp only
    omega
  · rw [h2, Rect.Mem]
    dsimp only
    omega

theorem disjoint_mosaic1p2_iff (htype : l.mosaicType = .mosaic1p2) :
    l.Disjoint ↔ (l.mosaicTotalHeight % 6 = 4 → l.mosaicTotalWidth < 3) := by
  obtain ⟨h0, h1, h2⟩ := slot_mosaic1p2 htype
  have hnum : l.numSlots = 3 := by rw [numSlots, htype]; rfl
  have heven := l.height_even
  constructor
  · intro hdisjoint hsixths
    by_contra hwidth
    refine hdisjoint 1 (by omega) 2 (by omega) (by omega) (l.mosaicTotalWidth / 3 * 2)
      (l.mosaicTotalHeight / 6 * 3) ?_
    rw [h1, h2, Rect.Mem, Rect.Mem]
    dsimp only
    omega
  · intro hsixths p hp q hq hpq x y
    have hleft : ¬ ((l.slot 0).Mem x y ∧ (l.slot 1).Mem x y) :=
      Rect.not_mem_of_le (by rw [h0, h1]; dsimp only; omega) x y
    have hleft' : ¬ ((l.slot 0).Mem x y ∧ (l.slot 2).Mem x y) :=
      Rect.not_mem_of_le (by rw [h0, h2]; dsimp only; omega) x y
    have hright : ¬ ((l.slot 1).Mem x y ∧ (l.slot 2).Mem x y) := by
      rw [h1, h2, Rect.Mem, Rect.Mem]
      dsimp only
      omega
    obtain rfl | rfl | rfl : p = 0 ∨ p = 1 ∨ p = 2 := by omega
    · obtain rfl | rfl : q = 1 ∨ q = 2 := by omega
      · exact hleft
      · exact hleft'
    · obtain rfl | rfl : q = 0 ∨ q = 2 := by omega
      · exact fun h => hleft h.symm
      · exact hright
    · obtain rfl | rfl : q = 0 ∨ q = 1 := by omega
      · exact fun h => hleft' h.symm
      · exact fun h => hright h.symm

theorem apart_iff_of_not_pip (hclass : l.mosaicType.create ≠ .pip) : l.Apart ↔ l.ThirdsFit := by
  rcases Classical.em (l.mosaicType = .mosaic1p2) with htype | htype
  · simp only [Apart, inside_of_mosaic1p2 htype, disjoint_mosaic1p2_iff htype, ThirdsFit, htype,
      ne_eq, true_and, forall_const, MosaicType.create, reduceCtorEq, not_false_eq_true]
  · have happart : l.Inside ∧ l.Disjoint := by
      rcases Classical.em (l.mosaicType.create = .parted) with hparted | hparted
      · exact apart_of_parted hparted
      · have hasymmetric : l.mosaicType.create = .asymmetric := by
          revert hclass hparted
          cases l.mosaicType.create <;> simp
        rcases Classical.em (l.mosaicType = .mosaic1p1) with hone | hone
        · exact apart_of_mosaic1p1 hone
        · exact apart_of_regular ⟨hasymmetric, hone, htype⟩
    exact iff_of_true ⟨happart.1, fun _ => happart.2⟩ fun h => absurd h htype

theorem slot_pip_zero (hclass : l.mosaicType.create = .pip) :
    l.slot 0 = ⟨0, 0, l.mosaicTotalWidth, l.mosaicTotalHeight⟩ := by
  have hnum : ¬ l.numSlots < 0 + 1 := by
    revert hclass
    unfold numSlots
    cases l.mosaicType <;> decide
  simp only [slot, getLeft, getTop, getWidth, getHeight, hclass, PIPMosaic.getLeft,
    PIPMosaic.getTop, PIPMosaic.getWidth, PIPMosaic.getHeight, if_neg hnum, if_true]

theorem slotEmpty_pip (hclass : l.mosaicType.create = .pip) {p q : Nat} (hp : p < l.numSlots)
    (hq : q < l.numSlots) (hp0 : p ≠ 0) (hq0 : q ≠ 0) (hempty : l.SlotEmpty p) :
    l.SlotEmpty q := by
  simpa only [SlotEmpty, getWidth, getHeight, hclass, PIPMosaic.getWidth, PIPMosaic.getHeight,
    if_neg hp0, if_neg hq0, if_neg (show ¬ l.numSlots < p + 1 by omega),
    if_neg (show ¬ l.numSlots < q + 1 by omega)] using hempty

theorem apart_of_pip (hclass : l.mosaicType.create = .pip) {pos : Nat} (hpos : pos < l.numSlots)
    (hempty : l.SlotEmpty pos) : l.Apart := by
  have hw := l.width_pos
  have hh := l.height_pos
  have hpos0 : pos ≠ 0 := by
    rintro rfl
    have h0 := slot_pip_zero hclass
    simp only [slot, Rect.mk.injEq] at h0
    unfold SlotEmpty at hempty
    omega
  refine ⟨?_, fun h => absurd hclass h⟩
  intro q hq x y hmem
  rcases Nat.eq_zero_or_pos q with rfl | hq0
  · rw [slot_pip_zero hclass, Rect.Mem] at hmem
    dsimp only at hmem
    omega
  · have hempty' := slotEmpty_pip hclass hpos hq hpos0 (by omega) hempty
    unfold SlotEmpty at hempty'
    simp only [slot, Rect.Mem] at hmem
    omega

end Layout

end McuMediaServer
