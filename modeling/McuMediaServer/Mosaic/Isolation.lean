import McuMediaServer.Mosaic.Rectangles

/-!
# A slot is changed on its own

Showing an image in a slot and clearing the slot are to change the samples of the slot's rectangle
and the chroma samples of the rectangle of half its size, and no others. What the code of a slot
overwrites is three blocks of cells. The luma block is that of the rectangle; the chroma blocks
begin where the code's own arithmetic says, which is not where the halves of the rectangle begin
when a side or a corner of it is odd.
-/

namespace McuMediaServer

open Overwrite

instance nontrivialUInt8 : Nontrivial UInt8 := ⟨0, 1, by decide⟩

/-- A block of each plane: the chroma planes have half the width and height. -/
def planes (stride width height lineaY lineaU lineaV : Nat) : Set Nat :=
  block lineaY stride width height ∪
    (block lineaU (stride / 2) (width / 2) (height / 2) ∪
      block lineaV (stride / 2) (width / 2) (height / 2))

theorem overwrites_copyPlanes (stride width height : Nat) (imageY imageU imageV : Pointer)
    (lineaY lineaU lineaV : Nat) :
    Overwrites (copyPlanes stride width height imageY imageU imageV lineaY lineaU lineaV)
      (planes stride width height lineaY lineaU lineaV) := by
  refine ((Overwrites.forRange fun i _ => overwrites_memcpy _ _ _).comp
    (Overwrites.forRange fun i _ =>
      (overwrites_memcpy _ _ _).comp (overwrites_memcpy _ _ _))).of_eq ?_
  ext a
  simp only [planes, block, Set.mem_union, Set.mem_ofPred_eq, and_or_left, exists_or]

theorem overwrites_blankPlanes (stride width height lineaY lineaU lineaV : Nat) :
    Overwrites (blankPlanes stride width height lineaY lineaU lineaV)
      (planes stride width height lineaY lineaU lineaV) := by
  refine ((Overwrites.forRange fun i _ => overwrites_memset _ _ _).comp
    (Overwrites.forRange fun i _ =>
      (overwrites_memset _ _ _).comp (overwrites_memset _ _ _))).of_eq ?_
  ext a
  simp only [planes, block, Set.mem_union, Set.mem_ofPred_eq, and_or_left, exists_or]

section Planes
variable {stride width height lineaY lineaU lineaV : Nat}

theorem planes_eq_empty (hempty : width = 0 ∨ height = 0) :
    planes stride width height lineaY lineaU lineaV = ∅ := by
  rw [planes, block_eq_empty hempty, block_eq_empty (by omega), block_eq_empty (by omega)]
  simp only [Set.empty_union]

theorem planes_eq_iff {pixels offset offset' : Nat}
    (hluma : ∀ a ∈ block lineaY stride width height, a < pixels) :
    planes stride width height lineaY (pixels + offset) (pixels + offset + pixels / 4) =
        planes stride width height lineaY (pixels + offset') (pixels + offset' + pixels / 4) ↔
      width / 2 = 0 ∨ height / 2 = 0 ∨ offset = offset' := by
  -- the first cell of a chroma block is in the set, and none of the other set's is before its own
  have hfirst {o o' : Nat} (hw : 0 < width / 2) (hh : 0 < height / 2)
      (heq : planes stride width height lineaY (pixels + o) (pixels + o + pixels / 4) =
        planes stride width height lineaY (pixels + o') (pixels + o' + pixels / 4)) : o' ≤ o := by
    have hmem : pixels + o ∈
        planes stride width height lineaY (pixels + o) (pixels + o + pixels / 4) :=
      .inr (.inl (base_mem_block hw hh))
    rw [heq] at hmem
    rcases hmem with hY | hU | hV
    · have := hluma _ hY
      omega
    · have := base_le_of_mem_block hU
      omega
    · have := base_le_of_mem_block hV
      omega
  constructor
  · intro heq
    by_contra hne
    have hle := hfirst (by omega) (by omega) heq
    have hge := hfirst (by omega) (by omega) heq.symm
    omega
  · rintro (hw | hh | rfl)
    · rw [planes, planes, block_eq_empty (.inl hw), block_eq_empty (.inl hw),
        block_eq_empty (.inl hw), block_eq_empty (.inl hw)]
    · rw [planes, planes, block_eq_empty (.inr hh), block_eq_empty (.inr hh),
        block_eq_empty (.inr hh), block_eq_empty (.inr hh)]
    · rfl

end Planes

/-- The cells of a rectangle in a plane at `base` whose rows are `stride` apart. -/
def Rect.cells (r : Rect) (base stride : Nat) : Set Nat :=
  {a | ∃ x y, r.Mem x y ∧ a = base + stride * y + x}

theorem Rect.cells_eq_block (r : Rect) (base stride : Nat) :
    r.cells base stride = block (base + (stride * r.top + r.left)) stride r.width r.height := by
  ext a
  simp only [Rect.cells, block, Rect.Mem, Set.mem_ofPred_eq, Set.mem_Ico]
  constructor
  · rintro ⟨x, y, hmem, rfl⟩
    have hrow : stride * y = stride * r.top + stride * (y - r.top) := by
      rw [← Nat.mul_add]
      congr 1
      omega
    exact ⟨y - r.top, by omega, by omega, by omega⟩
  · rintro ⟨k, hk, hlow, hhigh⟩
    have hrow : stride * (r.top + k) = stride * r.top + stride * k := Nat.mul_add _ _ _
    exact ⟨a - (base + stride * (r.top + k)), r.top + k, by omega, by omega⟩

namespace Layout

variable (l : Layout)

/-- The luma samples of a slot's rectangle and the chroma samples of the half-size rectangle. -/
def slotCells (pos : Nat) : Set Nat :=
  (l.slot pos).cells 0 l.mosaicTotalWidth ∪
    ((l.slot pos).half.cells l.mosaicNumPixels (l.mosaicTotalWidth / 2) ∪
      (l.slot pos).half.cells (l.mosaicNumPixels + l.mosaicNumPixels / 4)
        (l.mosaicTotalWidth / 2))

/-- Where the half-size rectangle begins in its plane. -/
def halfOffset (pos : Nat) : Nat :=
  l.mosaicTotalWidth / 2 * (l.getTop pos / 2) + l.getLeft pos / 2

theorem slotCells_eq (pos : Nat) :
    l.slotCells pos =
      planes l.mosaicTotalWidth (l.getWidth pos) (l.getHeight pos)
        (l.mosaicTotalWidth * l.getTop pos + l.getLeft pos)
        (l.mosaicNumPixels + l.halfOffset pos)
        (l.mosaicNumPixels + l.halfOffset pos + l.mosaicNumPixels / 4) := by
  rw [slotCells, Rect.cells_eq_block, Rect.cells_eq_block, Rect.cells_eq_block, planes]
  simp only [slot, Rect.half, halfOffset, Nat.zero_add, Nat.add_right_comm _ (_ / 4)]

variable {l} {pos : Nat}

theorem lt_pixels_of_mem_block (hinside : l.Inside) (hpos : pos < l.numSlots) :
    ∀ a ∈ block (l.mosaicTotalWidth * l.getTop pos + l.getLeft pos) l.mosaicTotalWidth
      (l.getWidth pos) (l.getHeight pos), a < l.mosaicNumPixels := by
  intro a ha
  have hcells := (l.slot pos).cells_eq_block 0 l.mosaicTotalWidth
  simp only [slot, Nat.zero_add] at hcells
  rw [← hcells] at ha
  obtain ⟨x, y, hmem, rfl⟩ := ha
  obtain ⟨hx, hy⟩ := hinside pos hpos x y hmem
  have hrow : l.mosaicTotalWidth * y + l.mosaicTotalWidth ≤ l.mosaicNumPixels := by
    rw [mosaicNumPixels, ← Nat.mul_succ]
    exact Nat.mul_le_mul_left _ hy
  omega

end Layout

/-- What a parted mosaic's chroma offset misses: an odd slot height shifts the slots of the odd rows
by a quarter of the width, and every other row by one sample where half the width is odd; an odd
slot width shifts every other column by one sample. The shifts must even out. -/
def PartedMosaic.Aligned (l : Layout) (pos : Nat) : Prop :=
  let i := pos / mosaicCols l
  let j := pos - i * mosaicCols l
  mosaicHeight l % 2 * (l.mosaicTotalWidth / 4 * (i % 2)) =
    mosaicHeight l % 2 * (l.mosaicTotalWidth / 2 % 2 * (i / 2)) + mosaicWidth l % 2 * (j / 2)

instance (l : Layout) (pos : Nat) : Decidable (PartedMosaic.Aligned l pos) :=
  inferInstanceAs (Decidable (_ = _))

/-- The chroma offset of an asymmetric mosaic is that of the half-size rectangle where the slot
begins in an even row. -/
def AsymmetricMosaic.Aligned (l : Layout) (pos : Nat) : Prop :=
  getTop l pos % 2 = 0 ∨ l.mosaicTotalWidth < 4

theorem half_mul (a n : Nat) : a * n / 2 = a / 2 * n + a % 2 * (n / 2) := by
  have hsplit : a * n = 2 * (a / 2 * n) + a % 2 * n := by
    conv_lhs => rw [← Nat.div_add_mod a 2]
    ring
  rcases Nat.mod_two_eq_zero_or_one a with h | h
  · rw [hsplit, h]
    omega
  · rw [hsplit, h]
    omega

theorem quarter_mul (k n : Nat) : 2 * k * n / 4 = k * (n / 2) + n % 2 * (k / 2) := by
  rw [show 4 = 2 * 2 from rfl, Nat.mul_assoc, Nat.mul_div_mul_left _ _ (by omega),
    Nat.mul_comm k n, half_mul, Nat.mul_comm k]

theorem PartedMosaic.offset2_eq_iff {l : Layout} (hclass : l.mosaicType.create = .parted)
    (pos : Nat) : offset2 l pos = l.halfOffset pos ↔ Aligned l pos := by
  have heven := l.width_even
  simp only [offset2, Layout.halfOffset, Layout.getTop, Layout.getLeft, hclass, getTop, getLeft,
    Aligned]
  generalize pos / mosaicCols l = i
  generalize pos - i * mosaicCols l = j
  generalize mosaicHeight l = h
  generalize mosaicWidth l = w
  obtain ⟨k, hk⟩ := Nat.dvd_of_mod_eq_zero heven
  rw [hk, quarter_mul, half_mul h i, half_mul w j, Nat.mul_div_cancel_left _ (by omega),
    show 2 * k / 4 = k / 2 by omega]
  -- the terms of both offsets, with the odd parts apart
  have hrows : (k * (h / 2) + h % 2 * (k / 2)) * i = k * (h / 2 * i) + h % 2 * (k / 2) * i := by
    ring
  have hcols : k * (h / 2 * i + h % 2 * (i / 2)) = k * (h / 2 * i) + k * (h % 2 * (i / 2)) := by
    ring
  have hleft : h % 2 * (k / 2) * i =
      2 * (h % 2 * (k / 2) * (i / 2)) + h % 2 * (k / 2 * (i % 2)) := by
    conv_lhs => rw [← Nat.div_add_mod i 2]
    ring
  have hright : k * (h % 2 * (i / 2)) =
      2 * (h % 2 * (k / 2) * (i / 2)) + h % 2 * (k % 2 * (i / 2)) := by
    conv_lhs => rw [← Nat.div_add_mod k 2]
    ring
  rw [hrows, hcols, hleft, hright]
  omega
theorem AsymmetricMosaic.offset2_eq_iff {l : Layout} (hclass : l.mosaicType.create = .asymmetric)
    (pos : Nat) : offset2 l pos = l.halfOffset pos ↔ Aligned l pos := by
  have heven := l.width_even
  simp only [offset2, Layout.halfOffset, Layout.getTop, Layout.getLeft, hclass, Aligned]
  generalize getTop l pos = t
  obtain ⟨k, hk⟩ := Nat.dvd_of_mod_eq_zero heven
  rw [hk, quarter_mul, Nat.mul_div_cancel_left _ (by omega)]
  rcases Nat.mod_two_eq_zero_or_one t with h | h
  · rw [h]
    omega
  · rw [h]
    omega

namespace Mosaic

variable (sws : Swscale) (s : Mosaic)

/-- Every scaler that has a context has it for rows of the mosaic. -/
def ScalersFit : Prop := ∀ pos, (s.resizer pos).Fits s.layout.mosaicTotalWidth

/-- The scaler has a context for the image, and the scaled image fills the rows of the slot. -/
def Scaled (pos : Nat) (image : Image) (keepAspectRatio : Bool) : Prop :=
  let scaler := (s.resizer pos).setResize sws image.width image.height image.width
    (s.layout.getWidth pos) (s.layout.getHeight pos) s.layout.mosaicTotalWidth keepAspectRatio
  scaler.resizeCtx ∧ scaler.FillsRows

/-- The image has the size of the slot, or is scaled so that it fills the slot's rows. -/
def Shown (pos : Nat) (image : Option Image) (keepAspectRatio : Bool) : Prop :=
  ∀ i, image = some i →
    i.width = s.layout.getWidth pos ∧ i.height = s.layout.getHeight pos ∨
      s.Scaled sws pos i keepAspectRatio

/-- The chroma blocks of the slot begin where the half-size rectangle does, or are empty. -/
def ChromaAligned (pos : Nat) : Prop :=
  s.layout.getWidth pos / 2 = 0 ∨ s.layout.getHeight pos / 2 = 0 ∨
    (s.layout.mosaicType.create = .parted ∧ PartedMosaic.Aligned s.layout pos ∨
      s.layout.mosaicType.create = .asymmetric ∧ AsymmetricMosaic.Aligned s.layout pos)

/-- The rectangles of the slots are apart inside the frame, and showing the image in the slot, as
clearing the slot, changes exactly the luma samples of its rectangle and the chroma samples of the
rectangle of half its size. -/
def Isolated (pos : Nat) (image : Option Image) (keepAspectRatio : Bool) : Prop :=
  s.layout.Apart ∧
    Overwrites (fun m => ({ s with mosaic := m }.step sws
      (.update pos image keepAspectRatio)).mosaic) (s.layout.slotCells pos) ∧
    Overwrites (fun m => ({ s with mosaic := m }.step sws (.clean pos)).mosaic)
      (s.layout.slotCells pos)

variable {sws s} {pos : Nat}

theorem slotCells_nonempty (hempty : ¬ s.layout.SlotEmpty pos) :
    (s.layout.slotCells pos).Nonempty := by
  unfold Layout.SlotEmpty at hempty
  rw [Layout.slotCells_eq]
  exact ⟨_, .inl (base_mem_block (by omega) (by omega))⟩

theorem slotCells_eq_empty (hempty : s.layout.SlotEmpty pos) : s.layout.slotCells pos = ∅ := by
  rw [Layout.slotCells_eq, planes_eq_empty hempty]

theorem overwrites_unchanged_iff :
    Overwrites (fun m : Nat → UInt8 => m) (s.layout.slotCells pos) ↔ s.layout.SlotEmpty pos := by
  rw [overwrites_id.iff_eq]
  constructor
  · intro heq
    by_contra hempty
    exact (slotCells_nonempty hempty).ne_empty heq.symm
  · intro hempty
    exact (slotCells_eq_empty hempty).symm

section Placed
variable (hinside : s.layout.Inside) (hpos : pos < s.layout.numSlots) {offset2 : Nat}
include hinside hpos

theorem overwrites_planes_iff {f : (Nat → UInt8) → Nat → UInt8}
    (hf : Overwrites f (planes s.layout.mosaicTotalWidth (s.layout.getWidth pos)
      (s.layout.getHeight pos)
      (s.layout.mosaicTotalWidth * s.layout.getTop pos + s.layout.getLeft pos)
      (s.lineaU offset2) (s.lineaV offset2))) :
    Overwrites f (s.layout.slotCells pos) ↔
      s.layout.getWidth pos / 2 = 0 ∨ s.layout.getHeight pos / 2 = 0 ∨
        offset2 = s.layout.halfOffset pos := by
  rw [hf.iff_eq, Layout.slotCells_eq]
  exact planes_eq_iff (Layout.lt_pixels_of_mem_block hinside hpos)

theorem getWidth_le (hempty : ¬ s.layout.SlotEmpty pos) :
    s.layout.getWidth pos ≤ s.layout.mosaicTotalWidth := by
  unfold Layout.SlotEmpty at hempty
  have hmem : (s.layout.slot pos).Mem
      (s.layout.getLeft pos + (s.layout.getWidth pos - 1)) (s.layout.getTop pos) := by
    unfold Rect.Mem Layout.slot
    dsimp only
    omega
  have := (hinside pos hpos _ _ hmem).1
  omega

theorem overwrites_scale_iff (hfit : s.ScalersFit) (image : Image) (keepAspectRatio : Bool) :
    Overwrites (fun m => (scale sws { s with mosaic := m } image pos (s.layout.getWidth pos)
        (s.layout.getHeight pos)
        (s.layout.mosaicTotalWidth * s.layout.getTop pos + s.layout.getLeft pos) offset2
        keepAspectRatio).mosaic) (s.layout.slotCells pos) ↔
      s.layout.SlotEmpty pos ∨ s.Scaled sws pos image keepAspectRatio ∧
        (s.layout.getWidth pos / 2 = 0 ∨ s.layout.getHeight pos / 2 = 0 ∨
          offset2 = s.layout.halfOffset pos) := by
  have hfits := @FrameScaler.fits_setResize sws _ _ (hfit pos) image.width image.height
    image.width (s.layout.getWidth pos) (s.layout.getHeight pos) keepAspectRatio
  have hsizes := @FrameScaler.setResize_sizes sws (s.resizer pos) image.width image.height
    image.width (s.layout.getWidth pos) (s.layout.getHeight pos) s.layout.mosaicTotalWidth
    keepAspectRatio
  have hnone := @FrameScaler.setResize_eq_false sws (s.resizer pos) image.width image.height
    image.width (s.layout.getWidth pos) (s.layout.getHeight pos) s.layout.mosaicTotalWidth
    keepAspectRatio
  simp only [scale, Scaled]
  generalize (s.resizer pos).setResize sws image.width image.height image.width
    (s.layout.getWidth pos) (s.layout.getHeight pos) s.layout.mosaicTotalWidth keepAspectRatio
    = scaler at hfits hsizes hnone ⊢
  rcases Classical.em scaler.resizeCtx with hctx | hctx
  · have hempty : ¬ s.layout.SlotEmpty pos := by
      intro hempty
      rw [hnone (.inr (.inr hempty))] at hctx
      cases hctx
    obtain ⟨hwidth, hheight⟩ := hsizes hctx
    have hline := hfits.lineWidth_eq hctx
    rcases Classical.em scaler.FillsRows with hfills | hfills
    · have hcells := @FrameScaler.cells_of_fillsRows scaler hfills
        (s.layout.mosaicTotalWidth * s.layout.getTop pos + s.layout.getLeft pos)
        (s.lineaU offset2) (s.lineaV offset2) (hline ▸ s.layout.width_even)
      rw [hline, hwidth, hheight] at hcells
      simp only [hempty, hctx, hfills, true_and, false_or]
      exact overwrites_planes_iff hinside hpos ((FrameScaler.overwrites_resize hctx
        (hfits.width_le hctx) _ _ _ _ _ _).of_eq hcells)
    · simp only [hempty, hctx, hfills, and_false, false_and, or_false, iff_false]
      intro hover
      have hwidth_le := getWidth_le hinside hpos hempty
      have hw := hfits.width_pos hctx
      have hle := hfits.width_le hctx
      have hh := hfits.height_pos hctx
      have hy : scaler.y < scaler.resizeDstHeight := by
        have := hfits.height_le hctx
        rw [FrameScaler.y]
        omega
      -- the last sample of the first row of the image keeps its value
      have hmem : s.layout.mosaicTotalWidth * s.layout.getTop pos + s.layout.getLeft pos +
          s.layout.mosaicTotalWidth * scaler.y + (scaler.resizeDstWidth - 1) ∈
          block (s.layout.mosaicTotalWidth * s.layout.getTop pos + s.layout.getLeft pos)
            s.layout.mosaicTotalWidth (s.layout.getWidth pos) (s.layout.getHeight pos) :=
        ⟨scaler.y, by omega, by rw [Set.mem_Ico]; omega⟩
      have hlt := Layout.lt_pixels_of_mem_block hinside hpos _ hmem
      have hkeeps := FrameScaler.notMem_cells hfits hctx hfills (hwidth ▸ hwidth_le)
        (show s.layout.mosaicTotalWidth * s.layout.getTop pos + s.layout.getLeft pos +
          s.layout.mosaicTotalWidth * scaler.y + scaler.resizeDstWidth ≤ s.lineaU offset2 by
            unfold lineaU; omega)
        (show _ ≤ s.lineaV offset2 by unfold lineaV lineaU; omega)
      refine hover.notMem_of_keeps (fun m => (FrameScaler.overwrites_resize hctx hle _ _ _ _ _
        _).outside m _ hkeeps) ?_
      rw [Layout.slotCells_eq]
      exact .inl hmem
  · have hunchanged : ∀ m, scaler.resize sws image.imageY image.imageU image.imageV
        (s.layout.mosaicTotalWidth * s.layout.getTop pos + s.layout.getLeft pos)
        (s.lineaU offset2) (s.lineaV offset2) m = m := by
      intro m
      rw [FrameScaler.resize, if_neg hctx]
    simp only [hctx, false_and, or_false, Bool.false_eq_true]
    exact (iff_of_eq (congrArg (Overwrites · _) (funext hunchanged))).trans
      overwrites_unchanged_iff

end Placed

/-- Where the chroma blocks of a slot begin in the code of its mosaic's class. -/
def offset2 (l : Layout) (pos : Nat) : Nat :=
  match l.mosaicType.create with
  | .parted => PartedMosaic.offset2 l pos
  | .asymmetric => AsymmetricMosaic.offset2 l pos
  | .pip => 0

/-- What the classes that divide the picture make of an image for a slot. -/
def paint (sws : Swscale) (s : Mosaic) (pos : Nat) (image : Option Image)
    (keepAspectRatio : Bool) : Mosaic :=
  let l := s.layout
  let offset := l.mosaicTotalWidth * l.getTop pos + l.getLeft pos
  match image with
  | none => s.blank (l.getWidth pos) (l.getHeight pos) offset (offset2 l pos)
  | some image =>
    if image.width = l.getWidth pos ∧ image.height = l.getHeight pos then
      s.copy image (l.getWidth pos) (l.getHeight pos) offset (offset2 l pos)
    else
      s.scale sws image pos (l.getWidth pos) (l.getHeight pos) offset (offset2 l pos)
        keepAspectRatio

theorem scale_mosaic_of_empty (image : Image) (width height offset offset2 : Nat)
    (keepAspectRatio : Bool) (hempty : image.width = 0 ∨ image.height = 0) :
    (s.scale sws image pos width height offset offset2 keepAspectRatio).mosaic = s.mosaic := by
  rw [scale, FrameScaler.resize, FrameScaler.setResize_eq_false (by tauto), if_neg (by simp)]

theorem step_update_mosaic (hclass : s.layout.mosaicType.create ≠ .pip)
    (hpos : pos < s.layout.numSlots) (image : Option Image) (keepAspectRatio : Bool) :
    (s.step sws (.update pos image keepAspectRatio)).mosaic =
      (s.paint sws pos image keepAspectRatio).mosaic := by
  have hin : ¬ s.layout.numSlots ≤ pos := Nat.not_le.2 hpos
  rcases hcreate : s.layout.mosaicType.create with _ | _ | _
  · simp only [step, hcreate, PartedMosaic.update, PartedMosaic.clean, if_neg hin, paint,
      Layout.getWidth, Layout.getHeight, Layout.getTop, Layout.getLeft, PartedMosaic.getWidth,
      PartedMosaic.getHeight, offset2]
    have hoffset : PartedMosaic.offset s.layout pos = s.layout.mosaicTotalWidth *
        PartedMosaic.getTop s.layout pos + PartedMosaic.getLeft s.layout pos := by
      rw [PartedMosaic.offset, PartedMosaic.getTop, PartedMosaic.getLeft, Nat.mul_assoc]
    cases image with
    | none => rw [hoffset]
    | some image =>
      rw [hoffset]
      dsimp only
      split
      · rename_i hsize
        rw [hsize.1, hsize.2]
      · rfl
  · simp only [step, hcreate, AsymmetricMosaic.update, AsymmetricMosaic.clean, if_neg hin, paint,
      Layout.getWidth, Layout.getHeight, Layout.getTop, Layout.getLeft, offset2,
      AsymmetricMosaic.offset]
    cases image with
    | none => rfl
    | some image =>
      dsimp only
      split
      · rename_i hsize
        rw [hsize.1, hsize.2]
      · split
        · rfl
        · rw [scale_mosaic_of_empty _ _ _ _ _ _ (by omega)]
  · exact absurd hcreate hclass

theorem step_clean_mosaic (hclass : s.layout.mosaicType.create ≠ .pip)
    (hpos : pos < s.layout.numSlots) :
    (s.step sws (.clean pos)).mosaic = (s.paint sws pos none false).mosaic := by
  rw [← step_update_mosaic hclass hpos]
  rcases hcreate : s.layout.mosaicType.create with _ | _ | _
  · simp only [step, hcreate, PartedMosaic.update, if_neg (Nat.not_le.2 hpos)]
  · simp only [step, hcreate, AsymmetricMosaic.update, if_neg (Nat.not_le.2 hpos)]
  · exact absurd hcreate hclass

theorem chromaAligned_iff (hclass : s.layout.mosaicType.create ≠ .pip) :
    s.ChromaAligned pos ↔ s.layout.getWidth pos / 2 = 0 ∨ s.layout.getHeight pos / 2 = 0 ∨
      offset2 s.layout pos = s.layout.halfOffset pos := by
  rcases hcreate : s.layout.mosaicType.create with _ | _ | _
  · simp only [ChromaAligned, hcreate, offset2, PartedMosaic.offset2_eq_iff hcreate, true_and,
      reduceCtorEq, false_and, or_false]
  · simp only [ChromaAligned, hcreate, offset2, AsymmetricMosaic.offset2_eq_iff hcreate, true_and,
      reduceCtorEq, false_and, false_or]
  · exact absurd hcreate hclass

theorem isolated_iff_of_not_pip (hclass : s.layout.mosaicType.create ≠ .pip)
    (hpos : pos < s.layout.numSlots) (hfit : s.ScalersFit) (image : Option Image)
    (keepAspectRatio : Bool) :
    s.Isolated sws pos image keepAspectRatio ↔ s.layout.ThirdsFit ∧
      (s.layout.SlotEmpty pos ∨ s.ChromaAligned pos ∧ s.Shown sws pos image keepAspectRatio) := by
  rw [Isolated, Layout.apart_iff_of_not_pip hclass]
  refine and_congr_right fun hthirds => ?_
  have hinside := ((Layout.apart_iff_of_not_pip hclass).2 hthirds).1
  have hupdate : (fun m => ({ s with mosaic := m }.step sws
      (.update pos image keepAspectRatio)).mosaic) =
      fun m => ({ s with mosaic := m }.paint sws pos image keepAspectRatio).mosaic :=
    funext fun m => step_update_mosaic (s := { s with mosaic := m }) hclass hpos _ _
  have hclean : (fun m => ({ s with mosaic := m }.step sws (.clean pos)).mosaic) =
      fun m => ({ s with mosaic := m }.paint sws pos none false).mosaic :=
    funext fun m => step_clean_mosaic (s := { s with mosaic := m }) hclass hpos
  have hblank : Overwrites (fun m => ({ s with mosaic := m }.paint sws pos none false).mosaic)
      (s.layout.slotCells pos) ↔ s.ChromaAligned pos :=
    (overwrites_planes_iff hinside hpos (overwrites_blankPlanes _ _ _ _ _ _)).trans
      (chromaAligned_iff hclass).symm
  have hsmall : s.layout.SlotEmpty pos → s.ChromaAligned pos := by
    unfold Layout.SlotEmpty ChromaAligned
    omega
  rw [hupdate, hclean, hblank]
  cases image with
  | none =>
    have hshown : s.Shown sws pos none keepAspectRatio := fun _ h => nomatch h
    have hnone : (fun m => ({ s with mosaic := m }.paint sws pos none keepAspectRatio).mosaic) =
        fun m => ({ s with mosaic := m }.paint sws pos none false).mosaic := rfl
    rw [hnone, hblank]
    tauto
  | some image =>
    have hshown : s.Shown sws pos (some image) keepAspectRatio ↔
        image.width = s.layout.getWidth pos ∧ image.height = s.layout.getHeight pos ∨
          s.Scaled sws pos image keepAspectRatio := by
      simp only [Shown, Option.some.injEq, forall_eq']
    rw [hshown]
    rcases Classical.em (image.width = s.layout.getWidth pos ∧
      image.height = s.layout.getHeight pos) with hsize | hsize
    · have hcopy : Overwrites (fun m => ({ s with mosaic := m }.paint sws pos (some image)
          keepAspectRatio).mosaic) (s.layout.slotCells pos) ↔ s.ChromaAligned pos := by
        simp only [paint, if_pos hsize]
        exact (overwrites_planes_iff hinside hpos (overwrites_copyPlanes _ _ _ _ _ _ _ _ _)).trans
          (chromaAligned_iff hclass).symm
      rw [hcopy]
      tauto
    · have hscale : Overwrites (fun m => ({ s with mosaic := m }.paint sws pos (some image)
          keepAspectRatio).mosaic) (s.layout.slotCells pos) ↔
          s.layout.SlotEmpty pos ∨ s.Scaled sws pos image keepAspectRatio ∧
            s.ChromaAligned pos := by
        simp only [paint, if_neg hsize]
        rw [chromaAligned_iff hclass]
        exact overwrites_scale_iff hinside hpos hfit image keepAspectRatio
      rw [hscale]
      tauto

theorem overwrites_updatePip (hclass : s.layout.mosaicType.create = .pip)
    (hpos : pos < s.layout.numSlots) (hpos0 : pos ≠ 0) (hempty : s.layout.SlotEmpty pos)
    (image : Image) (keepAspectRatio : Bool) :
    Overwrites (fun m =>
      (PIPMosaic.updatePip sws { s with mosaic := m } pos image keepAspectRatio).mosaic) ∅ := by
  have hsize : PIPMosaic.mosaicWidth s.layout = 0 ∨ PIPMosaic.mosaicHeight s.layout = 0 := by
    simpa only [Layout.SlotEmpty, Layout.getWidth, Layout.getHeight, hclass, PIPMosaic.getWidth,
      PIPMosaic.getHeight, PIPMosaic.mosaicWidth, PIPMosaic.mosaicHeight, if_neg hpos0, if_neg (show ¬ s.layout.numSlots < pos + 1 by omega)]
      using hempty
  have hchroma : PIPMosaic.mosaicWidth s.layout = 0 → PIPMosaic.mosaicWidthUV s.layout = 0 := by
    unfold PIPMosaic.mosaicWidth PIPMosaic.mosaicWidthUV size4Mul
    split <;> omega
  simp only [PIPMosaic.updatePip, lineaV, lineaU]
  rcases Classical.em (image.width = PIPMosaic.mosaicWidth s.layout ∧
    image.height = PIPMosaic.mosaicHeight s.layout) with himage | himage
  · simp only [if_pos himage]
    refine ((Overwrites.forRange fun i _ => overwrites_memcpy _ _ _).comp
      (Overwrites.forRange fun i _ =>
        (overwrites_memcpy _ _ _).comp (overwrites_memcpy _ _ _))).of_eq ?_
    ext a
    simp only [Set.mem_union, Set.mem_ofPred_eq, Set.mem_Ico, Set.mem_empty_iff_false, iff_false,
      not_or, not_exists, not_and]
    exact ⟨fun i hi _ => by omega, fun i hi => by omega⟩
  · simp only [if_neg himage]
    rcases Classical.em (0 < image.width ∧ 0 < image.height) with hsome | hsome
    · simp only [if_pos hsome, scale, FrameScaler.resize,
        FrameScaler.setResize_eq_false (.inr (.inr hsize)), Bool.false_eq_true, if_false]
      exact overwrites_id
    · simp only [if_neg hsome]
      exact overwrites_id

theorem isolated_iff_of_pip (hclass : s.layout.mosaicType.create = .pip)
    (hpos : pos < s.layout.numSlots) (image : Option Image) (keepAspectRatio : Bool) :
    s.Isolated sws pos image keepAspectRatio ↔ s.layout.SlotEmpty pos := by
  have hclean : (fun m => ({ s with mosaic := m }.step sws (.clean pos)).mosaic) = fun m => m := by
    funext m
    simp only [step, hclass, PIPMosaic.clean]
  constructor
  · rintro ⟨-, -, hcleaned⟩
    rw [hclean] at hcleaned
    exact overwrites_unchanged_iff.1 hcleaned
  · intro hempty
    refine ⟨Layout.apart_of_pip hclass hpos hempty, ?_, ?_⟩
    · have hpos0 : pos ≠ 0 := by
        rintro rfl
        have h0 := Layout.slot_pip_zero hclass
        have hw := s.layout.width_pos
        have hh := s.layout.height_pos
        simp only [Layout.slot, Rect.mk.injEq] at h0
        unfold Layout.SlotEmpty at hempty
        omega
      rw [slotCells_eq_empty hempty]
      cases image with
      | none =>
        simp only [step, hclass, PIPMosaic.update, PIPMosaic.clean]
        exact overwrites_id
      | some image =>
        simp only [step, hclass, PIPMosaic.update, if_neg hpos0,
          if_neg (show ¬ s.layout.numSlots < pos + 1 by omega)]
        exact overwrites_updatePip hclass hpos hpos0 hempty image keepAspectRatio
    · rw [hclean]
      exact overwrites_unchanged_iff.2 hempty

theorem isolated_iff (hpos : pos < s.layout.numSlots) (hfit : s.ScalersFit)
    (image : Option Image) (keepAspectRatio : Bool) :
    s.Isolated sws pos image keepAspectRatio ↔ s.layout.ThirdsFit ∧
      (s.layout.SlotEmpty pos ∨ s.layout.mosaicType.create ≠ .pip ∧ s.ChromaAligned pos ∧
        s.Shown sws pos image keepAspectRatio) := by
  rcases Classical.em (s.layout.mosaicType.create = .pip) with hclass | hclass
  · have hthirds : s.layout.ThirdsFit := by
      intro htype
      rw [htype] at hclass
      cases hclass
    rw [isolated_iff_of_pip hclass hpos]
    simp only [hthirds, hclass, ne_eq, not_true_eq_false, false_and, or_false, true_and]
  · rw [isolated_iff_of_not_pip hclass hpos hfit]
    tauto

/-- What a call does to the scalers: each one is left alone or set up for rows of the mosaic. -/
structure Follows (sws : Swscale) (s t : Mosaic) : Prop where
  layout_eq : t.layout = s.layout
  resizer_eq : ∀ q, t.resizer q = s.resizer q ∨ ∃ (image : Image) (width height : Nat)
    (keepAspectRatio : Bool), t.resizer q = (s.resizer q).setResize sws image.width image.height
      image.width width height s.layout.mosaicTotalWidth keepAspectRatio

theorem Follows.of_eq {t : Mosaic} (hlayout : t.layout = s.layout)
    (hresizer : t.resizer = s.resizer) : Follows sws s t :=
  ⟨hlayout, fun _ => .inl (by rw [hresizer])⟩

theorem Follows.of_update {t : Mosaic} {image : Image} {width height : Nat}
    {keepAspectRatio : Bool} (hlayout : t.layout = s.layout)
    (hresizer : t.resizer = Function.update s.resizer pos ((s.resizer pos).setResize sws image.width
      image.height image.width width height s.layout.mosaicTotalWidth keepAspectRatio)) :
    Follows sws s t := by
  refine ⟨hlayout, fun q => ?_⟩
  rw [hresizer]
  rcases Classical.em (q = pos) with rfl | hq
  · exact .inr ⟨image, width, height, keepAspectRatio, Function.update_self _ _ _⟩
  · exact .inl (Function.update_of_ne hq _ _)

theorem follows_step (c : Call) : Follows sws s (s.step sws c) := by
  cases c with
  | clean pos =>
    unfold step PartedMosaic.clean AsymmetricMosaic.clean PIPMosaic.clean
    dsimp only
    split <;> (try split) <;> exact .of_eq rfl rfl
  | update pos image keepAspectRatio =>
    unfold step
    dsimp only
    split
    · unfold PartedMosaic.update PartedMosaic.clean
      split
      · exact .of_eq rfl rfl
      · split
        · exact .of_eq rfl rfl
        · split
          · exact .of_eq rfl rfl
          · exact .of_update rfl rfl
    · unfold AsymmetricMosaic.update AsymmetricMosaic.clean
      split
      · exact .of_eq rfl rfl
      · split
        · exact .of_eq rfl rfl
        · split
          · exact .of_eq rfl rfl
          · split
            · exact .of_update rfl rfl
            · exact .of_eq rfl rfl
    · unfold PIPMosaic.update
      split
      · exact .of_eq rfl rfl
      · split
        · exact .of_eq rfl rfl
        · split
          · unfold PIPMosaic.updateMain
            dsimp only
            split
            · exact .of_eq rfl rfl
            · exact .of_update rfl rfl
          · unfold PIPMosaic.updatePip
            dsimp only
            split
            · exact .of_eq rfl rfl
            · split
              · exact .of_update rfl rfl
              · exact .of_eq rfl rfl

theorem ScalersFit.follows {t : Mosaic} (hfit : s.ScalersFit) (hfollows : Follows sws s t) :
    t.ScalersFit := by
  intro q
  rw [hfollows.layout_eq]
  rcases hfollows.resizer_eq q with hq | ⟨image, width, height, keepAspectRatio, hq⟩
  · rw [hq]
    exact hfit q
  · rw [hq]
    exact FrameScaler.fits_setResize (hfit q) _ _ _ _ _ _

theorem run_invariant (hfit : s.ScalersFit) (calls : List Call) :
    (s.run sws calls).layout = s.layout ∧ (s.run sws calls).ScalersFit := by
  induction calls generalizing s with
  | nil => exact ⟨rfl, hfit⟩
  | cons c calls ih =>
    have hstep := @follows_step sws s c
    have hrun := ih (hfit.follows hstep)
    exact ⟨hrun.1.trans hstep.layout_eq, hrun.2⟩

end Mosaic

end McuMediaServer
