import McuMediaServer.Base.Overwrite

/-!
# The frame scaler

The scaler of a slot keeps one context for the sizes it was last set up with. A picture is scaled
into a buffer of its own, with its aspect ratio kept or not, and copied from there into the middle
of the rows of the target, between two bars. The bars have an even width, so where the picture is
one to three columns narrower than the target there are none, and what the picture leaves of a row
stays as it was.
-/

namespace McuMediaServer

open Overwrite

/-- A pointer that is read from. -/
abbrev Pointer := Nat → UInt8

/-- Reference: `framescaler.h:19`. -/
structure FrameScaler where
  resizeCtx : Bool := false
  resizeWidth : Nat := 0
  resizeHeight : Nat := 0
  resizeDstWidth : Nat := 0
  resizeDstHeight : Nat := 0
  resizeDstAdjustedHeight : Nat := 0
  resizeDstAdjustedWidth : Nat := 0
  resizeDstLineWidth : Nat := 0
  resizeSrc : Nat × Nat × Nat := (0, 0, 0)
  tmpWidth : Nat := 0
  tmpHeight : Nat := 0

/-- The part of the scaler that is not code of the server: what the library takes for sizes and
makes of a picture, and the quotients of doubles an aspect ratio is kept with. The library refuses
an empty picture, and a picture with its aspect ratio kept is no larger than the target. -/
structure Swscale where
  init : Nat → Nat → Nat → Nat → Bool
  adjust : Nat → Nat → Nat → Nat → Nat × Nat
  scale : FrameScaler → Pointer → Pointer → Pointer → Pointer
  init_pos : ∀ srcWidth srcHeight width height,
    init srcWidth srcHeight width height = true → 0 < width ∧ 0 < height
  adjust_le : ∀ srcWidth srcHeight dstWidth dstHeight,
    (adjust srcWidth srcHeight dstWidth dstHeight).1 ≤ dstWidth ∧
      (adjust srcWidth srcHeight dstWidth dstHeight).2 ≤ dstHeight

namespace FrameScaler

variable (sws : Swscale)

/-- The size of the picture in the target. Reference: `framescaler.cpp:79`. -/
def adjusted (srcWidth srcHeight dstWidth dstHeight : Nat) (keepAspectRatio : Bool) : Nat × Nat :=
  if keepAspectRatio then sws.adjust srcWidth srcHeight dstWidth dstHeight
  else (dstWidth, dstHeight)

/-- Set the sizes up, unless the context is for them already. Reference: `framescaler.cpp:47`. -/
def setResize (scaler : FrameScaler) (srcWidth srcHeight srcLineWidth dstWidth dstHeight
    dstLineWidth : Nat) (keepAspectRatio : Bool) : FrameScaler :=
  if srcWidth = 0 ∨ srcHeight = 0 ∨ srcLineWidth = 0 ∨ dstWidth = 0 ∨ dstHeight = 0 ∨
      dstLineWidth = 0 then
    { scaler with resizeCtx := false }
  else if scaler.resizeCtx ∧ scaler.resizeWidth = srcWidth ∧ srcHeight = scaler.resizeHeight ∧
      dstWidth = scaler.resizeDstWidth ∧ dstHeight = scaler.resizeDstHeight then
    scaler
  else
    let adjusted := adjusted sws srcWidth srcHeight dstWidth dstHeight keepAspectRatio
    let scaler := { scaler with
      resizeWidth := srcWidth
      resizeHeight := srcHeight
      resizeDstWidth := dstWidth
      resizeDstHeight := dstHeight
      resizeDstLineWidth := dstLineWidth
      resizeDstAdjustedWidth := adjusted.1
      resizeDstAdjustedHeight := adjusted.2 }
    if sws.init srcWidth srcHeight adjusted.1 adjusted.2 then
      { scaler with
        resizeCtx := true
        -- the width and height of the buffer are multiples of 32
        tmpWidth := (adjusted.1 / 32 + 1) * 32
        tmpHeight := (adjusted.2 / 32 + 1) * 32
        resizeSrc := (srcLineWidth, srcLineWidth / 2, srcLineWidth / 2) }
    else
      { scaler with resizeCtx := false }

/-- Where the picture begins in a row. Reference: `framescaler.cpp:206`. -/
def x (scaler : FrameScaler) : Nat :=
  (scaler.resizeDstWidth - scaler.resizeDstAdjustedWidth) / 2 / 2 * 2

/-- The row where the picture begins. Reference: `framescaler.cpp:207`. -/
def y (scaler : FrameScaler) : Nat :=
  (scaler.resizeDstHeight - scaler.resizeDstAdjustedHeight) / 2 / 2 * 2

variable (scaler : FrameScaler)

/-- A row of the luma plane. Reference: `framescaler.cpp:212`. -/
def lumaRow (tmpY : Pointer) (dstY i : Nat) (m : Nat → UInt8) : Nat → UInt8 :=
  let row := dstY + scaler.resizeDstLineWidth * i
  if i < scaler.y ∨ scaler.resizeDstAdjustedHeight + scaler.y ≤ i then
    memset row 0 scaler.resizeDstWidth m
  else
    let bars (m : Nat → UInt8) :=
      if 0 < scaler.x then
        memset (row + scaler.x + scaler.resizeDstAdjustedWidth) 0
          (scaler.resizeDstWidth - scaler.resizeDstAdjustedWidth - scaler.x)
          (memset row 0 scaler.x m)
      else m
    memcpy (row + scaler.x) (fun a => tmpY (scaler.tmpWidth * (i - scaler.y) + a))
      scaler.resizeDstAdjustedWidth (bars m)

/-- A row of the two chroma planes. Reference: `framescaler.cpp:240`. -/
def chromaRow (tmpU tmpV : Pointer) (dstU dstV i : Nat) (m : Nat → UInt8) : Nat → UInt8 :=
  let x := scaler.x / 2
  let y := scaler.y / 2
  let width := scaler.resizeDstWidth / 2
  let adjusted := scaler.resizeDstAdjustedWidth / 2
  let rowU := dstU + scaler.resizeDstLineWidth * i / 2
  let rowV := dstV + scaler.resizeDstLineWidth * i / 2
  if i < y ∨ scaler.resizeDstAdjustedHeight / 2 + y ≤ i then
    memset rowV 128 width (memset rowU 128 width m)
  else
    let bars (m : Nat → UInt8) :=
      if 0 < x then
        memset (rowV + x + adjusted) 128 (width - adjusted - x)
          (memset (rowU + x + adjusted) 128 (width - adjusted - x)
            (memset rowV 128 x (memset rowU 128 x m)))
      else m
    memcpy (rowV + x) (fun a => tmpV (scaler.tmpWidth * (i - y) / 2 + a)) adjusted
      (memcpy (rowU + x) (fun a => tmpU (scaler.tmpWidth * (i - y) / 2 + a)) adjusted (bars m))

/-- Scale a picture and copy it to the target. Reference: `framescaler.cpp:179`. -/
def resize (srcY srcU srcV : Pointer) (dstY dstU dstV : Nat) (m : Nat → UInt8) : Nat → UInt8 :=
  if scaler.resizeCtx then
    let tmpY := sws.scale scaler srcY srcU srcV
    let tmpU (a : Nat) := tmpY (scaler.tmpWidth * scaler.tmpHeight + a)
    let tmpV (a : Nat) := tmpU (scaler.tmpWidth * scaler.tmpHeight / 4 + a)
    forRange (scaler.resizeDstHeight / 2) (scaler.chromaRow tmpU tmpV dstU dstV)
      (forRange scaler.resizeDstHeight (scaler.lumaRow tmpY dstY) m)
  else m

/-- What the context was set up with. -/
structure Fits (lineWidth : Nat) : Prop where
  width_pos : scaler.resizeCtx → 0 < scaler.resizeDstAdjustedWidth
  height_pos : scaler.resizeCtx → 0 < scaler.resizeDstAdjustedHeight
  width_le : scaler.resizeCtx → scaler.resizeDstAdjustedWidth ≤ scaler.resizeDstWidth
  height_le : scaler.resizeCtx → scaler.resizeDstAdjustedHeight ≤ scaler.resizeDstHeight
  lineWidth_eq : scaler.resizeCtx → scaler.resizeDstLineWidth = lineWidth

/-- The picture and the bars fill the rows: the picture is as wide as the target, or enough
narrower for two bars. -/
def FillsRows : Prop :=
  scaler.resizeDstAdjustedWidth = scaler.resizeDstWidth ∨
    scaler.resizeDstAdjustedWidth + 4 ≤ scaler.resizeDstWidth

instance : Decidable scaler.FillsRows := inferInstanceAs (Decidable (_ ∨ _))

/-- What is written of a luma row. -/
def lumaCells (dstY i : Nat) : Set Nat :=
  let row := dstY + scaler.resizeDstLineWidth * i
  if i < scaler.y ∨ scaler.resizeDstAdjustedHeight + scaler.y ≤ i ∨ scaler.FillsRows then
    Set.Ico row (row + scaler.resizeDstWidth)
  else
    Set.Ico row (row + scaler.resizeDstAdjustedWidth)

/-- What is written of a row of one chroma plane. -/
def chromaCells (dst i : Nat) : Set Nat :=
  let row := dst + scaler.resizeDstLineWidth * i / 2
  if i < scaler.y / 2 ∨ scaler.resizeDstAdjustedHeight / 2 + scaler.y / 2 ≤ i ∨
      scaler.FillsRows then
    Set.Ico row (row + scaler.resizeDstWidth / 2)
  else
    Set.Ico row (row + scaler.resizeDstAdjustedWidth / 2)

variable {sws scaler} {lineWidth : Nat}

theorem fits_new : Fits {} lineWidth := by
  constructor <;> intro h <;> cases h

theorem adjusted_le (srcWidth srcHeight dstWidth dstHeight : Nat) (keepAspectRatio : Bool) :
    (adjusted sws srcWidth srcHeight dstWidth dstHeight keepAspectRatio).1 ≤ dstWidth ∧
      (adjusted sws srcWidth srcHeight dstWidth dstHeight keepAspectRatio).2 ≤ dstHeight := by
  unfold adjusted
  split
  · exact sws.adjust_le _ _ _ _
  · exact ⟨le_rfl, le_rfl⟩

/-- A context that is set up is for the sizes. Reference: `framescaler.cpp:47`. -/
theorem fits_setResize (hfits : scaler.Fits lineWidth)
    (srcWidth srcHeight srcLineWidth dstWidth dstHeight : Nat) (keepAspectRatio : Bool) :
    (scaler.setResize sws srcWidth srcHeight srcLineWidth dstWidth dstHeight lineWidth
      keepAspectRatio).Fits lineWidth := by
  unfold setResize
  split
  · constructor <;> intro h <;> cases h
  · split
    · exact hfits
    · have hle := @adjusted_le sws srcWidth srcHeight dstWidth dstHeight keepAspectRatio
      dsimp only
      split
      · rename_i hinit
        have hpos := sws.init_pos _ _ _ _ hinit
        exact ⟨fun _ => hpos.1, fun _ => hpos.2, fun _ => hle.1, fun _ => hle.2, fun _ => rfl⟩
      · constructor <;> intro h <;> cases h

theorem setResize_sizes {srcWidth srcHeight srcLineWidth dstWidth dstHeight dstLineWidth : Nat}
    {keepAspectRatio : Bool}
    (hctx : (scaler.setResize sws srcWidth srcHeight srcLineWidth dstWidth dstHeight dstLineWidth
      keepAspectRatio).resizeCtx) :
    (scaler.setResize sws srcWidth srcHeight srcLineWidth dstWidth dstHeight dstLineWidth
        keepAspectRatio).resizeDstWidth = dstWidth ∧
      (scaler.setResize sws srcWidth srcHeight srcLineWidth dstWidth dstHeight dstLineWidth
        keepAspectRatio).resizeDstHeight = dstHeight := by
  unfold setResize at hctx ⊢
  split at hctx
  · cases hctx
  · split at hctx
    · rename_i hempty hsame
      rw [if_neg hempty, if_pos hsame]
      exact ⟨hsame.2.2.2.1.symm, hsame.2.2.2.2.symm⟩
    · rename_i hempty hsame
      rw [if_neg hempty, if_neg hsame]
      dsimp only
      split
      · exact ⟨rfl, rfl⟩
      · exact ⟨rfl, rfl⟩

theorem setResize_eq_false {srcWidth srcHeight srcLineWidth dstWidth dstHeight dstLineWidth : Nat}
    {keepAspectRatio : Bool}
    (hempty : srcWidth = 0 ∨ srcHeight = 0 ∨ dstWidth = 0 ∨ dstHeight = 0) :
    (scaler.setResize sws srcWidth srcHeight srcLineWidth dstWidth dstHeight dstLineWidth
      keepAspectRatio).resizeCtx = false := by
  unfold setResize
  rw [if_pos (by tauto)]

theorem x_pos_iff : 0 < scaler.x ↔
    scaler.resizeDstAdjustedWidth + 4 ≤ scaler.resizeDstWidth := by
  rw [x]
  omega

theorem overwrites_lumaRow (hle : scaler.resizeDstAdjustedWidth ≤ scaler.resizeDstWidth)
    (tmpY : Pointer) (dstY i : Nat) :
    Overwrites (scaler.lumaRow tmpY dstY i) (scaler.lumaCells dstY i) := by
  unfold lumaRow lumaCells
  dsimp only
  rcases Classical.em (i < scaler.y ∨ scaler.resizeDstAdjustedHeight + scaler.y ≤ i) with hi | hi
  · simp only [if_pos hi, if_pos (or_assoc.1 (Or.inl hi))]
    exact overwrites_memset _ _ _
  · simp only [if_neg hi]
    rcases Classical.em (0 < scaler.x) with hx | hx
    · have hfills : scaler.FillsRows := .inr (x_pos_iff.1 hx)
      simp only [if_pos hx, hfills, or_true, if_true]
      refine (((overwrites_memset _ _ _).comp (overwrites_memset _ _ _)).comp
        (overwrites_memcpy _ _ _)).of_eq ?_
      have hbars : 2 * scaler.x ≤ scaler.resizeDstWidth - scaler.resizeDstAdjustedWidth := by
        rw [x]
        omega
      ext a
      simp only [Set.mem_union, Set.mem_Ico]
      omega
    · have hbars := mt x_pos_iff.2 hx
      have hx0 : scaler.x = 0 := by omega
      simp only [hx0, Nat.add_zero]
      refine (overwrites_memcpy _ _ _).of_eq ?_
      split
      · rename_i hfills
        have hwidth : scaler.resizeDstAdjustedWidth = scaler.resizeDstWidth := by
          unfold FillsRows at hfills
          omega
        rw [hwidth]
      · rfl

theorem overwrites_chromaRow (hle : scaler.resizeDstAdjustedWidth ≤ scaler.resizeDstWidth)
    (tmpU tmpV : Pointer) (dstU dstV i : Nat) :
    Overwrites (scaler.chromaRow tmpU tmpV dstU dstV i)
      (scaler.chromaCells dstU i ∪ scaler.chromaCells dstV i) := by
  unfold chromaRow chromaCells
  dsimp only
  rcases Classical.em (i < scaler.y / 2 ∨
    scaler.resizeDstAdjustedHeight / 2 + scaler.y / 2 ≤ i) with hi | hi
  · simp only [if_pos hi, if_pos (or_assoc.1 (Or.inl hi))]
    exact (overwrites_memset _ _ _).comp (overwrites_memset _ _ _)
  · simp only [if_neg hi]
    rcases Classical.em (0 < scaler.x / 2) with hx | hx
    · have hfills : scaler.FillsRows := .inr (x_pos_iff.1 (by omega))
      simp only [if_pos hx, hfills, or_true, if_true]
      have hbars : 2 * (scaler.x / 2) ≤
          scaler.resizeDstWidth / 2 - scaler.resizeDstAdjustedWidth / 2 := by
        rw [x]
        omega
      refine ((((((overwrites_memset _ _ _).comp (overwrites_memset _ _ _)).comp
        (overwrites_memset _ _ _)).comp (overwrites_memset _ _ _)).comp
        (overwrites_memcpy _ _ _)).comp (overwrites_memcpy _ _ _)).of_eq ?_
      ext a
      simp only [Set.mem_union, Set.mem_Ico]
      omega
    · have hbars : ¬ scaler.resizeDstAdjustedWidth + 4 ≤ scaler.resizeDstWidth := by
        rw [x] at hx
        omega
      have hx0 : scaler.x / 2 = 0 := by omega
      simp only [hx0, Nat.add_zero]
      refine ((overwrites_memcpy _ _ _).comp (overwrites_memcpy _ _ _)).of_eq ?_
      split
      · rename_i hfills
        have hwidth : scaler.resizeDstAdjustedWidth = scaler.resizeDstWidth := by
          unfold FillsRows at hfills
          omega
        rw [hwidth]
      · rfl

/-- What is written of the target. -/
def cells (dstY dstU dstV : Nat) : Set Nat :=
  {a | ∃ i < scaler.resizeDstHeight, a ∈ scaler.lumaCells dstY i} ∪
    {a | ∃ i < scaler.resizeDstHeight / 2, a ∈ scaler.chromaCells dstU i ∪ scaler.chromaCells dstV i}

theorem overwrites_resize (hctx : scaler.resizeCtx)
    (hle : scaler.resizeDstAdjustedWidth ≤ scaler.resizeDstWidth) (srcY srcU srcV : Pointer)
    (dstY dstU dstV : Nat) :
    Overwrites (scaler.resize sws srcY srcU srcV dstY dstU dstV) (scaler.cells dstY dstU dstV) := by
  unfold resize
  simp only [hctx, if_true]
  exact (Overwrites.forRange fun i _ => overwrites_lumaRow hle _ _ i).comp
    (Overwrites.forRange fun i _ => overwrites_chromaRow hle _ _ _ _ i)

theorem cells_of_fillsRows (hfills : scaler.FillsRows) {dstY dstU dstV : Nat}
    (heven : scaler.resizeDstLineWidth % 2 = 0) :
    scaler.cells dstY dstU dstV =
      block dstY scaler.resizeDstLineWidth scaler.resizeDstWidth scaler.resizeDstHeight ∪
        (block dstU (scaler.resizeDstLineWidth / 2) (scaler.resizeDstWidth / 2)
            (scaler.resizeDstHeight / 2) ∪
          block dstV (scaler.resizeDstLineWidth / 2) (scaler.resizeDstWidth / 2)
            (scaler.resizeDstHeight / 2)) := by
  have hline (i : Nat) :
      scaler.resizeDstLineWidth * i / 2 = scaler.resizeDstLineWidth / 2 * i := by
    obtain ⟨w, hw⟩ := Nat.dvd_of_mod_eq_zero heven
    rw [hw, Nat.mul_assoc, Nat.mul_div_cancel_left _ (by omega),
      Nat.mul_div_cancel_left _ (by omega)]
  ext a
  simp only [cells, lumaCells, chromaCells, hfills, or_true, if_true, block, hline, Set.mem_union,
    Set.mem_ofPred_eq, and_or_left, exists_or]

theorem notMem_cells (hfits : scaler.Fits lineWidth) (hctx : scaler.resizeCtx)
    (hfills : ¬ scaler.FillsRows) (hwidth : scaler.resizeDstWidth ≤ lineWidth)
    {dstY dstU dstV : Nat}
    (hU : dstY + lineWidth * scaler.y + scaler.resizeDstWidth ≤ dstU)
    (hV : dstY + lineWidth * scaler.y + scaler.resizeDstWidth ≤ dstV) :
    dstY + lineWidth * scaler.y + (scaler.resizeDstWidth - 1) ∉ scaler.cells dstY dstU dstV := by
  have hpos := hfits.width_pos hctx
  have hle := hfits.width_le hctx
  have hheight := hfits.height_pos hctx
  have hline := hfits.lineWidth_eq hctx
  have hlt : scaler.resizeDstAdjustedWidth < scaler.resizeDstWidth := by
    unfold FillsRows at hfills
    omega
  rintro (⟨i, hi, ha⟩ | ⟨i, hi, ha⟩)
  · rw [lumaCells, hline] at ha
    rcases Nat.lt_trichotomy i scaler.y with hy | rfl | hy
    · have hrow : lineWidth * i + lineWidth ≤ lineWidth * scaler.y := by
        rw [← Nat.mul_succ]
        exact Nat.mul_le_mul_left _ hy
      split at ha
      · simp only [Set.mem_Ico] at ha
        omega
      · simp only [Set.mem_Ico] at ha
        omega
    · rw [if_neg (by simp only [hfills, or_false]; omega), Set.mem_Ico] at ha
      omega
    · have hrow : lineWidth * scaler.y + lineWidth ≤ lineWidth * i := by
        rw [← Nat.mul_succ]
        exact Nat.mul_le_mul_left _ hy
      split at ha
      · simp only [Set.mem_Ico] at ha
        omega
      · simp only [Set.mem_Ico] at ha
        omega
  · have hbase {dst : Nat} (h : dstY + lineWidth * scaler.y + scaler.resizeDstWidth ≤ dst) :
        dstY + lineWidth * scaler.y + (scaler.resizeDstWidth - 1) ∉ scaler.chromaCells dst i := by
      unfold chromaCells
      dsimp only
      split
      · rw [Set.mem_Ico]
        omega
      · rw [Set.mem_Ico]
        omega
    exact ha.elim (hbase hU) (hbase hV)

end FrameScaler

end McuMediaServer
