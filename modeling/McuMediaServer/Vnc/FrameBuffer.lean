import Mathlib.Algebra.Ring.Nat
import McuMediaServer.Base.Overwrite
import McuMediaServer.Base.Run

/-!
# The framebuffer of the VNC server

The picture of a presenter is kept in a framebuffer, of four bytes a pixel, in which rectangles are
copied from the picture the presenter's viewer has. The rows of a rectangle are copied one after the
other and nothing is checked, so that a rectangle has to be inside both pictures for what is copied
to be where it belongs.
-/

namespace McuMediaServer

namespace Vnc

open Overwrite StepRun

/-- A colour of four bytes. -/
abbrev Pixel := UInt32

/-- Pixels in memory. -/
structure Image where
  size : Nat
  pixels : Nat → Pixel

/-- Reference: `VNCServer.cpp:462`. -/
def maxSize : Nat := 4096 * 3072

/-- The picture of the server, which is never bigger. Reference: `VNCServer.cpp:163`. -/
structure Screen where
  width : Nat
  height : Nat
  frameBuffer : Nat → Pixel
  size_le : width * height ≤ maxSize

namespace Screen

/-- A pixel of the picture. -/
def pixel (s : Screen) (x y : Nat) : Pixel :=
  s.frameBuffer (x + y * s.width)

/-- The pixels the framebuffer is said to have. -/
def image (s : Screen) : Image :=
  ⟨s.width * s.height, s.frameBuffer⟩

/-- What the framebuffer is filled with. -/
def white : Pixel := 0xFFFFFFFF

/-- `memcpy` of the pixels of a row into a framebuffer of `size` pixels: nothing is left to say when
it goes beyond one of the two, or when a place is beyond what an `int` holds. -/
def copyRow (size : Nat) (data : Image) (dst src n : Nat) (m : Nat → Pixel) :
    Option (Nat → Pixel) :=
  if n = 0 then some m
  else if dst + n ≤ size ∧ src + n ≤ data.size ∧ 4 * src < 2 ^ 31 then
    some (memcpy dst (fun i => data.pixels (src + i)) n m)
  else none

/-- The loop over the rows. -/
def copyRows (size : Nat) (data : Image) (dst src : Nat → Nat) (n rows : Nat) (m : Nat → Pixel) :
    Option (Nat → Pixel) :=
  (List.range rows).foldlM (fun m i => copyRow size data (dst i) (src i) n m) m

/-- A size that is not the one before. The product of the sizes is an `int`. Reference:
`VNCServer.cpp:457`. -/
def setSize (s : Screen) (width height : Nat) : Option Screen :=
  if 2 ^ 31 ≤ width * height then none
  else if hsize : maxSize < width * height then some s
  else if width = s.width ∧ height = s.height then some s
  else do
    let frameBuffer ← copyRows (width * height) s.image (fun i => i * width) (fun i => i * s.width)
      (if width < s.width then width else s.width) (min height s.height)
      (memset 0 white (width * height) s.frameBuffer)
    return { width, height, frameBuffer, size_le := Nat.not_lt.1 hsize }

/-- Reference: `VNCServer.cpp:427`. -/
def reset (s : Screen) : Screen where
  width := 0
  height := 0
  frameBuffer := memset 0 white (s.width * s.height) s.frameBuffer
  size_le := Nat.zero_le _

/-- Reference: `VNCServer.cpp:546`. -/
def frameBufferUpdate (s : Screen) (data : Image) (srcX srcY srcLineSize x y width height : Nat) :
    Option Screen := do
  let frameBuffer ← copyRows (s.width * s.height) data (fun i => x + (y + i) * s.width)
    (fun i => srcX + (srcY + i) * srcLineSize) width height s.frameBuffer
  return { s with frameBuffer }

/-- Reference: `VNCServer.cpp:565`. -/
def copyRect (s : Screen) (data : Image) (x y width height destX destY : Nat) : Option Screen := do
  let frameBuffer ← copyRows (s.width * s.height) data (fun j => destX + (destY + j) * s.width)
    (fun j => x + (y + j) * s.width) width height s.frameBuffer
  return { s with frameBuffer }

/-- What is asked of the server. Reference: `VNCServer.h:77`. -/
inductive Call where
  | setSize (width height : Nat)
  | reset
  | frameBufferUpdate (data : Image) (srcX srcY srcLineSize x y width height : Nat)
  | copyRect (data : Image) (x y width height destX destY : Nat)

/-- The picture after a call, if every access stays inside. -/
def step (s : Screen) : Call → Option Screen
  | .setSize width height => s.setSize width height
  | .reset => some s.reset
  | .frameBufferUpdate data srcX srcY srcLineSize x y width height =>
    s.frameBufferUpdate data srcX srcY srcLineSize x y width height
  | .copyRect data x y width height destX destY => s.copyRect data x y width height destX destY

/-! ## What is asked of a call -/

/-- A rectangle of the picture is that of a source, whose rows begin `line` pixels after each other,
and everything else is as before. -/
structure Updated (s t : Screen) (data : Image) (srcX srcY line x y width height : Nat) : Prop where
  width_eq : t.width = s.width
  height_eq : t.height = s.height
  pixel_eq : ∀ px py, px < s.width → py < s.height → t.pixel px py =
    if x ≤ px ∧ px < x + width ∧ y ≤ py ∧ py < y + height then
      data.pixels (srcX + (px - x) + (srcY + (py - y)) * line)
    else s.pixel px py

/-- A picture of another size keeps what is inside both, and is white elsewhere. -/
structure Resized (s t : Screen) (width height : Nat) : Prop where
  width_eq : t.width = width
  height_eq : t.height = height
  pixel_eq : ∀ px py, px < width → py < height → t.pixel px py =
    if px < s.width ∧ py < s.height then s.pixel px py else white

/-- What a call is to do. A size may be refused. -/
def Right (s t : Screen) : Call → Prop
  | .setSize width height => t = s ∨ Resized s t width height
  | .reset => t.width = 0 ∧ t.height = 0
  | .frameBufferUpdate data srcX srcY line x y width height =>
    Updated s t data srcX srcY line x y width height
  | .copyRect data x y width height destX destY =>
    Updated s t data x y s.width destX destY width height

/-- The call accesses nothing outside the framebuffer and the source, and does what it is to do. -/
def Done (s : Screen) (call : Call) : Prop :=
  ∃ t, s.step call = some t ∧ Right s t call

/-- The rectangle is empty, or inside the picture and inside the source. -/
def RectFits (s : Screen) (data : Image) (srcX srcY line x y width height : Nat) : Prop :=
  width = 0 ∨ height = 0 ∨ (x + width ≤ s.width ∧ y + height ≤ s.height ∧
    srcX + (srcY + (height - 1)) * line + width ≤ data.size ∧
    4 * (srcX + (srcY + (height - 1)) * line) < 2 ^ 31)

/-- When a call is right. -/
def Fits (s : Screen) : Call → Prop
  | .setSize width height => width * height < 2 ^ 31
  | .reset => True
  | .frameBufferUpdate data srcX srcY line x y width height =>
    s.RectFits data srcX srcY line x y width height
  | .copyRect data x y width height destX destY =>
    s.RectFits data x y s.width destX destY width height

/-! ## Rows -/

section Rows

variable {size n rows : Nat} {data : Image} {dst src : Nat → Nat}

theorem copyRows_zero (m : Nat → Pixel) : copyRows size data dst src 0 rows m = some m := by
  rw [copyRows]
  induction List.range rows with
  | nil => rfl
  | cons i l ih =>
    rw [List.foldlM_cons, copyRow, if_pos rfl]
    exact ih

theorem copyRows_inside (hdst : ∀ i < rows, dst i + n ≤ size)
    (hsrc : ∀ i < rows, src i + n ≤ data.size ∧ 4 * src i < 2 ^ 31) (hn : n ≠ 0)
    (m : Nat → Pixel) :
    copyRows size data dst src n rows m =
      some (forRange rows (fun i => memcpy (dst i) (fun c => data.pixels (src i + c)) n) m) := by
  induction rows with
  | zero => rfl
  | succ rows ih =>
    have hbefore := ih (fun i hi => hdst i (by omega)) (fun i hi => hsrc i (by omega))
    rw [copyRows, List.range_succ, List.foldlM_append, ← copyRows, hbefore]
    have hlast := hsrc rows (by omega)
    rw [Option.bind_eq_bind, Option.bind_some, List.foldlM_cons, copyRow, if_neg hn,
      if_pos ⟨hdst rows (by omega), hlast⟩]
    rfl

end Rows

theorem place_inj {width px py px' py' : Nat} (hx : px < width) (hx' : px' < width)
    (h : px + py * width = px' + py' * width) : px = px' ∧ py = py' := by
  have hmod := congrArg (· % width) h
  simp only [Nat.add_mul_mod_self_right, Nat.mod_eq_of_lt hx, Nat.mod_eq_of_lt hx'] at hmod
  refine ⟨hmod, ?_⟩
  rw [hmod] at h
  have hmul := Nat.add_left_cancel h
  exact Nat.eq_of_mul_eq_mul_right (by omega) hmul

theorem forRange_memcpy {width x y n rows px py : Nat} {src : Nat → Nat → Pixel}
    (hx : x + n ≤ width) (hpx : px < width) (m : Nat → Pixel) :
    forRange rows (fun i => memcpy (x + (y + i) * width) (src i) n) m (px + py * width) =
      if x ≤ px ∧ px < x + n ∧ y ≤ py ∧ py < y + rows then src (py - y) (px - x)
      else m (px + py * width) := by
  induction rows with
  | zero =>
    rw [forRange, if_neg]
    omega
  | succ rows ih =>
    rw [forRange, memcpy, ih]
    by_cases hrow : x ≤ px ∧ px < x + n ∧ py = y + rows
    · obtain ⟨hlow, hhigh, rfl⟩ := hrow
      rw [if_pos (by omega), if_pos (by omega)]
      congr 1
      · omega
      · omega
    · have hout : ¬ (x + (y + rows) * width ≤ px + py * width ∧
          px + py * width < x + (y + rows) * width + n) := by
        rintro ⟨hlow, hhigh⟩
        -- the place is at a column of the row, so that it is the pixel of that row
        obtain ⟨c, hc⟩ := Nat.exists_eq_add_of_le hlow
        have hplace : px + py * width = (x + c) + (y + rows) * width := by omega
        obtain ⟨rfl, rfl⟩ := place_inj hpx (by omega) hplace
        exact hrow ⟨by omega, by omega, rfl⟩
      rw [if_neg hout]
      refine if_congr ?_ rfl rfl
      constructor
      · rintro ⟨h₁, h₂, h₃, h₄⟩
        exact ⟨h₁, h₂, h₃, by omega⟩
      · rintro ⟨h₁, h₂, h₃, h₄⟩
        refine ⟨h₁, h₂, h₃, ?_⟩
        rcases Nat.lt_or_ge py (y + rows) with hlt | hge
        · exact hlt
        · exact absurd ⟨h₁, h₂, by omega⟩ hrow

/-! ## Calls -/

section Calls

variable {s : Screen} {data : Image} {srcX srcY line x y width height : Nat}

theorem row_le (hx : x + width ≤ s.width) (hy : y + height ≤ s.height) {i : Nat} (hi : i < height) :
    x + (y + i) * s.width + width ≤ s.width * s.height := by
  have hrow : (y + i + 1) * s.width ≤ s.height * s.width := Nat.mul_le_mul_right _ (by omega)
  rw [Nat.add_mul, Nat.one_mul, Nat.mul_comm s.height] at hrow
  omega

/-- **A rectangle that fits is copied.** -/
theorem exists_copyRows (h : s.RectFits data srcX srcY line x y width height) :
    ∃ m, copyRows (s.width * s.height) data (fun i => x + (y + i) * s.width)
        (fun i => srcX + (srcY + i) * line) width height s.frameBuffer = some m ∧
      Updated s { s with frameBuffer := m } data srcX srcY line x y width height := by
  rcases h with rfl | rfl | ⟨hx, hy, hsize, hint⟩
  · refine ⟨s.frameBuffer, copyRows_zero _, rfl, rfl, ?_⟩
    intro px py _ _
    rw [if_neg (by omega)]
  · refine ⟨s.frameBuffer, rfl, rfl, rfl, ?_⟩
    intro px py _ _
    rw [if_neg (by omega)]
  · by_cases hwidth : width = 0
    · subst hwidth
      refine ⟨s.frameBuffer, copyRows_zero _, rfl, rfl, ?_⟩
      intro px py _ _
      rw [if_neg (by omega)]
    · have hsrc : ∀ i < height, srcX + (srcY + i) * line + width ≤ data.size ∧
          4 * (srcX + (srcY + i) * line) < 2 ^ 31 := by
        intro i hi
        have hrow : (srcY + i) * line ≤ (srcY + (height - 1)) * line :=
          Nat.mul_le_mul_right _ (by omega)
        omega
      refine ⟨_, copyRows_inside (fun i hi => row_le hx hy hi) hsrc hwidth _, rfl, rfl, ?_⟩
      intro px py hpx hpy
      dsimp only [pixel]
      rw [forRange_memcpy hx hpx]
      refine if_congr Iff.rfl ?_ rfl
      rw [Nat.add_right_comm]

theorem rectFits_image {t : Screen} :
    t.RectFits s.image 0 0 s.width 0 0 (min t.width s.width) (min t.height s.height) := by
  by_cases hheight : min t.height s.height = 0
  · exact .inr (.inl hheight)
  refine .inr (.inr ⟨by omega, by omega, ?_⟩)
  have hrows : (min t.height s.height - 1) * s.width ≤ (s.height - 1) * s.width :=
    Nat.mul_le_mul_right _ (by omega)
  have hlast : (s.height - 1) * s.width + s.width = s.width * s.height := by
    rw [← Nat.succ_mul, Nat.mul_comm, Nat.succ_eq_add_one, Nat.sub_add_cancel (by omega)]
  have hsize := s.size_le
  rw [maxSize] at hsize
  dsimp only [image]
  rw [Nat.zero_add, Nat.zero_add]
  omega

theorem memset_white {px py : Nat} (hx : px < width) (hy : py < height) (m : Nat → Pixel) :
    memset 0 white (width * height) m (px + py * width) = white := by
  have hrow : (py + 1) * width ≤ height * width := Nat.mul_le_mul_right _ hy
  rw [Nat.succ_mul, Nat.mul_comm height] at hrow
  rw [memset, memcpy, if_pos (by omega)]

theorem exists_setSize (h : width * height < 2 ^ 31) :
    ∃ t, s.setSize width height = some t ∧ (t = s ∨ Resized s t width height) := by
  rw [setSize, if_neg (Nat.not_le.2 h)]
  by_cases hbig : maxSize < width * height
  · rw [dif_pos hbig]
    exact ⟨s, rfl, .inl rfl⟩
  rw [dif_neg hbig]
  by_cases hsame : width = s.width ∧ height = s.height
  · rw [if_pos hsame]
    exact ⟨s, rfl, .inl rfl⟩
  rw [if_neg hsame, ← min_def_lt]
  let t : Screen :=
    ⟨width, height, memset 0 white (width * height) s.frameBuffer, Nat.not_lt.1 hbig⟩
  have hfits : t.RectFits s.image 0 0 s.width 0 0 (min width s.width) (min height s.height) :=
    rectFits_image
  obtain ⟨m, hcopy, hright⟩ := exists_copyRows hfits
  refine ⟨{ t with frameBuffer := m }, ?_, .inr ⟨rfl, rfl, ?_⟩⟩
  · simp only [Nat.zero_add] at hcopy
    rw [hcopy]
    rfl
  · intro px py hpx hpy
    rw [hright.pixel_eq px py hpx hpy]
    by_cases hinside : px < s.width ∧ py < s.height
    · rw [if_pos hinside, if_pos (by omega), Nat.zero_add, Nat.zero_add]
      rfl
    · rw [if_neg hinside, if_neg (by omega)]
      exact memset_white hpx hpy s.frameBuffer

/-- **What fits is right.** -/
theorem done_of_fits (call : Call) (h : s.Fits call) : s.Done call := by
  cases call with
  | setSize width height => exact exists_setSize h
  | reset => exact ⟨s.reset, rfl, rfl, rfl⟩
  | frameBufferUpdate data srcX srcY line x y width height =>
    obtain ⟨m, hcopy, hright⟩ := exists_copyRows h
    refine ⟨{ s with frameBuffer := m }, ?_, hright⟩
    rw [step, frameBufferUpdate, hcopy]
    rfl
  | copyRect data x y width height destX destY =>
    obtain ⟨m, hcopy, hright⟩ := exists_copyRows h
    refine ⟨{ s with frameBuffer := m }, ?_, hright⟩
    rw [step, copyRect, hcopy]
    rfl

end Calls

/-- The picture of a server that has been made. Reference: `VNCServer.cpp:112`. -/
def init (frameBuffer : Nat → Pixel) : Screen :=
  ⟨0, 0, frameBuffer, Nat.zero_le _⟩

end Screen

end Vnc

end McuMediaServer
