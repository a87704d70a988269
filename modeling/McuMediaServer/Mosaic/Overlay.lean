import Mathlib.Data.List.Range
import Mathlib.Tactic.Ring

/-!
# Drawing an overlay

An overlay has an alpha value for each luma sample, and a chroma sample for four of them. It is drawn
on a frame by pointers into the planes that move along in blocks of four samples. `drawWrites` lists
what the pointers write; `draws_iff` says when that is the blend of the two pictures: the sum of
alphas that the code takes for chroma has one of the four twice and another not at all, and above
2^32 the offset of the last plane is wrong.
-/

namespace McuMediaServer

/-- Write values at some places one after the other. -/
def writeAll {α : Type} (writes : List (Nat × α)) (memory : List α) : List α :=
  writes.foldl (fun memory w => memory.set w.1 w.2) memory

section WriteAll

variable {α : Type} {writes : List (Nat × α)} {memory : List α} {k : Nat}

@[simp]
theorem length_writeAll (writes : List (Nat × α)) (memory : List α) :
    (writeAll writes memory).length = memory.length := by
  induction writes generalizing memory with
  | nil => rfl
  | cons w writes ih => exact (ih _).trans List.length_set

theorem writeAll_append (ws ws' : List (Nat × α)) (memory : List α) :
    writeAll (ws ++ ws') memory = writeAll ws' (writeAll ws memory) :=
  List.foldl_append

theorem getElem?_writeAll_of_notMem (h : ∀ w ∈ writes, w.1 ≠ k) :
    (writeAll writes memory)[k]? = memory[k]? := by
  induction writes generalizing memory with
  | nil => rfl
  | cons w writes ih =>
    rw [List.forall_mem_cons] at h
    refine (ih h.2).trans ?_
    exact List.getElem?_set_ne h.1

theorem getElem?_writeAll_of_mem {v : α} (hk : k < memory.length) (hmem : (k, v) ∈ writes)
    (hsame : ∀ w ∈ writes, w.1 = k → w.2 = v) : (writeAll writes memory)[k]? = some v := by
  induction writes using List.reverseRecOn generalizing memory with
  | nil => cases hmem
  | append_singleton writes w ih =>
    rw [writeAll_append]
    change ((writeAll writes memory).set w.1 w.2)[k]? = some v
    by_cases hw : w.1 = k
    · rw [hw, List.getElem?_set_self (by rw [length_writeAll]; exact hk),
        hsame w (by simp) hw]
    · rw [List.getElem?_set_ne hw]
      have hin : (k, v) ∈ writes := by
        rcases List.mem_append.1 hmem with hin | hlast
        · exact hin
        · exact absurd (by rw [← List.mem_singleton.1 hlast]) hw
      exact ih hk hin fun w hw => hsame w (List.mem_append_left _ hw)

end WriteAll

/-- An overlay and its alpha plane. What is allocated for them is counted as a `DWORD`. Reference:
`overlay.h:13`. -/
structure Canvas where
  width : Nat
  height : Nat
  /-- The planes of luma, of the two chromas and of alpha. -/
  overlay : List UInt8
  even_width : width % 2 = 0
  even_height : height % 2 = 0
  size_lt : width * height * 4 < 2 ^ 32
  length_overlay : overlay.length = width * height * 5 / 2

namespace Canvas

/-- Pointers into the destination, the source and the overlay that move together. -/
structure Cursor where
  dst : Nat
  src : Nat
  ovr : Nat

/-- One step further. -/
def Cursor.next (c : Cursor) (n : Nat) : Cursor := ⟨c.dst + n, c.src + n, c.ovr + n⟩

/-- The pointers of a pair of lines. Reference: `overlay.cpp:467`. -/
structure Pointers where
  y1 : Cursor
  y2 : Cursor
  u : Cursor
  v : Cursor
  a1 : Nat
  a2 : Nat

/-- A sample of the overlay and one of the source, weighted by an alpha of `full` at most. -/
def mix (full o s a : Nat) : Nat := (o * a + s * (full - a)) / full

variable (c : Canvas)

/-- The sample of the source where the overlay is transparent, that of the overlay where it is
opaque, and else a mix. Reference: `overlay.cpp:492` and `overlay.cpp:565`. -/
def sample (full : Nat) (frame : List UInt8) (p : Cursor) (a : Nat) : Option UInt8 :=
  if a = 0 then frame[p.src]?
  else if a = full then c.overlay[p.ovr]?
  else do
    let n := full - a
    let o ← c.overlay[p.ovr]?
    let s ← frame[p.src]?
    some (UInt8.ofNat ((o.toNat * a + s.toNat * n) / full))

/-- A sample is drawn. There is no value when it is outside the planes. -/
def drawSample (full : Nat) (frame : List UInt8) (p : Cursor) (a : Nat) (image : List UInt8) :
    Option (Cursor × List UInt8) := do
  let sample ← c.sample full frame p a
  if p.dst < image.length then some (p.next 1, image.set p.dst sample) else none

/-- Four luma samples and a sample of each chroma. Reference: `overlay.cpp:486`. -/
def drawBlock (frame : List UInt8) (p : Pointers) (image : List UInt8) :
    Option (Pointers × List UInt8) := do
  let a11 ← c.overlay[p.a1]?
  let a12 ← c.overlay[p.a1 + 1]?
  let a21 ← c.overlay[p.a2]?
  let a22 ← c.overlay[p.a2 + 1]?
  let (y1, image) ← c.drawSample 255 frame p.y1 a11.toNat image
  let (y1, image) ← c.drawSample 255 frame y1 a12.toNat image
  let (y2, image) ← c.drawSample 255 frame p.y2 a21.toNat image
  let (y2, image) ← c.drawSample 255 frame y2 a22.toNat image
  let alpha := a11.toNat + a21.toNat + a21.toNat + a22.toNat
  let (u, image) ← c.drawSample 1020 frame p.u alpha image
  let (v, image) ← c.drawSample 1020 frame p.v alpha image
  return ({ y1, y2, u, v, a1 := p.a1 + 2, a2 := p.a2 + 2 }, image)

/-- Reference: `overlay.cpp:485`. -/
def drawRow (frame : List UInt8) : Nat → Pointers → List UInt8 → Option (Pointers × List UInt8)
  | 0, p, image => some (p, image)
  | i + 1, p, image => do
    let (p, image) ← c.drawBlock frame p image
    drawRow frame i p image

/-- The luma pointers skip a line. Reference: `overlay.cpp:605`. -/
def skipLine (p : Pointers) : Pointers :=
  { p with
    y1 := p.y1.next c.width, y2 := p.y2.next c.width, a1 := p.a1 + c.width, a2 := p.a2 + c.width }

/-- Reference: `overlay.cpp:483`. -/
def drawRows (frame : List UInt8) : Nat → Pointers → List UInt8 → Option (List UInt8)
  | 0, _, image => some image
  | j + 1, p, image => do
    let (p, image) ← c.drawRow frame (c.width / 2) p image
    drawRows frame j (c.skipLine p) image

/-- The offset of a plane. -/
def cursor (k : Nat) : Cursor := ⟨k, k, k⟩

/-- Reference: `overlay.cpp:465`. -/
def draw (image frame : List UInt8) : Option (List UInt8) :=
  let u := c.width * c.height % 2 ^ 32
  let v := c.width * c.height * 5 % 2 ^ 32 / 4
  let a := c.width * c.height * 3 % 2 ^ 32 / 2
  c.drawRows frame (c.height / 2)
    ⟨cursor 0, cursor c.width, cursor u, cursor v, a, a + c.width⟩ image

/-! ## What is asked of the picture -/

/-- The overlay and the alpha at a luma sample. -/
def alpha (x y : Nat) : Nat :=
  (c.overlay.getD (c.width * c.height * 3 / 2 + (y * c.width + x)) 0).toNat

/-- The sum of the alphas of the four luma samples of a chroma sample. -/
def alphas (x y : Nat) : Nat :=
  c.alpha (2 * x) (2 * y) + c.alpha (2 * x + 1) (2 * y) + c.alpha (2 * x) (2 * y + 1) +
    c.alpha (2 * x + 1) (2 * y + 1)

/-- The mix of the two pictures at an offset. -/
def mixAt (full : Nat) (frame : List UInt8) (k a : Nat) : Nat :=
  mix full (c.overlay.getD k 0).toNat (frame.getD k 0).toNat a

/-- Luma is mixed by the alpha of each sample, and both chromas by the sum of four. -/
structure Mixed (frame image : List UInt8) : Prop where
  luma : ∀ x y, x < c.width → y < c.height →
    (image.getD (y * c.width + x) 0).toNat = c.mixAt 255 frame (y * c.width + x) (c.alpha x y)
  chroma : ∀ x y, x < c.width / 2 → y < c.height / 2 →
    ∀ plane ∈ [c.width * c.height, c.width * c.height * 5 / 4],
      (image.getD (plane + (y * (c.width / 2) + x)) 0).toNat =
        c.mixAt 1020 frame (plane + (y * (c.width / 2) + x)) (c.alphas x y)

/-- A frame with its planes. -/
abbrev Frame : Type := { planes : List UInt8 // planes.length = c.width * c.height * 3 / 2 }

/-- Whatever the picture drawn to held, it becomes the mix, and no sample is outside the planes. -/
def Draws (frame : c.Frame) : Prop :=
  ∀ image : c.Frame, ∃ image', c.draw image.val frame.val = some image' ∧
    image'.length = image.val.length ∧ c.Mixed frame.val image'

/-! ## What the pointers write -/

section Writes

variable {c} {frame image : List UInt8}

theorem getElem?_eq_getD {bytes : List UInt8} {k : Nat} (h : k < bytes.length) :
    bytes[k]? = some (bytes.getD k 0) := by
  rw [List.getD_eq_getElem?_getD, List.getElem?_eq_getElem h, Option.getD_some]

theorem mix_zero {full : Nat} (hfull : 0 < full) (o s : Nat) : mix full o s 0 = s := by
  rw [mix, Nat.mul_zero, Nat.zero_add, Nat.sub_zero, Nat.mul_div_cancel _ hfull]

theorem mix_full {full : Nat} (hfull : 0 < full) (o s : Nat) : mix full o s full = o := by
  rw [mix, Nat.sub_self, Nat.mul_zero, Nat.add_zero, Nat.mul_div_cancel _ hfull]

theorem mix_lt {full o s a : Nat} (hfull : 0 < full) (ha : a ≤ full) (ho : o < 256) (hs : s < 256) :
    mix full o s a < 256 := by
  rw [mix, Nat.div_lt_iff_lt_mul hfull]
  calc o * a + s * (full - a)
      ≤ 255 * a + 255 * (full - a) :=
        Nat.add_le_add (Nat.mul_le_mul_right _ (by omega)) (Nat.mul_le_mul_right _ (by omega))
    _ = 255 * full := by rw [← Nat.mul_add, Nat.add_sub_cancel' ha]
    _ < 256 * full := Nat.mul_lt_mul_of_pos_right (by decide) hfull

theorem mixAt_lt {full k a : Nat} (hfull : 0 < full) (ha : a ≤ full) :
    c.mixAt full frame k a < 256 :=
  mix_lt hfull ha (UInt8.toNat_lt _) (UInt8.toNat_lt _)

/-- The write of a sample. -/
def write (c : Canvas) (full : Nat) (frame : List UInt8) (k a : Nat) : Nat × UInt8 :=
  (k, UInt8.ofNat (c.mixAt full frame k a))

theorem drawSample_eq {full k a : Nat} (hfull : 0 < full)
    (hframe : k < frame.length) (himage : k < image.length) (hoverlay : k < c.overlay.length) :
    c.drawSample full frame (cursor k) a image =
      some (cursor (k + 1), writeAll [c.write full frame k a] image) := by
  have hs := getElem?_eq_getD hframe
  have ho := getElem?_eq_getD hoverlay
  have hsample : c.sample full frame (cursor k) a = some (UInt8.ofNat (c.mixAt full frame k a)) := by
    rw [mixAt, sample]
    split_ifs with hzero hwhole
    · rw [hzero, mix_zero hfull, UInt8.ofNat_toNat]
      exact hs
    · rw [hwhole, mix_full hfull, UInt8.ofNat_toNat]
      exact ho
    · change (do
        let o ← c.overlay[k]?
        let s ← frame[k]?
        some (UInt8.ofNat ((o.toNat * a + s.toNat * (full - a)) / full))) = _
      rw [hs, ho]
      rfl
  rw [drawSample, hsample, Option.bind_eq_bind, Option.bind_some]
  exact if_pos himage

/-- The alpha at the offset of a luma sample. -/
def alphaAt (c : Canvas) (k : Nat) : Nat :=
  (c.overlay.getD (c.width * c.height * 3 / 2 + k) 0).toNat

/-- The sum of alphas that the code takes: the third one is there twice, the second one not. -/
def codeAlphas (c : Canvas) (k : Nat) : Nat :=
  c.alphaAt k + c.alphaAt (k + c.width) + c.alphaAt (k + c.width) + c.alphaAt (k + c.width + 1)

/-- What is written in the block with the given number, whose first luma sample is at `k`. -/
def blockWrites (c : Canvas) (frame : List UInt8) (v k block : Nat) : List (Nat × UInt8) :=
  [c.write 255 frame k (c.alphaAt k),
    c.write 255 frame (k + 1) (c.alphaAt (k + 1)),
    c.write 255 frame (k + c.width) (c.alphaAt (k + c.width)),
    c.write 255 frame (k + c.width + 1) (c.alphaAt (k + c.width + 1)),
    c.write 1020 frame (c.width * c.height + block) (c.codeAlphas k),
    c.write 1020 frame (v + block) (c.codeAlphas k)]

/-- The pointers at a block. -/
def pointersAt (c : Canvas) (v k block : Nat) : Pointers :=
  ⟨cursor k, cursor (k + c.width), cursor (c.width * c.height + block), cursor (v + block),
    c.width * c.height * 3 / 2 + k, c.width * c.height * 3 / 2 + (k + c.width)⟩

theorem alphaAt_le (c : Canvas) (k : Nat) : c.alphaAt k ≤ 255 :=
  Nat.le_of_lt_succ (UInt8.toNat_lt _)

/-- The sizes of the planes of a picture of `n` blocks. -/
structure Sized (c : Canvas) (n v : Nat) (frame : List UInt8) : Prop where
  blocks : c.width * c.height = 4 * n
  length_frame : frame.length = 6 * n
  v_le : v + n ≤ 6 * n

theorem Sized.length_overlay {n v : Nat} (h : Sized c n v frame) : c.overlay.length = 10 * n := by
  have hlen := c.length_overlay
  have hblocks := h.blocks
  omega

theorem drawBlock_eq {n v k block : Nat} (h : Sized c n v frame) (himage : image.length = 6 * n)
    (hk : k + c.width + 1 < 4 * n) (hblock : block < n) :
    c.drawBlock frame (c.pointersAt v k block) image =
      some (c.pointersAt v (k + 2) (block + 1), writeAll (c.blockWrites frame v k block) image) := by
  have hoverlay := h.length_overlay
  have hblocks := h.blocks
  have hframe := h.length_frame
  have hv := h.v_le
  have halpha (k : Nat) (hk : k < 4 * n) :
      c.overlay[c.width * c.height * 3 / 2 + k]? =
        some (c.overlay.getD (c.width * c.height * 3 / 2 + k) 0) :=
    getElem?_eq_getD (by omega)
  have hdraw (full : Nat) (hfull : 0 < full) (k a : Nat) (hk : k < 6 * n) (image : List UInt8)
      (himage : image.length = 6 * n) : c.drawSample full frame (cursor k) a image =
        some (cursor (k + 1), writeAll [c.write full frame k a] image) :=
    drawSample_eq hfull (by omega) (by omega) (by omega)
  unfold drawBlock pointersAt
  dsimp only
  rw [Nat.add_assoc, Nat.add_assoc, halpha k (by omega), halpha (k + 1) (by omega),
    halpha (k + c.width) (by omega), halpha (k + c.width + 1) (by omega)]
  simp only [Option.bind_eq_bind, Option.bind_some]
  rw [hdraw 255 (by decide) k _ (by omega) image himage, Option.bind_some]
  dsimp only
  rw [hdraw 255 (by decide) (k + 1) _ (by omega) _ (by simp only [length_writeAll, himage]),
    Option.bind_some]
  dsimp only
  rw [hdraw 255 (by decide) (k + c.width) _ (by omega) _ (by simp only [length_writeAll, himage]),
    Option.bind_some]
  dsimp only
  rw [hdraw 255 (by decide) (k + c.width + 1) _ (by omega) _
    (by simp only [length_writeAll, himage]), Option.bind_some]
  dsimp only
  rw [hdraw 1020 (by decide) (c.width * c.height + block) _ (by omega) _
    (by simp only [length_writeAll, himage]), Option.bind_some]
  dsimp only
  rw [hdraw 1020 (by decide) (v + block) _ (by omega) _
    (by simp only [length_writeAll, himage]), Option.bind_some]
  have hnext : k + 2 + c.width = k + c.width + 2 := by omega
  rw [hnext]
  rfl

/-- What is written in a pair of lines. -/
def rowWrites (c : Canvas) (frame : List UInt8) (v blocks k block : Nat) : List (Nat × UInt8) :=
  (List.range blocks).flatMap fun i => c.blockWrites frame v (k + 2 * i) (block + i)

/-- All that is written. -/
def drawWrites (c : Canvas) (frame : List UInt8) (v rows k block : Nat) : List (Nat × UInt8) :=
  (List.range rows).flatMap fun j =>
    c.rowWrites frame v (c.width / 2) (k + 2 * c.width * j) (block + c.width / 2 * j)

theorem drawRow_eq {n v k block : Nat} (h : Sized c n v frame) (himage : image.length = 6 * n)
    {blocks : Nat} (hk : k + c.width + 2 * blocks ≤ 4 * n) (hblock : block + blocks ≤ n) :
    c.drawRow frame blocks (c.pointersAt v k block) image =
      some (c.pointersAt v (k + 2 * blocks) (block + blocks),
        writeAll (c.rowWrites frame v blocks k block) image) := by
  induction blocks generalizing k block image with
  | zero => rfl
  | succ blocks ih =>
    have hrest : c.rowWrites frame v (blocks + 1) k block = c.blockWrites frame v k block ++
        c.rowWrites frame v blocks (k + 2) (block + 1) := by
      rw [rowWrites, List.range_succ_eq_map, List.flatMap_cons, List.flatMap_map, rowWrites]
      congr 1
      refine List.flatMap_congr fun i _ => ?_
      rw [show k + 2 * (i + 1) = k + 2 + 2 * i by omega,
        show block + (i + 1) = block + 1 + i by omega]
    rw [drawRow, drawBlock_eq h himage (by omega) (by omega), Option.bind_eq_bind, Option.bind_some]
    dsimp only
    rw [ih (by rw [length_writeAll, himage]) (by omega) (by omega), hrest, writeAll_append,
      show k + 2 + 2 * blocks = k + 2 * (blocks + 1) by omega,
      show block + 1 + blocks = block + (blocks + 1) by omega]

theorem drawRows_eq {n v k block : Nat} (h : Sized c n v frame) (himage : image.length = 6 * n)
    {rows : Nat} (hk : k + 2 * c.width * rows ≤ 4 * n) (hblock : block + c.width / 2 * rows ≤ n) :
    c.drawRows frame rows (c.pointersAt v k block) image =
      some (writeAll (c.drawWrites frame v rows k block) image) := by
  induction rows generalizing k block image with
  | zero => rfl
  | succ rows ih =>
    have heven := c.even_width
    rw [Nat.mul_succ] at hk hblock
    have hrest : c.drawWrites frame v (rows + 1) k block =
        c.rowWrites frame v (c.width / 2) k block ++
          c.drawWrites frame v rows (k + 2 * c.width) (block + c.width / 2) := by
      rw [drawWrites, List.range_succ_eq_map, List.flatMap_cons, List.flatMap_map, drawWrites]
      congr 1
      refine List.flatMap_congr fun j _ => ?_
      rw [Nat.mul_succ, Nat.mul_succ, Nat.add_assoc k, Nat.add_assoc block,
        Nat.add_comm (2 * c.width), Nat.add_comm (c.width / 2)]
    have hskip : c.skipLine (c.pointersAt v (k + 2 * (c.width / 2)) (block + c.width / 2)) =
        c.pointersAt v (k + 2 * c.width) (block + c.width / 2) := by
      have hline : k + 2 * (c.width / 2) = k + c.width := by omega
      have hnext : k + 2 * c.width = k + c.width + c.width := by omega
      rw [hline, hnext]
      simp only [skipLine, pointersAt, cursor, Cursor.next, Nat.add_assoc]
    rw [drawRows, drawRow_eq h himage (by omega) (by omega), Option.bind_eq_bind, Option.bind_some]
    dsimp only
    rw [hskip, ih (by rw [length_writeAll, himage]) (by omega) (by omega), hrest, writeAll_append]

/-- The offset of the last plane that the code computes. -/
def vOffset (c : Canvas) : Nat := c.width * c.height * 5 % 2 ^ 32 / 4

/-- The number of blocks. -/
def blocks (c : Canvas) : Nat := c.width / 2 * (c.height / 2)

theorem size_eq (c : Canvas) : c.width * c.height = 4 * c.blocks := by
  obtain ⟨w, hw⟩ := Nat.dvd_of_mod_eq_zero c.even_width
  obtain ⟨h, hh⟩ := Nat.dvd_of_mod_eq_zero c.even_height
  rw [blocks, hw, hh, Nat.mul_div_cancel_left _ (by decide), Nat.mul_div_cancel_left _ (by decide)]
  ring

theorem sized (c : Canvas) (frame : c.Frame) : Sized c c.blocks c.vOffset frame.val := by
  have hsize := c.size_eq
  have hlt := c.size_lt
  have hframe := frame.property
  refine ⟨hsize, by omega, ?_⟩
  rw [vOffset]
  omega

/-- **What is drawn.** -/
theorem draw_eq (c : Canvas) (image frame : c.Frame) : c.draw image.val frame.val =
    some (writeAll (c.drawWrites frame.val c.vOffset (c.height / 2) 0 0) image.val) := by
  have hsize := c.size_eq
  have hlt := c.size_lt
  have himage := image.property
  have heven := c.even_width
  have hk : 0 + 2 * c.width * (c.height / 2) ≤ 4 * c.blocks := by
    rw [Nat.zero_add, blocks, ← Nat.mul_assoc 4]
    exact Nat.mul_le_mul_right _ (by omega)
  have hblock : 0 + c.width / 2 * (c.height / 2) ≤ c.blocks := by
    rw [Nat.zero_add, blocks]
  rw [← drawRows_eq (c.sized frame) (by omega) hk hblock, draw]
  have hu : c.width * c.height % 2 ^ 32 = c.width * c.height := Nat.mod_eq_of_lt (by omega)
  have ha : c.width * c.height * 3 % 2 ^ 32 = c.width * c.height * 3 := Nat.mod_eq_of_lt (by omega)
  rw [hu, ha, pointersAt, vOffset, Nat.zero_add, Nat.add_zero, Nat.add_zero, Nat.add_zero]

end Writes

/-! ## When it is the mix -/

section Mixing

variable {c} {frame image : List UInt8} {k block x y : Nat}

/-- The first luma sample of a block. -/
def corner (c : Canvas) (block : Nat) : Nat :=
  2 * c.width * (block / (c.width / 2)) + 2 * (block % (c.width / 2))

theorem mul_add_lt_blocks (hx : x < c.width / 2) (hy : y < c.height / 2) :
    c.width / 2 * y + x < c.blocks := by
  calc c.width / 2 * y + x
      < c.width / 2 * (y + 1) := by rw [Nat.mul_succ]; omega
    _ ≤ c.blocks := Nat.mul_le_mul_left _ hy

theorem corner_eq (hx : x < c.width / 2) :
    c.corner (c.width / 2 * y + x) = 2 * c.width * y + 2 * x := by
  have hpos : 0 < c.width / 2 := by omega
  rw [corner, Nat.mul_add_div hpos, Nat.div_eq_of_lt hx, Nat.mul_add_mod, Nat.mod_eq_of_lt hx,
    Nat.add_zero]

theorem mem_drawWrites {v : Nat} {w : Nat × UInt8} :
    w ∈ c.drawWrites frame v (c.height / 2) 0 0 ↔ ∃ y < c.height / 2, ∃ x < c.width / 2,
      w ∈ c.blockWrites frame v (2 * c.width * y + 2 * x) (c.width / 2 * y + x) := by
  simp only [drawWrites, rowWrites, List.mem_flatMap, List.mem_range, Nat.zero_add]

theorem cases_of_mem_drawWrites {v : Nat} {w : Nat × UInt8}
    (h : w ∈ c.drawWrites frame v (c.height / 2) 0 0) :
    (∃ k < 4 * c.blocks, w = c.write 255 frame k (c.alphaAt k)) ∨
      ∃ block < c.blocks, ∃ plane, (plane = c.width * c.height ∨ plane = v) ∧
        w = c.write 1020 frame (plane + block) (c.codeAlphas (c.corner block)) := by
  obtain ⟨y, hy, x, hx, h⟩ := mem_drawWrites.1 h
  have hblock := mul_add_lt_blocks hx hy
  have hline : 2 * c.width * y + 2 * x + c.width + 1 < 4 * c.blocks := by
    have heven := c.even_width
    have hnext : c.width / 2 * (y + 1) ≤ c.blocks := Nat.mul_le_mul_left _ hy
    have hwidth : 2 * c.width * y = 4 * (c.width / 2 * y) := by
      rw [← Nat.mul_assoc]
      congr 1
      omega
    rw [Nat.mul_succ] at hnext
    omega
  have hcorner := @corner_eq c x y hx
  simp only [blockWrites, List.mem_cons, List.not_mem_nil, or_false] at h
  rcases h with rfl | rfl | rfl | rfl | rfl | rfl
  · exact .inl ⟨_, by omega, rfl⟩
  · exact .inl ⟨_, by omega, rfl⟩
  · exact .inl ⟨_, by omega, rfl⟩
  · exact .inl ⟨_, hline, rfl⟩
  · exact .inr ⟨_, hblock, _, .inl rfl, by rw [hcorner]⟩
  · exact .inr ⟨_, hblock, _, .inr rfl, by rw [hcorner]⟩

theorem luma_mem_drawWrites {v : Nat} (hx : x < c.width) (hy : y < c.height) :
    c.write 255 frame (y * c.width + x) (c.alphaAt (y * c.width + x)) ∈
      c.drawWrites frame v (c.height / 2) 0 0 := by
  have hwidth := c.even_width
  have hheight := c.even_height
  refine mem_drawWrites.2 ⟨y / 2, by omega, x / 2, by omega, ?_⟩
  have hat : y * c.width + x =
      2 * c.width * (y / 2) + 2 * (x / 2) + (if y % 2 = 1 then c.width else 0) + x % 2 := by
    have hsplit : y * c.width = 2 * c.width * (y / 2) + y % 2 * c.width := by
      conv_lhs => rw [← Nat.div_add_mod y 2]
      ring
    rw [hsplit]
    rcases Nat.mod_two_eq_zero_or_one y with hzero | hone
    · rw [hzero, if_neg (by decide)]
      omega
    · rw [hone, if_pos rfl]
      omega
  rw [hat]
  rcases Nat.mod_two_eq_zero_or_one y with hy | hy <;>
    rcases Nat.mod_two_eq_zero_or_one x with hx | hx <;>
    simp [hx, hy, blockWrites]

theorem chroma_mem_drawWrites {v plane : Nat} (hplane : plane = c.width * c.height ∨ plane = v)
    (hx : x < c.width / 2) (hy : y < c.height / 2) :
    c.write 1020 frame (plane + (c.width / 2 * y + x)) (c.codeAlphas (2 * c.width * y + 2 * x)) ∈
      c.drawWrites frame v (c.height / 2) 0 0 := by
  refine mem_drawWrites.2 ⟨y, hy, x, hx, ?_⟩
  rcases hplane with rfl | rfl
  · simp [blockWrites]
  · simp [blockWrites]

theorem vOffset_eq (h : c.width * c.height * 5 < 2 ^ 32) : c.vOffset = 5 * c.blocks := by
  have hsize := c.size_eq
  rw [vOffset, Nat.mod_eq_of_lt h]
  omega

theorem luma_drawn (h : c.width * c.height * 5 < 2 ^ 32) (image : c.Frame) (hx : x < c.width)
    (hy : y < c.height) : ((writeAll (c.drawWrites frame c.vOffset (c.height / 2) 0 0)
      image.val).getD (y * c.width + x) 0).toNat =
        c.mixAt 255 frame (y * c.width + x) (c.alpha x y) := by
  have hsize := c.size_eq
  have himage := image.property
  have hk : y * c.width + x < c.width * c.height := by
    calc y * c.width + x < y * c.width + c.width := by omega
      _ = (y + 1) * c.width := (Nat.succ_mul ..).symm
      _ ≤ c.height * c.width := Nat.mul_le_mul_right _ hy
      _ = c.width * c.height := Nat.mul_comm ..
  have hmem := @luma_mem_drawWrites c frame x y c.vOffset hx hy
  have hget := @getElem?_writeAll_of_mem _ _ image.val _ _ (by omega) hmem (by
      intro w hw hat
      rcases cases_of_mem_drawWrites hw with ⟨k, -, rfl⟩ | ⟨block, hblock, plane, hplane, rfl⟩
      · cases hat
        rfl
      · have hv := vOffset_eq h
        change plane + block = _ at hat
        omega)
  rw [List.getD_eq_getElem?_getD, hget, Option.getD_some, UInt8.toNat_ofNat',
    Nat.mod_eq_of_lt (mixAt_lt (by decide) (c.alphaAt_le _))]
  rfl

/-- The sum of alphas that is taken for a chroma sample: the third one twice, the second one not. -/
def sumTaken (c : Canvas) (x y : Nat) : Nat :=
  c.alpha (2 * x) (2 * y) + c.alpha (2 * x) (2 * y + 1) + c.alpha (2 * x) (2 * y + 1) +
    c.alpha (2 * x + 1) (2 * y + 1)

theorem codeAlphas_eq (c : Canvas) (x y : Nat) :
    c.codeAlphas (2 * c.width * y + 2 * x) = c.sumTaken x y := by
  have hline : 2 * c.width * y + 2 * x = 2 * y * c.width + 2 * x := by ring
  have hnext : 2 * c.width * y + 2 * x + c.width = (2 * y + 1) * c.width + 2 * x := by ring
  rw [codeAlphas, hnext, hline]
  rfl

theorem chroma_drawn (h : c.width * c.height * 5 < 2 ^ 32) (image : c.Frame)
    (hx : x < c.width / 2) (hy : y < c.height / 2) {plane : Nat}
    (hplane : plane ∈ [c.width * c.height, c.width * c.height * 5 / 4]) :
    ((writeAll (c.drawWrites frame c.vOffset (c.height / 2) 0 0) image.val).getD
      (plane + (y * (c.width / 2) + x)) 0).toNat =
        c.mixAt 1020 frame (plane + (y * (c.width / 2) + x)) (c.sumTaken x y) := by
  have hsize := c.size_eq
  have himage := image.property
  have hv := vOffset_eq h
  have hplane : plane = c.width * c.height ∨ plane = c.vOffset := by
    simp only [List.mem_cons, List.not_mem_nil, or_false] at hplane
    omega
  have hblock := mul_add_lt_blocks hx hy
  have hcorner := @corner_eq c x y hx
  have hmem := @chroma_mem_drawWrites c frame x y _ _ hplane hx hy
  have hget := @getElem?_writeAll_of_mem _ _ image.val _ _ (by omega) hmem (by
      intro w hw hat
      rcases cases_of_mem_drawWrites hw with ⟨k, hk, rfl⟩ | ⟨block, hblock', plane', hplane', rfl⟩
      · change k = _ at hat
        omega
      · change plane' + block = _ at hat
        obtain rfl : block = c.width / 2 * y + x := by omega
        obtain rfl : plane' = plane := by omega
        rw [hcorner]
        rfl)
  have hle : c.sumTaken x y ≤ 1020 := by
    have h1 := c.alphaAt_le (2 * y * c.width + 2 * x)
    have h2 := c.alphaAt_le ((2 * y + 1) * c.width + 2 * x)
    have h3 := c.alphaAt_le ((2 * y + 1) * c.width + (2 * x + 1))
    change c.alphaAt _ + c.alphaAt _ + c.alphaAt _ + c.alphaAt _ ≤ 1020
    omega
  rw [Nat.mul_comm y, List.getD_eq_getElem?_getD, hget, Option.getD_some, codeAlphas_eq,
    UInt8.toNat_ofNat', Nat.mod_eq_of_lt (mixAt_lt (by decide) hle)]

/-- The sum of alphas that is taken mixes the chromas as the right one does. -/
def SumsAgree (c : Canvas) (frame : List UInt8) : Prop :=
  ∀ x y, x < c.width / 2 → y < c.height / 2 →
    ∀ plane ∈ [c.width * c.height, c.width * c.height * 5 / 4],
      c.mixAt 1020 frame (plane + (y * (c.width / 2) + x)) (c.sumTaken x y) =
        c.mixAt 1020 frame (plane + (y * (c.width / 2) + x)) (c.alphas x y)

theorem not_draws_of_le (h : 2 ^ 32 ≤ c.width * c.height * 5) (frame : c.Frame) :
    ¬ c.Draws frame := by
  intro hdraws
  have hsize := c.size_eq
  have hlt := c.size_lt
  have hwraps : 0 < c.width * c.height * 5 / 2 ^ 32 := Nat.div_pos h (by decide)
  have hv : c.vOffset + c.blocks < 5 * c.blocks := by
    rw [vOffset]
    omega
  have hpos : 0 < c.width / 2 ∧ 0 < c.height / 2 := by
    constructor
    · by_contra hzero
      rw [blocks, Nat.eq_zero_of_not_pos hzero, Nat.zero_mul] at hsize
      omega
    · by_contra hzero
      rw [blocks, Nat.eq_zero_of_not_pos hzero, Nat.mul_zero] at hsize
      omega
  -- The picture drawn to holds another value there than the mix.
  have hother (r : Nat) : ∃ b : UInt8, b.toNat ≠ r := by
    rcases Nat.eq_zero_or_pos r with rfl | hr
    · exact ⟨1, by decide⟩
    · exact ⟨0, by rw [show (0 : UInt8).toNat = 0 from rfl]; omega⟩
  obtain ⟨b, hb⟩ := hother (c.mixAt 1020 frame.val (c.width * c.height * 5 / 4 + (0 * (c.width / 2)
    + 0)) (c.alphas 0 0))
  obtain ⟨image', hdraw, -, hmixed⟩ :=
    hdraws ⟨List.replicate (c.width * c.height * 3 / 2) b, List.length_replicate⟩
  have hchroma := hmixed.chroma 0 0 hpos.1 hpos.2 (c.width * c.height * 5 / 4) (by simp)
  rw [draw_eq] at hdraw
  cases hdraw
  have hstays := @getElem?_writeAll_of_notMem _
    (c.drawWrites frame.val c.vOffset (c.height / 2) 0 0)
    (List.replicate (c.width * c.height * 3 / 2) b)
    (c.width * c.height * 5 / 4 + (0 * (c.width / 2) + 0)) (by
      intro w hw hat
      rcases cases_of_mem_drawWrites hw with ⟨k, hk, rfl⟩ | ⟨block, hblock, plane, hplane, rfl⟩
      · change k = _ at hat
        omega
      · change plane + block = _ at hat
        omega)
  rw [List.getElem?_replicate, if_pos (by omega)] at hstays
  rw [List.getD_eq_getElem?_getD, hstays, Option.getD_some] at hchroma
  exact hb hchroma

/-- **A frame becomes the mix if and only if the offsets fit a `DWORD` and the sum of alphas that is
taken for chroma makes no difference.** -/
theorem draws_iff (c : Canvas) (frame : c.Frame) :
    c.Draws frame ↔ c.width * c.height * 5 < 2 ^ 32 ∧ c.SumsAgree frame.val := by
  rcases Nat.lt_or_ge (c.width * c.height * 5) (2 ^ 32) with hlt | hge
  · constructor
    · intro hdraws
      refine ⟨hlt, ?_⟩
      intro x y hx hy plane hplane
      obtain ⟨image', hdraw, -, hmixed⟩ := hdraws frame
      rw [draw_eq] at hdraw
      cases hdraw
      exact (chroma_drawn hlt frame hx hy hplane).symm.trans (hmixed.chroma x y hx hy plane hplane)
    · rintro ⟨-, hagree⟩ image
      refine ⟨_, draw_eq c image frame, length_writeAll .., ?_, ?_⟩
      · intro x y hx hy
        exact luma_drawn hlt image hx hy
      · intro x y hx hy plane hplane
        exact (chroma_drawn hlt image hx hy hplane).trans (hagree x y hx hy plane hplane)
  · refine iff_of_false (not_draws_of_le hge frame) ?_
    rintro ⟨hlt, -⟩
    exact absurd hge (Nat.not_le.2 hlt)

end Mixing

theorem size_two_lt : 2 * 2 * 4 < 2 ^ 32 := by decide

/-- Of four white samples only the second one covers a black frame. -/
def secondOpaque : Canvas where
  width := 2
  height := 2
  overlay := [255, 255, 255, 255, 255, 255, 0, 255, 0, 0]
  even_width := rfl
  even_height := rfl
  size_lt := size_two_lt
  length_overlay := rfl

theorem not_draws_secondOpaque : ¬ ∀ (c : Canvas) (frame : c.Frame), c.Draws frame := by
  intro h
  obtain ⟨image', hdraw, -, hmixed⟩ := h secondOpaque ⟨List.replicate 6 0, rfl⟩
    ⟨List.replicate 6 0, rfl⟩
  have hchroma := hmixed.chroma 0 0 (by decide) (by decide) 4 (by decide)
  have himage : secondOpaque.draw (List.replicate 6 0) (List.replicate 6 0) =
      some [0, 255, 0, 0, 0, 0] := by decide
  rw [himage] at hdraw
  cases hdraw
  revert hchroma
  decide

end Canvas

end McuMediaServer
