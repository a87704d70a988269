import McuMediaServer.Mosaic.Slots

/-!
# Showing an image in a slot

The three planes of the mosaic lie one behind the other in one buffer. An image of the size of a
slot is copied into it row by row, any other one is scaled into it, and a slot without an image is
cleared.
-/

namespace McuMediaServer

open Overwrite

/-- An image in three planes. -/
structure Image where
  width : Nat
  height : Nat
  imageY : Pointer

namespace Image

variable (image : Image)

def imgNumPixels : Nat := image.height * image.width

def imageU : Pointer := fun a => image.imageY (image.imgNumPixels + a)

def imageV : Pointer := fun a => image.imageU (image.imgNumPixels / 4 + a)

end Image

/-- Reference: `mosaic.h:140`. The buffer `under` is that of a picture-in-picture mosaic. -/
structure Mosaic where
  layout : Layout
  mosaic : Nat → UInt8
  under : Nat → UInt8
  resizer : Nat → FrameScaler
  mosaicChanged : Bool

/-- Copy an image to the planes of a picture whose rows are `stride` apart. Reference:
`partedmosaic.cpp:118`, `asymmetricmosaic.cpp:67`. -/
def copyPlanes (stride width height : Nat) (imageY imageU imageV : Pointer)
    (lineaY lineaU lineaV : Nat) (m : Nat → UInt8) : Nat → UInt8 :=
  forRange (height / 2)
    (fun i m =>
      memcpy (lineaV + stride / 2 * i) (fun a => imageV (width / 2 * i + a)) (width / 2)
        (memcpy (lineaU + stride / 2 * i) (fun a => imageU (width / 2 * i + a)) (width / 2) m))
    (forRange height
      (fun i => memcpy (lineaY + stride * i) (fun a => imageY (width * i + a)) width) m)

/-- Make a part of the planes black. Reference: `partedmosaic.cpp:183`,
`asymmetricmosaic.cpp:142`. -/
def blankPlanes (stride width height lineaY lineaU lineaV : Nat) (m : Nat → UInt8) :
    Nat → UInt8 :=
  forRange (height / 2)
    (fun i m =>
      memset (lineaV + stride / 2 * i) 128 (width / 2)
        (memset (lineaU + stride / 2 * i) 128 (width / 2) m))
    (forRange height (fun i => memset (lineaY + stride * i) 0 width) m)

namespace Mosaic

/-- A mosaic in black, in memory that held anything. Reference: `mosaic.cpp:76`,
`pipmosaic.cpp:18`. -/
def new (layout : Layout) (buffer : Nat → UInt8) : Mosaic where
  layout
  mosaic :=
    let pixels := layout.mosaicNumPixels
    memset (pixels + pixels / 4) 128 (pixels / 4)
      (memset pixels 128 (pixels / 4) (memset 0 0 pixels buffer))
  under := fun _ => 128
  resizer := fun _ => {}
  mosaicChanged := false

variable (sws : Swscale) (s : Mosaic)

/-- Where the chroma planes of a part of the picture begin that is `offset2` behind their own
beginnings. -/
def lineaU (offset2 : Nat) : Nat := s.layout.mosaicNumPixels + offset2

def lineaV (offset2 : Nat) : Nat := s.lineaU offset2 + s.layout.mosaicNumPixels / 4

/-- Copy an image. -/
def copy (image : Image) (width height offset offset2 : Nat) : Mosaic :=
  { s with
    mosaic := copyPlanes s.layout.mosaicTotalWidth width height image.imageY image.imageU
      image.imageV offset (s.lineaU offset2) (s.lineaV offset2) s.mosaic
    mosaicChanged := true }

/-- Scale an image to a part of the picture. -/
def scale (image : Image) (pos width height offset offset2 : Nat) (keepAspectRatio : Bool) :
    Mosaic :=
  let scaler := (s.resizer pos).setResize sws image.width image.height image.width width height
    s.layout.mosaicTotalWidth keepAspectRatio
  { s with
    resizer := Function.update s.resizer pos scaler
    mosaic := scaler.resize sws image.imageY image.imageU image.imageV offset (s.lineaU offset2)
      (s.lineaV offset2) s.mosaic
    mosaicChanged := true }

/-- Clear a part of the picture. -/
def blank (width height offset offset2 : Nat) : Mosaic :=
  { s with
    mosaic := blankPlanes s.layout.mosaicTotalWidth width height offset (s.lineaU offset2)
      (s.lineaV offset2) s.mosaic
    mosaicChanged := true }

end Mosaic

namespace PartedMosaic

variable (sws : Swscale) (s : Mosaic)

/-- Reference: `partedmosaic.cpp:106`. -/
def offset (l : Layout) (pos : Nat) : Nat :=
  let i := pos / mosaicCols l
  let j := pos - i * mosaicCols l
  l.mosaicTotalWidth * mosaicHeight l * i + mosaicWidth l * j

/-- Reference: `partedmosaic.cpp:107`. -/
def offset2 (l : Layout) (pos : Nat) : Nat :=
  let i := pos / mosaicCols l
  let j := pos - i * mosaicCols l
  l.mosaicTotalWidth * mosaicHeight l / 4 * i + mosaicWidth l / 2 * j

/-- Reference: `partedmosaic.cpp:158`. -/
def clean (pos : Nat) : Nat × Mosaic :=
  if s.layout.numSlots ≤ pos then (0, s)
  else
    (1, s.blank (mosaicWidth s.layout) (mosaicHeight s.layout) (offset s.layout pos)
      (offset2 s.layout pos))

/-- Without an image the slot is cleared. Reference: `partedmosaic.cpp:72`. -/
def update (pos : Nat) (image : Option Image) (keepAspectRatio : Bool) : Nat × Mosaic :=
  if s.layout.numSlots ≤ pos then (0, s)
  else
    match image with
    | none => (0, (clean s pos).2)
    | some image =>
      if image.width = mosaicWidth s.layout ∧ image.height = mosaicHeight s.layout then
        (1, s.copy image image.width image.height (offset s.layout pos) (offset2 s.layout pos))
      else
        (1, s.scale sws image pos (mosaicWidth s.layout) (mosaicHeight s.layout)
          (offset s.layout pos) (offset2 s.layout pos) keepAspectRatio)

end PartedMosaic

namespace AsymmetricMosaic

variable (sws : Swscale) (s : Mosaic)

/-- Reference: `asymmetricmosaic.cpp:59`. -/
def offset (l : Layout) (pos : Nat) : Nat :=
  l.mosaicTotalWidth * getTop l pos + getLeft l pos

/-- Reference: `asymmetricmosaic.cpp:60`. -/
def offset2 (l : Layout) (pos : Nat) : Nat :=
  l.mosaicTotalWidth * getTop l pos / 4 + getLeft l pos / 2

/-- Reference: `asymmetricmosaic.cpp:112`. -/
def clean (pos : Nat) : Nat × Mosaic :=
  if s.layout.numSlots ≤ pos then (0, s)
  else
    (1, s.blank (getWidth s.layout pos) (getHeight s.layout pos) (offset s.layout pos)
      (offset2 s.layout pos))

/-- Without an image the slot is cleared; an empty image is refused. Reference:
`asymmetricmosaic.cpp:27`. -/
def update (pos : Nat) (image : Option Image) (keepAspectRatio : Bool) : Nat × Mosaic :=
  if s.layout.numSlots ≤ pos then (0, s)
  else
    match image with
    | none => clean s pos
    | some image =>
      if image.width = getWidth s.layout pos ∧ image.height = getHeight s.layout pos then
        (1, s.copy image image.width image.height (offset s.layout pos) (offset2 s.layout pos))
      else if 0 < image.width ∧ 0 < image.height then
        (1, s.scale sws image pos (getWidth s.layout pos) (getHeight s.layout pos)
          (offset s.layout pos) (offset2 s.layout pos) keepAspectRatio)
      else (0, s)

end AsymmetricMosaic

namespace PIPMosaic

variable (sws : Swscale) (s : Mosaic) (l : Layout)

/-- The sizes `Update` places the small slots with. Reference: `pipmosaic.cpp:85`. -/
def intraWidth : Nat := size4Mul (l.mosaicTotalWidth / 5) / 2

def intraHeight : Nat := size4Mul (l.mosaicTotalHeight / 5) / 4

/-- The chroma width is not changed when there are two slots only. -/
def mosaicWidthUV : Nat := size4Mul (l.mosaicTotalWidth / 5) / 2

def mosaicWidth : Nat :=
  if l.numSlots = 2 then size4Mul (l.mosaicTotalWidth / 4) else size4Mul (l.mosaicTotalWidth / 5)

def mosaicHeight : Nat :=
  if l.numSlots = 2 then size4Mul (l.mosaicTotalHeight / 4)
  else size4Mul (l.mosaicTotalHeight / 5)

def pipIni : Nat := size4Mul (l.mosaicTotalHeight - mosaicHeight l - intraHeight l)

/-- Copy `n` luma columns from `x` on of two rows. -/
def copyY (imageY : Pointer) (pair x n : Nat) (m : Nat → UInt8) : Nat → UInt8 :=
  let row := l.mosaicTotalWidth * (2 * pair) + x
  let next := row + l.mosaicTotalWidth
  memcpy next (fun a => imageY (next + a)) n (memcpy row (fun a => imageY (row + a)) n m)

/-- Copy `n` columns from `x` on of one row of both chroma planes. -/
def copyUV (imageU imageV : Pointer) (pair x n : Nat) (m : Nat → UInt8) : Nat → UInt8 :=
  let row := l.mosaicTotalWidth / 2 * pair + x
  let pixels := l.mosaicNumPixels
  memcpy (pixels + pixels / 4 + row) (fun a => imageV (row + a)) n
    (memcpy (pixels + row) (fun a => imageU (row + a)) n m)

/-- Copy two rows. Reference: `pipmosaic.cpp:150,217`. -/
def copyRows (imageY imageU imageV : Pointer) (pair : Nat) (m : Nat → UInt8) : Nat → UInt8 :=
  copyUV l imageU imageV pair 0 (l.mosaicTotalWidth / 2)
    (copyY l imageY pair 0 l.mosaicTotalWidth m)

/-- Copy two rows around the small slots. Reference: `pipmosaic.cpp:178`. -/
def copyRowsAround (imageY imageU imageV : Pointer) (pair : Nat) (m : Nat → UInt8) :
    Nat → UInt8 :=
  let pipY (i : Nat) := (intraWidth l + mosaicWidth l) * i
  let pipUV (i : Nat) := (intraWidth l / 2 + mosaicWidthUV l) * i
  let around := forRange (l.numSlots - 1)
    (fun i m => copyUV l imageU imageV pair (pipUV i) (intraWidth l / 2)
      (copyY l imageY pair (pipY i) (intraWidth l) m)) m
  let last := l.numSlots - 1
  copyUV l imageU imageV pair (pipUV last) (l.mosaicTotalWidth / 2 - pipUV last)
    (copyY l imageY pair (pipY last) (l.mosaicTotalWidth - pipY last) around)

/-- The main image, copied around the small slots. Reference: `pipmosaic.cpp:148`. -/
def copyMain (imageY imageU imageV : Pointer) (m : Nat → UInt8) : Nat → UInt8 :=
  let above := pipIni l / 2
  let beside := mosaicHeight l / 2
  let below := (pipIni l + mosaicHeight l) / 2
  forRange (l.mosaicTotalHeight / 2 - below)
    (fun j => copyRows l imageY imageU imageV (above + beside + j))
    (forRange beside (fun j => copyRowsAround l imageY imageU imageV (above + j))
      (forRange above (copyRows l imageY imageU imageV) m))

/-- The function has no body. Reference: `pipmosaic.cpp:279`. -/
def clean (_pos : Nat) : Mosaic := s

/-- Show the main image. It is scaled to a buffer of its own first. Reference:
`pipmosaic.cpp:125`. -/
def updateMain (image : Image) (keepAspectRatio : Bool) : Mosaic :=
  let l := s.layout
  if image.width = l.mosaicTotalWidth ∧ image.height = l.mosaicTotalHeight then
    { s with
      mosaic := copyMain l image.imageY image.imageU image.imageV s.mosaic
      mosaicChanged := true }
  else
    let scaler := (s.resizer 0).setResize sws image.width image.height image.width
      l.mosaicTotalWidth l.mosaicTotalHeight l.mosaicTotalWidth keepAspectRatio
    let pixels := l.mosaicNumPixels
    let under := scaler.resize sws image.imageY image.imageU image.imageV 0 pixels
      (pixels + pixels / 4) s.under
    { s with
      resizer := Function.update s.resizer 0 scaler
      under := under
      mosaic := copyMain l under (fun a => under (pixels + a))
        (fun a => under (pixels + pixels / 4 + a)) s.mosaic
      mosaicChanged := true }

/-- Show an image in a small slot. Reference: `pipmosaic.cpp:236`. -/
def updatePip (pos : Nat) (image : Image) (keepAspectRatio : Bool) : Mosaic :=
  let l := s.layout
  let offsetY := l.mosaicTotalWidth * pipIni l + intraWidth l +
    (intraWidth l + mosaicWidth l) * (pos - 1)
  let offsetUV := l.mosaicTotalWidth * pipIni l / 4 + intraWidth l / 2 +
    (intraWidth l / 2 + mosaicWidthUV l) * (pos - 1)
  if image.width = mosaicWidth l ∧ image.height = mosaicHeight l then
    { s with
      mosaic :=
        forRange (image.height / 2)
          (fun i m =>
            memcpy (s.lineaV offsetUV + l.mosaicTotalWidth / 2 * i)
              (fun a => image.imageV (mosaicWidthUV l * i + a)) (mosaicWidthUV l)
              (memcpy (s.lineaU offsetUV + l.mosaicTotalWidth / 2 * i)
                (fun a => image.imageU (mosaicWidthUV l * i + a)) (mosaicWidthUV l) m))
          (forRange image.height
            (fun i => memcpy (offsetY + l.mosaicTotalWidth * i)
              (fun a => image.imageY (image.width * i + a)) (mosaicWidth l)) s.mosaic)
      mosaicChanged := true }
  else if 0 < image.width ∧ 0 < image.height then
    s.scale sws image pos (mosaicWidth l) (mosaicHeight l) offsetY offsetUV keepAspectRatio
  else { s with mosaicChanged := true }

/-- Reference: `pipmosaic.cpp:46`. -/
def update (pos : Nat) (image : Option Image) (keepAspectRatio : Bool) : Nat × Mosaic :=
  match image with
  | none => (0, clean s pos)
  | some image =>
    if s.layout.numSlots < pos + 1 then (0, s)
    else if pos = 0 then (1, updateMain sws s image keepAspectRatio)
    else (1, updatePip sws s pos image keepAspectRatio)

end PIPMosaic

namespace Mosaic

/-- A call on a mosaic. -/
inductive Call where
  | update (pos : Nat) (image : Option Image) (keepAspectRatio : Bool)
  | clean (pos : Nat)

variable (sws : Swscale) (s : Mosaic)

/-- What a call does to the mosaic. -/
def step (s : Mosaic) : Call → Mosaic
  | .update pos image keepAspectRatio =>
    match s.layout.mosaicType.create with
    | .parted => (PartedMosaic.update sws s pos image keepAspectRatio).2
    | .asymmetric => (AsymmetricMosaic.update sws s pos image keepAspectRatio).2
    | .pip => (PIPMosaic.update sws s pos image keepAspectRatio).2
  | .clean pos =>
    match s.layout.mosaicType.create with
    | .parted => (PartedMosaic.clean s pos).2
    | .asymmetric => (AsymmetricMosaic.clean s pos).2
    | .pip => PIPMosaic.clean s pos

/-- One call after the other. -/
def run (s : Mosaic) (calls : List Call) : Mosaic :=
  calls.foldl (step sws) s

end Mosaic

end McuMediaServer
