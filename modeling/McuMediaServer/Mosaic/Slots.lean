import McuMediaServer.Mosaic.FrameScaler

/-!
# The slots of a mosaic

A mosaic is one picture in three planes, one behind the other, that is divided into slots. The
parted mosaics are grids, the asymmetric ones have a table of the grid cells their slots begin at
and sizes in cells, and the picture-in-picture ones lay small slots over one that is the whole
picture. Each kind has its own code for showing an image in a slot and for clearing a slot.
-/

namespace McuMediaServer

open Overwrite

/-- Reference: `mosaic.h:24`. -/
inductive MosaicType where
  | mosaic1x1 | mosaic2x2 | mosaic3x3 | mosaic3p4 | mosaic1p7 | mosaic1p5 | mosaic1p1 | mosaicPIP1
  | mosaicPIP3 | mosaic4x4 | mosaic1p4A | mosaic1p2A | mosaic1p2x2A | mosaic1p6A | mosaic1p12
  | mosaic1p16A | mosaic4x5A | mosaic5x5 | mosaic1p1A | mosaic1p2 | mosaic1p2x6A | mosaic1p1p2x4A
  | mosaic1p3A
  deriving DecidableEq

/-- The three implementations of a mosaic. -/
inductive MosaicClass where
  | parted | asymmetric | pip
  deriving DecidableEq

namespace MosaicType

/-- Reference: `mosaic.cpp:21`. -/
def numSlots : MosaicType → Nat
  | mosaic1x1 => 1
  | mosaic2x2 => 4
  | mosaic3x3 => 9
  | mosaic3p4 => 7
  | mosaic1p7 => 8
  | mosaic1p5 => 6
  | mosaic1p1 => 2
  | mosaicPIP1 => 2
  | mosaicPIP3 => 4
  | mosaic4x4 => 16
  | mosaic1p4A => 5
  | mosaic1p2A => 3
  | mosaic1p2x2A => 5
  | mosaic1p6A => 7
  | mosaic1p12 => 13
  | mosaic1p16A => 17
  | mosaic4x5A => 20
  | mosaic5x5 => 25
  | mosaic1p1A => 2
  | mosaic1p2 => 3
  | mosaic1p2x6A => 13
  | mosaic1p1p2x4A => 10
  | mosaic1p3A => 4

/-- The implementation a mosaic is created with. Reference: `mosaic.cpp:535`. -/
def create : MosaicType → MosaicClass
  | mosaic1x1 | mosaic2x2 | mosaic3x3 | mosaic4x4 | mosaic5x5 | mosaic4x5A | mosaic1p1A => .parted
  | mosaic1p1 | mosaic3p4 | mosaic1p7 | mosaic1p5 | mosaic1p4A | mosaic1p2A | mosaic1p2x2A
  | mosaic1p6A | mosaic1p12 | mosaic1p16A | mosaic1p2 | mosaic1p2x6A | mosaic1p1p2x4A
  | mosaic1p3A => .asymmetric
  | mosaicPIP1 | mosaicPIP3 => .pip

end MosaicType

/-- The layout of a mosaic: its type and the size of its picture, which is even. -/
structure Layout where
  mosaicType : MosaicType
  mosaicTotalWidth : Nat
  mosaicTotalHeight : Nat
  width_even : mosaicTotalWidth % 2 = 0
  height_even : mosaicTotalHeight % 2 = 0
  width_pos : 0 < mosaicTotalWidth
  height_pos : 0 < mosaicTotalHeight

/-- Clear the last two bits. Reference: `config.h:52`. -/
def size4Mul (x : Nat) : Nat := x / 4 * 4

namespace Layout

variable (l : Layout)

def numSlots : Nat := l.mosaicType.numSlots

def mosaicNumPixels : Nat := l.mosaicTotalWidth * l.mosaicTotalHeight

end Layout

namespace PartedMosaic

/-- Columns and rows. The constructor throws on a type of another class. Reference:
`partedmosaic.cpp:12`. -/
def grid : MosaicType → Nat × Nat
  | .mosaic2x2 => (2, 2)
  | .mosaic3x3 => (3, 3)
  | .mosaic4x4 => (4, 4)
  | .mosaic4x5A => (4, 5)
  | .mosaic5x5 => (5, 5)
  | .mosaic1p1A => (2, 1)
  | _ => (1, 1)

variable (l : Layout)

def mosaicCols : Nat := (grid l.mosaicType).1

def mosaicRows : Nat := (grid l.mosaicType).2

def mosaicWidth : Nat := l.mosaicTotalWidth / mosaicCols l

def mosaicHeight : Nat := l.mosaicTotalHeight / mosaicRows l

/-- Reference: `partedmosaic.cpp:210`. -/
def getWidth (pos : Nat) : Nat :=
  if l.numSlots ≤ pos then 0 else mosaicWidth l

/-- Reference: `partedmosaic.cpp:219`. -/
def getHeight (pos : Nat) : Nat :=
  if l.numSlots ≤ pos then 0 else mosaicHeight l

/-- Reference: `partedmosaic.cpp:228`. -/
def getTop (pos : Nat) : Nat :=
  mosaicHeight l * (pos / mosaicCols l)

/-- Reference: `partedmosaic.cpp:237`. -/
def getLeft (pos : Nat) : Nat :=
  mosaicWidth l * (pos - pos / mosaicCols l * mosaicCols l)

end PartedMosaic

namespace AsymmetricMosaic

/-- Columns of the picture, and how many of them a slot takes. Reference:
`asymmetricmosaic.cpp:166`. -/
def widthCells : MosaicType → Nat → Nat × Nat
  | .mosaic3p4, pos => (4, if pos < 3 then 2 else 1)
  | .mosaic1p7, pos => (4, if pos = 0 then 3 else 1)
  | .mosaic1p4A, pos => (5, if pos = 0 then 4 else 1)
  | .mosaic1p5, pos => (3, if pos = 0 then 2 else 1)
  | .mosaic1p1, _ => (4, 2)
  | .mosaic1p2, pos => (3, if pos = 0 then 2 else 1)
  | .mosaic1p2A, pos => (3, if pos = 0 then 2 else 1)
  | .mosaic1p2x2A, pos => (4, if pos = 0 then 2 else 1)
  | .mosaic1p6A, pos => (4, if pos = 0 then 2 else 1)
  | .mosaic1p12, pos => (4, if pos = 0 then 2 else 1)
  | .mosaic1p16A, pos => (5, if pos = 0 then 2 else 1)
  | .mosaic1p2x6A, pos => (8, if pos = 0 then 6 else 1)
  | .mosaic1p1p2x4A, pos => (8, if pos = 0 then 6 else if pos = 1 then 2 else 1)
  | .mosaic1p3A, pos => (4, if pos = 0 then 3 else 1)
  | _, _ => (1, 1)

/-- Rows of the picture, and how many of them a slot takes. Reference:
`asymmetricmosaic.cpp:430`. -/
def heightCells : MosaicType → Nat → Nat × Nat
  | .mosaic3p4, pos => (4, if pos < 3 then 2 else 1)
  | .mosaic1p7, pos => (4, if pos = 0 then 3 else 1)
  | .mosaic1p4A, pos => (4, if pos = 0 then 4 else 1)
  | .mosaic1p5, pos => (3, if pos = 0 then 2 else 1)
  | .mosaic1p1, _ => (4, 2)
  | .mosaic1p2, pos => (3, if pos = 0 then 2 else 1)
  | .mosaic1p2A, pos => (2, if pos = 0 then 2 else 1)
  | .mosaic1p2x2A, pos => (2, if pos = 0 then 2 else 1)
  | .mosaic1p6A, pos => (3, if pos = 0 then 3 else 1)
  | .mosaic1p12, pos => (4, if pos = 0 then 2 else 1)
  | .mosaic1p16A, pos => (4, if pos = 0 then 2 else 1)
  | .mosaic1p2x6A, pos => (6, if pos = 0 then 6 else 1)
  | .mosaic1p1p2x4A, pos => (6, if pos = 0 then 6 else if pos = 1 then 2 else 1)
  | .mosaic1p3A, pos => (3, if pos = 0 then 3 else 1)
  | _, _ => (1, 1)

/-- Columns and rows of the grid the slots begin on, and the cells where they do. Reference:
`asymmetricmosaic.cpp:694,942`. -/
def cells : MosaicType → Nat × Nat × List Nat
  | .mosaic3p4 => (4, 4, [0, 2, 8, 10, 11, 14, 15])
  | .mosaic1p7 => (4, 4, [0, 3, 7, 11, 12, 13, 14, 15])
  | .mosaic1p4A => (5, 4, [0, 4, 9, 14, 19])
  | .mosaic1p5 => (3, 3, [0, 2, 5, 6, 7, 8])
  | .mosaic1p1 => (2, 4, [2, 3])
  | .mosaic1p2 => (3, 6, [3, 5, 11])
  | .mosaic1p2A => (3, 2, [0, 2, 5])
  | .mosaic1p2x2A => (4, 2, [0, 2, 3, 6, 7])
  | .mosaic1p6A => (4, 3, [0, 2, 3, 6, 7, 10, 11])
  | .mosaic1p12 => (4, 4, [0, 2, 3, 6, 7, 8, 9, 10, 11, 12, 13, 14, 15])
  | .mosaic1p16A => (5, 4, [0, 2, 3, 4, 7, 8, 9, 10, 11, 12, 13, 14, 15, 16, 17, 18, 19])
  | .mosaic1p2x6A => (8, 6, [0, 6, 7, 14, 15, 22, 23, 30, 31, 38, 39, 46, 47])
  | .mosaic1p1p2x4A => (8, 6, [0, 6, 22, 23, 30, 31, 38, 39, 46, 47])
  | .mosaic1p3A => (4, 3, [0, 3, 7, 11])
  | _ => (1, 1, [])

/-- The row of the grid a slot begins in. -/
def row (type : MosaicType) (pos : Nat) : Nat :=
  (cells type).2.2.getD pos 0 / (cells type).1

/-- The column of the grid a slot begins in. -/
def col (type : MosaicType) (pos : Nat) : Nat :=
  (cells type).2.2.getD pos 0 - row type pos * (cells type).1

variable (l : Layout)

/-- Reference: `asymmetricmosaic.cpp:166`. -/
def getWidth (pos : Nat) : Nat :=
  if l.numSlots ≤ pos then 0
  else l.mosaicTotalWidth / (widthCells l.mosaicType pos).1 * (widthCells l.mosaicType pos).2

/-- Reference: `asymmetricmosaic.cpp:430`. -/
def getHeight (pos : Nat) : Nat :=
  if l.numSlots ≤ pos then 0
  else l.mosaicTotalHeight / (heightCells l.mosaicType pos).1 * (heightCells l.mosaicType pos).2

/-- Reference: `asymmetricmosaic.cpp:694`. -/
def getTop (pos : Nat) : Nat :=
  if l.numSlots ≤ pos then 0
  else l.mosaicTotalHeight / (cells l.mosaicType).2.1 * row l.mosaicType pos

/-- Reference: `asymmetricmosaic.cpp:942`. -/
def getLeft (pos : Nat) : Nat :=
  if l.numSlots ≤ pos then 0
  else l.mosaicTotalWidth / (cells l.mosaicType).1 * col l.mosaicType pos

end AsymmetricMosaic

namespace PIPMosaic

variable (l : Layout)

/-- Reference: `pipmosaic.cpp:319`. -/
def getWidth (pos : Nat) : Nat :=
  if l.numSlots < pos + 1 then 0
  else if pos = 0 then l.mosaicTotalWidth
  else if l.numSlots = 2 then size4Mul (l.mosaicTotalWidth / 4)
  else size4Mul (l.mosaicTotalWidth / 5)

/-- Reference: `pipmosaic.cpp:336`. -/
def getHeight (pos : Nat) : Nat :=
  if l.numSlots < pos + 1 then 0
  else if pos = 0 then l.mosaicTotalHeight
  else if l.numSlots = 2 then size4Mul (l.mosaicTotalHeight / 4)
  else size4Mul (l.mosaicTotalHeight / 5)

/-- Reference: `pipmosaic.cpp:350`. -/
def getTop (pos : Nat) : Nat :=
  if l.numSlots < pos + 1 then 0
  else if pos = 0 then 0
  else
    let mosaicHeight := size4Mul (l.mosaicTotalHeight / 5)
    size4Mul (l.mosaicTotalHeight - mosaicHeight - mosaicHeight / 2)

/-- Reference: `pipmosaic.cpp:364`. -/
def getLeft (pos : Nat) : Nat :=
  if l.numSlots < pos + 1 then 0
  else if pos = 0 then 0
  else
    let mosaicWidth := size4Mul (l.mosaicTotalWidth / 5)
    let intraWidth := mosaicWidth / 2
    intraWidth + (intraWidth + mosaicWidth) * (pos - 1)

end PIPMosaic

namespace Layout

variable (l : Layout) (pos : Nat)

def getWidth : Nat :=
  match l.mosaicType.create with
  | .parted => PartedMosaic.getWidth l pos
  | .asymmetric => AsymmetricMosaic.getWidth l pos
  | .pip => PIPMosaic.getWidth l pos

def getHeight : Nat :=
  match l.mosaicType.create with
  | .parted => PartedMosaic.getHeight l pos
  | .asymmetric => AsymmetricMosaic.getHeight l pos
  | .pip => PIPMosaic.getHeight l pos

def getTop : Nat :=
  match l.mosaicType.create with
  | .parted => PartedMosaic.getTop l pos
  | .asymmetric => AsymmetricMosaic.getTop l pos
  | .pip => PIPMosaic.getTop l pos

def getLeft : Nat :=
  match l.mosaicType.create with
  | .parted => PartedMosaic.getLeft l pos
  | .asymmetric => AsymmetricMosaic.getLeft l pos
  | .pip => PIPMosaic.getLeft l pos

end Layout

end McuMediaServer
