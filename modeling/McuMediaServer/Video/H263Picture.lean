import McuMediaServer.Video.Vlc

/-!
# The macroblocks of an H.263 picture

What the packetizer reads of a picture: the header up to the first macroblock, the headers of the
groups of blocks and the macroblocks, of which only the end matters to it. Every loop reads at least
a bit in each round, so that it ends at the latest with the data.
-/

namespace McuMediaServer

namespace H263

/-! ## The tables -/

/-- Reference: `h263.h:16`. -/
structure MCBPCEntry where
  index : Nat
  type : Nat
  cbpc0 : Nat
  cbpc1 : Nat

/-- Reference: `h263.h:59`. -/
structure CPBYEntry where
  cbpyI : List Nat
  cbpyP : List Nat

/-- Reference: `h263.cpp:3`. -/
def mcbpcTableI : List (MCBPCEntry × Nat × Nat) :=
  [(⟨0, 3, 0, 0⟩, 1, 0x1), (⟨1, 3, 0, 1⟩, 3, 0x1), (⟨2, 3, 1, 0⟩, 3, 0x2), (⟨3, 3, 1, 1⟩, 3, 0x3),
   (⟨4, 4, 0, 0⟩, 4, 0x1), (⟨5, 4, 0, 1⟩, 6, 0x1), (⟨6, 4, 1, 0⟩, 6, 0x2), (⟨7, 4, 1, 1⟩, 6, 0x3),
   (⟨8, 255, 255, 255⟩, 9, 0x1)]

/-- Reference: `h263.cpp:16`. -/
def mcbpcTableP : List (MCBPCEntry × Nat × Nat) :=
  [(⟨0, 0, 0, 0⟩, 1, 0x1), (⟨1, 0, 0, 1⟩, 4, 0x3), (⟨2, 0, 1, 0⟩, 4, 0x2), (⟨3, 0, 1, 1⟩, 6, 0x5),
   (⟨4, 1, 0, 0⟩, 3, 0x3), (⟨5, 1, 0, 1⟩, 7, 0x7), (⟨6, 1, 1, 0⟩, 7, 0x6), (⟨7, 1, 1, 1⟩, 9, 0x5),
   (⟨8, 2, 0, 0⟩, 3, 0x2), (⟨9, 2, 0, 1⟩, 7, 0x5), (⟨10, 2, 1, 0⟩, 7, 0x4),
   (⟨11, 2, 1, 1⟩, 8, 0x5), (⟨12, 3, 0, 0⟩, 5, 0x3), (⟨13, 3, 0, 1⟩, 8, 0x4),
   (⟨14, 3, 1, 0⟩, 8, 0x3), (⟨15, 3, 1, 1⟩, 7, 0x3), (⟨16, 4, 0, 0⟩, 6, 0x4),
   (⟨17, 4, 0, 1⟩, 9, 0x4), (⟨18, 4, 1, 0⟩, 9, 0x3), (⟨19, 4, 1, 1⟩, 9, 0x2),
   (⟨20, 255, 255, 255⟩, 9, 0x1), (⟨21, 5, 0, 0⟩, 11, 0x2), (⟨22, 5, 0, 1⟩, 13, 0xc),
   (⟨23, 5, 1, 0⟩, 13, 0xe), (⟨24, 5, 1, 1⟩, 13, 0xf)]

/-- The codes of the vectors, which are skipped. Reference: `h263.cpp:45`. -/
def mvdTable : List (Unit × Nat × Nat) :=
  [((), 13, 0x5), ((), 13, 0x7), ((), 12, 0x5), ((), 12, 0x7), ((), 12, 0x9), ((), 12, 0xb),
   ((), 12, 0xd), ((), 12, 0xf), ((), 11, 0x9), ((), 11, 0xb), ((), 11, 0xd), ((), 11, 0xf),
   ((), 11, 0x11), ((), 11, 0x13), ((), 11, 0x15), ((), 11, 0x17), ((), 11, 0x19), ((), 11, 0x1b),
   ((), 11, 0x1d), ((), 11, 0x1f), ((), 11, 0x21), ((), 11, 0x23), ((), 10, 0x13), ((), 10, 0x15),
   ((), 10, 0x17), ((), 8, 0x7), ((), 8, 0x9), ((), 8, 0xb), ((), 7, 0x7), ((), 5, 0x3),
   ((), 4, 0x3), ((), 3, 0x3), ((), 1, 0x1), ((), 3, 0x2), ((), 4, 0x2), ((), 5, 0x2),
   ((), 7, 0x6), ((), 8, 0xa), ((), 8, 0x8), ((), 8, 0x6), ((), 10, 0x16), ((), 10, 0x14),
   ((), 10, 0x12), ((), 11, 0x22), ((), 11, 0x20), ((), 11, 0x1e), ((), 11, 0x1c), ((), 11, 0x1a),
   ((), 11, 0x18), ((), 11, 0x16), ((), 11, 0x14), ((), 11, 0x12), ((), 11, 0x10), ((), 11, 0xe),
   ((), 11, 0xc), ((), 11, 0xa), ((), 11, 0x8), ((), 12, 0xe), ((), 12, 0xc), ((), 12, 0xa),
   ((), 12, 0x8), ((), 12, 0x6), ((), 12, 0x4), ((), 13, 0x6)]

/-- The coefficients by whether they are the last ones; 255 is the escape code. Reference:
`h263.cpp:113`. -/
def tcoefTable : List (Nat × Nat × Nat) :=
  [(0, 2, 0x2), (0, 4, 0xf), (0, 6, 0x15), (0, 7, 0x17), (0, 8, 0x1f), (0, 9, 0x25), (0, 9, 0x24),
   (0, 10, 0x21), (0, 10, 0x20), (0, 11, 0x7), (0, 11, 0x6), (0, 11, 0x20), (0, 3, 0x6),
   (0, 6, 0x14), (0, 8, 0x1e), (0, 10, 0xf), (0, 11, 0x21), (0, 12, 0x50), (0, 4, 0xe),
   (0, 8, 0x1d), (0, 10, 0xe), (0, 12, 0x51), (0, 5, 0xd), (0, 9, 0x23), (0, 10, 0xd),
   (0, 5, 0xc), (0, 9, 0x22), (0, 12, 0x52), (0, 5, 0xb), (0, 10, 0xc), (0, 12, 0x53),
   (0, 6, 0x13), (0, 10, 0xb), (0, 12, 0x54), (0, 6, 0x12), (0, 10, 0xa), (0, 6, 0x11),
   (0, 10, 0x9), (0, 6, 0x10), (0, 10, 0x8), (0, 7, 0x16), (0, 12, 0x55), (0, 7, 0x15),
   (0, 7, 0x14), (0, 8, 0x1c), (0, 8, 0x1b), (0, 9, 0x21), (0, 9, 0x20), (0, 9, 0x1f),
   (0, 9, 0x1e), (0, 9, 0x1d), (0, 9, 0x1c), (0, 9, 0x1b), (0, 9, 0x1a), (0, 11, 0x22),
   (0, 11, 0x23), (0, 12, 0x56), (0, 12, 0x57), (1, 4, 0x7), (1, 9, 0x19), (1, 11, 0x5),
   (1, 6, 0xf), (1, 11, 0x4), (1, 6, 0xe), (1, 6, 0xd), (1, 6, 0xc), (1, 7, 0x13), (1, 7, 0x12),
   (1, 7, 0x11), (1, 7, 0x10), (1, 8, 0x1a), (1, 8, 0x19), (1, 8, 0x18), (1, 8, 0x17),
   (1, 8, 0x16), (1, 8, 0x15), (1, 8, 0x14), (1, 8, 0x13), (1, 9, 0x18), (1, 9, 0x17),
   (1, 9, 0x16), (1, 9, 0x15), (1, 9, 0x14), (1, 9, 0x13), (1, 9, 0x12), (1, 9, 0x11),
   (1, 10, 0x7), (1, 10, 0x6), (1, 10, 0x5), (1, 10, 0x4), (1, 11, 0x24), (1, 11, 0x25),
   (1, 11, 0x26), (1, 11, 0x27), (1, 12, 0x58), (1, 12, 0x59), (1, 12, 0x5a), (1, 12, 0x5b),
   (1, 12, 0x5c), (1, 12, 0x5d), (1, 12, 0x5e), (1, 12, 0x5f), (255, 7, 0x3)]

/-- Reference: `h263.cpp:220`. -/
def cpbyTable : List (CPBYEntry × Nat × Nat) :=
  [(⟨[0, 0, 0, 0], [1, 1, 1, 1]⟩, 4, 0x3), (⟨[0, 0, 0, 1], [1, 1, 1, 0]⟩, 5, 0x5),
   (⟨[0, 0, 1, 0], [1, 1, 0, 1]⟩, 5, 0x4), (⟨[0, 0, 1, 1], [1, 1, 0, 0]⟩, 4, 0x9),
   (⟨[0, 1, 0, 0], [1, 0, 1, 1]⟩, 5, 0x3), (⟨[0, 1, 0, 1], [1, 0, 1, 0]⟩, 4, 0x7),
   (⟨[0, 1, 1, 0], [1, 0, 0, 1]⟩, 6, 0x2), (⟨[0, 1, 1, 1], [1, 0, 0, 0]⟩, 4, 0xb),
   (⟨[1, 0, 0, 0], [0, 1, 1, 1]⟩, 5, 0x2), (⟨[1, 0, 0, 1], [0, 1, 1, 0]⟩, 6, 0x3),
   (⟨[1, 0, 1, 0], [0, 1, 0, 1]⟩, 4, 0x5), (⟨[1, 0, 1, 1], [0, 1, 0, 0]⟩, 4, 0xa),
   (⟨[1, 1, 0, 0], [0, 0, 1, 1]⟩, 4, 0x4), (⟨[1, 1, 0, 1], [0, 0, 1, 0]⟩, 4, 0x8),
   (⟨[1, 1, 1, 0], [0, 0, 0, 1]⟩, 4, 0x6), (⟨[1, 1, 1, 1], [0, 0, 0, 0]⟩, 2, 0x3)]

def vlcMCPBI : VLCDecoder MCBPCEntry := .ofEntries mcbpcTableI

def vlcMCPBP : VLCDecoder MCBPCEntry := .ofEntries mcbpcTableP

def vlcCPBY : VLCDecoder CPBYEntry := .ofEntries cpbyTable

def vlcMVD : VLCDecoder Unit := .ofEntries mvdTable

def vlcTCOEF : VLCDecoder Nat := .ofEntries tcoefTable

/-! ## Reading -/

/-- What ends the reading of a picture early: the reader throws, or a code is invalid. -/
inductive Stop where
  | thrown (e : BitFault)
  | invalid
  deriving DecidableEq, Repr

def read {α : Type} : Except BitFault α → Except Stop α
  | .ok a => .ok a
  | .error e => .error (.thrown e)

/-- The value of a code. Reference: `h263.cpp:619`. -/
def decodeVlc {α : Type} (table : VLCDecoder α) (r : BitReader) :
    Except Stop (α × BitReader) :=
  match table.decode r with
  | .error e => .error (.thrown e)
  | .ok (none, _) => .error .invalid
  | .ok (some value, r) => .ok (value, r)

section Weight

variable {α : Type} {r r' : BitReader}

theorem read_eq_ok {x : Except BitFault α} {a : α} (h : read x = .ok a) : x = .ok a := by
  cases x with
  | error e => cases h
  | ok b =>
    cases h
    rfl

theorem weight_decodeVlc {table : VLCDecoder α} {value : α}
    (h : decodeVlc table r = .ok (value, r')) : r'.weight < r.weight := by
  rw [decodeVlc] at h
  split at h
  · cases h
  · cases h
  · rename_i value' r'' hdecode
    cases h
    exact VLCDecoder.weight_decode hdecode

end Weight

/-- Stuffing is skipped. Reference: `h263.cpp:617`. -/
def skipStuffing (table : VLCDecoder MCBPCEntry) (stuffing : Nat) (r : BitReader) :
    Except Stop (MCBPCEntry × BitReader) :=
  match _h : decodeVlc table r with
  | .error e => .error e
  | .ok (mcbp, r) =>
    if mcbp.index = stuffing then skipStuffing table stuffing r else .ok (mcbp, r)
termination_by r.weight
decreasing_by exact weight_decodeVlc _h

/-! ## Macroblocks -/

/-- A coefficient: not zero if it is the last one. Reference: `h263.cpp:818`. -/
def coefficient (r : BitReader) : Except Stop (Nat × BitReader) := do
  let (tcoef, r) ← decodeVlc vlcTCOEF r
  if tcoef = 255 then do
    let (last, r) ← read (r.get 1)
    let r ← read (r.skip 14)
    return (last, r)
  else do
    let r ← read (r.skip 1)
    return (tcoef, r)

theorem weight_coefficient {r r' : BitReader} {last : Nat} (h : coefficient r = .ok (last, r')) :
    r'.weight < r.weight := by
  rw [coefficient] at h
  cases hvlc : decodeVlc vlcTCOEF r with
  | error e => simp [hvlc, bind, Except.bind] at h
  | ok p =>
    obtain ⟨tcoef, r₁⟩ := p
    have hlt := weight_decodeVlc hvlc
    simp only [hvlc, bind, Except.bind] at h
    split at h
    · cases hget : read (r₁.get 1) with
      | error e => simp [hget] at h
      | ok q =>
        obtain ⟨bit, r₂⟩ := q
        cases hskip : read (r₂.skip 14) with
        | error e => simp [hget, hskip] at h
        | ok r₃ =>
          simp only [hget, hskip, pure, Except.pure, Except.ok.injEq, Prod.mk.injEq] at h
          obtain ⟨-, rfl⟩ := h
          have hget' := BitReader.weight_get (by decide) (by decide) (read_eq_ok hget)
          have hskip' := BitReader.weight_skip (by decide) (by decide) (read_eq_ok hskip)
          omega
    · cases hskip : read (r₁.skip 1) with
      | error e => simp [hskip] at h
      | ok r₂ =>
        simp only [hskip, pure, Except.pure, Except.ok.injEq, Prod.mk.injEq] at h
        obtain ⟨-, rfl⟩ := h
        have hskip' := BitReader.weight_skip (by decide) (by decide) (read_eq_ok hskip)
        omega

/-- The coefficients of a block, up to the last one. Reference: `h263.cpp:815`. -/
def coefficients (r : BitReader) : Except Stop BitReader :=
  match _h : coefficient r with
  | .error e => .error e
  | .ok (last, r) => if last = 0 then coefficients r else .ok r
termination_by r.weight
decreasing_by exact weight_coefficient _h

/-- Reference: `h263.cpp:799`. -/
def block (hasINTRADC : Bool) (r : BitReader) (cbp : Nat) : Except Stop BitReader := do
  let r ← if hasINTRADC then read (r.skip 8) else .ok r
  if cbp ≠ 0 then coefficients r else .ok r

/-- Reference: `h263.cpp:759`. -/
def skipVectors : Nat → BitReader → Except Stop BitReader
  | 0, r => .ok r
  | n + 1, r => do
    let (_, r) ← decodeVlc vlcMVD r
    skipVectors n r

/-- What a macroblock has. Reference: `h263.cpp:600`. -/
structure MBLayer where
  hasCPBY : Bool := false
  hasDQUANT : Bool := false
  hasMVD : Bool := false
  hasMVD24 : Bool := false
  hasINTRADC : Bool := false
  isMBIntra : Bool := false

/-- The types of macroblocks in an intra picture. Reference: `h263.cpp:629`. -/
def intraLayer : Nat → MBLayer
  | 3 => { isMBIntra := true, hasCPBY := true, hasINTRADC := true }
  | 4 => { isMBIntra := true, hasCPBY := true, hasDQUANT := true, hasINTRADC := true }
  | _ => { isMBIntra := true }

/-- The types of macroblocks in the other pictures. Reference: `h263.cpp:672`. -/
def interLayer : Nat → MBLayer
  | 0 => { hasCPBY := true, hasMVD := true }
  | 1 => { hasCPBY := true, hasDQUANT := true, hasMVD := true }
  | 2 => { hasCPBY := true, hasMVD := true, hasMVD24 := true }
  | 3 => { hasCPBY := true, hasINTRADC := true, isMBIntra := true }
  | 4 => { hasCPBY := true, hasDQUANT := true, hasINTRADC := true, isMBIntra := true }
  | 5 => { hasCPBY := true, hasDQUANT := true, hasMVD := true, hasMVD24 := true, isMBIntra := true }
  | _ => {}

/-- The pattern of the luminance blocks. Reference: `h263.cpp:722`. -/
def luminance (layer : MBLayer) (r : BitReader) : Except Stop (List Nat × BitReader) :=
  if layer.hasCPBY then do
    let (cpby, r) ← decodeVlc vlcCPBY r
    return (if layer.isMBIntra then cpby.cbpyI else cpby.cbpyP, r)
  else
    .ok ([0, 0, 0, 0], r)

/-- The part of a macroblock behind its type. Reference: `h263.cpp:722`. -/
def macroblockData (layer : MBLayer) (mcbp : MCBPCEntry) (r : BitReader) :
    Except Stop BitReader := do
  let (cbpy, r) ← luminance layer r
  let r ← if layer.hasDQUANT then (read (r.get 2)).map (·.2) else .ok r
  let r ← if layer.hasMVD then skipVectors 2 r else .ok r
  let r ← if layer.hasMVD24 then skipVectors 6 r else .ok r
  (cbpy ++ [mcbp.cbpc0, mcbp.cbpc1]).foldlM (block layer.hasINTRADC) r

/-- A macroblock, and whether it is coded: the others are passed over with `continue`. Reference:
`h263.cpp:612`. -/
def macroblock (isIntra : Bool) (r : BitReader) : Except Stop (Bool × BitReader) :=
  if isIntra then do
    let (mcbp, r) ← skipStuffing vlcMCPBI 8 r
    if mcbp.type = 255 then
      return (false, r)
    else do
      let r ← macroblockData (intraLayer mcbp.type) mcbp r
      return (true, r)
  else do
    let (coded, r) ← read (r.get 1)
    if coded ≠ 0 then
      return (false, r)
    else do
      let (mcbp, r) ← skipStuffing vlcMCPBP 20 r
      if mcbp.type = 255 then
        return (false, r)
      else do
        let r ← macroblockData (interLayer mcbp.type) mcbp r
        return (true, r)

/-! ## Headers -/

/-- Reference: `h263.cpp:566`. -/
def skipZeros (r : BitReader) : Except Stop BitReader :=
  match _h : r.get 1 with
  | .error e => .error (.thrown e)
  | .ok (bit, r) => if bit = 0 then skipZeros r else .ok r
termination_by r.weight
decreasing_by exact BitReader.weight_get (by decide) (by decide) _h

/-- The header of a group of blocks, if there is one, and whether it is the end of the sequence.
Reference: `h263.cpp:561`. -/
def gobHeader (r : BitReader) : Except Stop (Bool × BitReader) :=
  if 16 < r.left then do
    let bits ← read (r.peek 16)
    if bits = 0 then do
      let r ← read (r.skip 16)
      let r ← skipZeros r
      let (numGOB, r) ← read (r.get 5)
      if numGOB = 0x1F then
        return (true, r)
      else do
        let r ← read (r.skip 2)
        let r ← read (r.skip 5)
        return (false, r)
    else
      return (false, r)
  else
    return (false, r)

/-- Reference: `h263.cpp:547`. -/
def skipExtra (r : BitReader) : Except Stop BitReader :=
  match _h : r.get 1 with
  | .error e => .error (.thrown e)
  | .ok (bit, r) =>
    if bit = 0 then .ok r
    else match _h' : r.skip 8 with
      | .error e => .error (.thrown e)
      | .ok r => skipExtra r
termination_by r.weight
decreasing_by
  have hget := BitReader.weight_get (by decide) (by decide) _h
  have hskip := BitReader.weight_skip (by decide) (by decide) _h'
  omega

/-- The width and the height of a picture size; that of a sub-QCIF picture falls through. Reference:
`h263.cpp:492`. -/
def pictureSize : Nat → Option (Nat × Nat)
  | 1 => some (174, 144)
  | 2 => some (174, 144)
  | 3 => some (352, 288)
  | 4 => some (352 * 2, 288 * 2)
  | 5 => some (352 * 4, 288 * 4)
  | _ => none

/-- What is read of the header of a picture. -/
structure PictureHeader where
  size : Nat
  width : Nat
  height : Nat
  isIntra : Bool

/-- Reference: `h263.cpp:468`. -/
def pictureHeader (r : BitReader) : Except Stop (PictureHeader × BitReader) := do
  let (psc, r) ← read (r.get 22)
  if psc ≠ 0x20 then
    .error .invalid
  else do
    let r ← read (r.skip 8)
    let r ← read (r.skip 5)
    let (size, r) ← read (r.get 3)
    match pictureSize size with
    | none => .error .invalid
    | some (width, height) => do
      let (bit, r) ← read (r.get 1)
      let r ← read (r.skip 4)
      let r ← read (r.skip 5)
      let r ← read (r.skip 1)
      let r ← skipExtra r
      return ({ size, width, height, isIntra := bit = 0 }, r)

end H263

end McuMediaServer
