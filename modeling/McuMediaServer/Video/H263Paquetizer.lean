import McuMediaServer.Video.H263Picture

/-!
# Cutting an H.263 picture into packets

Behind each macroblock the packetizer cuts packets off until what is left fits in one. In mode A it
cuts at the end of the last group of blocks, in mode B at the end of the macroblock before. When the
macroblock itself is too long the cut is made at the same place for ever.
-/

namespace McuMediaServer

namespace H263

/-! ## Packets -/

/-- A packet with what is set in its header. Reference: `h263.cpp:890`. -/
structure Packet where
  modeA : Bool
  src : Nat
  i : Bool
  sbits : Nat
  ebits : Nat
  pos : Nat
  size : Nat
  deriving DecidableEq, Repr

/-- A difference of `DWORD`s. -/
def sub32 (a b : Nat) : Nat :=
  (a + 2 ^ 32 - b % 2 ^ 32) % 2 ^ 32

/-- The packet from a bit to another one. Reference: `h263.cpp:863`. -/
def packet (header : PictureHeader) (modeA : Bool) (ini last : Nat) : Packet where
  modeA
  src := header.size
  i := header.isIntra
  sbits := ini % 8
  ebits := sub32 8 (last + 1) % 8
  pos := ini / 8
  size := (sub32 (last / 8) (ini / 8) + 1) % 2 ^ 32

/-- The variables of the packetization. Reference: `h263.cpp:459`. -/
structure Paquetizer where
  ini : Nat := 0
  lastGOB : Nat := 0
  lastMB : Nat := 0
  modeA : Bool := true
  packets : List Packet := []
  deriving DecidableEq, Repr

namespace Paquetizer

/-- A round of the loop that cuts packets off. Reference: `h263.cpp:857`. -/
def cutOnce (header : PictureHeader) (p : Paquetizer) : Paquetizer :=
  if p.modeA then
    if p.ini < p.lastGOB then
      { p with
        packets := p.packets ++ [packet header true p.ini p.lastGOB]
        ini := (p.lastGOB + 1) % 2 ^ 32 }
    else
      { p with modeA := false }
  else
    { p with
      packets := p.packets ++ [packet header false p.ini p.lastMB]
      ini := (p.lastMB + 1) % 2 ^ 32 }

/-- A packet from a bit on would be too long. The payload size is in bytes. Reference:
`h263.cpp:854`. -/
def Far (payloadSize pos ini : Nat) : Prop :=
  payloadSize * 8 < sub32 pos ini

instance (payloadSize pos ini : Nat) : Decidable (Far payloadSize pos ini) :=
  inferInstanceAs (Decidable (payloadSize * 8 < sub32 pos ini))

/-- The loop up to the end of a macroblock, if it ends within a number of rounds. Reference:
`h263.cpp:854`. -/
def cut (payloadSize : Nat) (header : PictureHeader) (pos : Nat) : Nat → Paquetizer →
    Option Paquetizer
  | 0, p => if Far payloadSize pos p.ini then none else some p
  | rounds + 1, p =>
    if Far payloadSize pos p.ini then cut payloadSize header pos rounds (p.cutOnce header)
    else some p

/-- The end of a row of macroblocks. Reference: `h263.cpp:903`. -/
def endRow (header : PictureHeader) (pos : Nat) (p : Paquetizer) : Paquetizer :=
  let p := { p with lastGOB := pos }
  if p.modeA then p
  else
    { p with
      packets := p.packets ++ [packet header false p.ini p.lastMB]
      ini := (p.lastMB + 1) % 2 ^ 32
      modeA := true }

/-- The packet at the end of the picture. Reference: `h263.cpp:925`. -/
def endPicture (header : PictureHeader) (pos : Nat) (p : Paquetizer) : List Packet :=
  if p.ini < pos then p.packets ++ [packet header p.modeA p.ini pos] else p.packets

end Paquetizer

/-! ## The picture -/

/-- How the packetization of a picture ends, with the packets of the frame. -/
inductive Outcome where
  | returned (ok : Bool) (packets : List Packet)
  | thrown (e : BitFault) (packets : List Packet)
  | running
  deriving DecidableEq, Repr

def Stop.outcome (packets : List Packet) : Stop → Outcome
  | .thrown e => .thrown e packets
  | .invalid => .returned false packets

/-- The position of the last bit that was read. Reference: `h263.cpp:851`. -/
def position (r : BitReader) : Nat :=
  sub32 r.getPos 1

/-- What is in front of a row. Reference: `h263.cpp:558`. -/
def rowHeader (first : Bool) (r : BitReader) : Except Stop (Bool × BitReader) :=
  if first then .ok (false, r) else gobHeader r

section Picture

variable (rounds payloadSize : Nat) (header : PictureHeader)

/-- A row of macroblocks. Reference: `h263.cpp:597`. -/
def macroblocks : Nat → BitReader → Paquetizer → Except Outcome (BitReader × Paquetizer)
  | 0, r, p => .ok (r, p)
  | x + 1, r, p =>
    match macroblock header.isIntra r with
    | .error e => .error (e.outcome p.packets)
    | .ok (false, r) => macroblocks x r p
    | .ok (true, r) =>
      match p.cut payloadSize header (position r) rounds with
      | none => .error .running
      | some p => macroblocks x r { p with lastMB := position r }

/-- The rows, all but the first with the header of a group of blocks before them. Reference:
`h263.cpp:555`. -/
def rows : Nat → Bool → BitReader → Paquetizer → Except Outcome (BitReader × Paquetizer)
  | 0, _, r, p => .ok (r, p)
  | y + 1, first, r, p =>
    match rowHeader first r with
    | .error e => .error (e.outcome p.packets)
    | .ok (true, _) => .error (.returned true p.packets)
    | .ok (false, r) => do
      let (r, p) ← macroblocks rounds payloadSize header ((header.width + 15) / 16) r p
      rows y false r (p.endRow header (position r))

end Picture

/-- What is left behind the rows. Reference: `h263.cpp:921`. -/
def finish (header : PictureHeader) : Except Outcome (BitReader × Paquetizer) → Outcome
  | .error outcome => outcome
  | .ok (r, p) => .returned true (p.endPicture header (position r))

/-- The packetization of a frame, in which the loops that cut packets off are given a number of
rounds each. Reference: `h263.cpp:446`, `PaquetizeFrame`. -/
def paquetizeFrame (rounds payloadSize : Nat) (frame : List UInt8) : Outcome :=
  match pictureHeader ⟨frame, 0, 0, 0⟩ with
  | .error e => e.outcome []
  | .ok (header, r) =>
    finish header (rows rounds payloadSize header ((header.height + 15) / 16) true r {})

/-- The packetization of a frame ends: some number of rounds is enough for each loop. -/
def Terminates (payloadSize : Nat) (frame : List UInt8) : Prop :=
  ∃ rounds, paquetizeFrame rounds payloadSize frame ≠ .running

/-! ## When the loop ends -/

namespace Paquetizer

section Cut

variable {payloadSize pos rounds : Nat} {header : PictureHeader} {p q : Paquetizer}

/-- What is left fits in a packet, from the beginning of the packet on or from one of the places
where the loop can cut: the end of the last group of blocks, if that is behind the beginning and the
mode is A, and the end of the macroblock before, which is only tried behind the other one. -/
def Fits (payloadSize : Nat) (p : Paquetizer) (pos : Nat) : Prop :=
  ¬ Far payloadSize pos p.ini ∨
    if p.modeA ∧ p.ini < p.lastGOB then
      ¬ Far payloadSize pos ((p.lastGOB + 1) % 2 ^ 32) ∨
        (p.lastGOB ≤ (p.lastGOB + 1) % 2 ^ 32 ∧ ¬ Far payloadSize pos ((p.lastMB + 1) % 2 ^ 32))
    else
      ¬ Far payloadSize pos ((p.lastMB + 1) % 2 ^ 32)

theorem cutOnce_gob (hmode : p.modeA) (hlt : p.ini < p.lastGOB) :
    p.cutOnce header = { p with
      packets := p.packets ++ [packet header true p.ini p.lastGOB]
      ini := (p.lastGOB + 1) % 2 ^ 32 } := by
  rw [cutOnce, if_pos hmode, if_pos hlt]

theorem cutOnce_mode (hmode : p.modeA) (hle : p.lastGOB ≤ p.ini) :
    p.cutOnce header = { p with modeA := false } := by
  rw [cutOnce, if_pos hmode, if_neg (Nat.not_lt.2 hle)]

theorem cutOnce_macroblock (hmode : p.modeA = false) :
    p.cutOnce header = { p with
      packets := p.packets ++ [packet header false p.ini p.lastMB]
      ini := (p.lastMB + 1) % 2 ^ 32 } := by
  rw [cutOnce, if_neg (by rw [hmode]; exact Bool.false_ne_true)]

theorem fits_cutOnce (hfar : Far payloadSize pos p.ini) :
    Fits payloadSize (p.cutOnce header) pos ↔ Fits payloadSize p pos := by
  cases hmode : p.modeA with
  | true =>
    rcases Nat.lt_or_ge p.ini p.lastGOB with hlt | hle
    · rw [cutOnce_gob hmode hlt, Fits, Fits]
      simp only [hmode, hfar, hlt, true_and, not_true_eq_false, false_or, if_true]
      by_cases hwrap : (p.lastGOB + 1) % 2 ^ 32 < p.lastGOB
      · rw [if_pos hwrap]
        tauto
      · rw [if_neg hwrap]
        have := Nat.not_lt.1 hwrap
        tauto
    · rw [cutOnce_mode hmode hle, Fits, Fits]
      simp [hfar, Nat.not_lt.2 hle]
  | false =>
    rw [cutOnce_macroblock hmode, Fits, Fits]
    simp [hmode, hfar]

attribute [local simp] cut in
theorem cut_of_near (h : ¬ Far payloadSize pos p.ini) (rounds : Nat) :
    cut payloadSize header pos rounds p = some p := by
  cases rounds with
  | zero => simp [h]
  | succ rounds => simp [h]

theorem cut_of_far (h : Far payloadSize pos p.ini) (rounds : Nat) :
    cut payloadSize header pos (rounds + 1) p =
      cut payloadSize header pos rounds (p.cutOnce header) := by
  rw [cut, if_pos h]

theorem cut_of_not_fits (h : ¬ Fits payloadSize p pos) (rounds : Nat) :
    cut payloadSize header pos rounds p = none := by
  have hfar : Far payloadSize pos p.ini := by
    by_contra hnear
    exact h (.inl hnear)
  induction rounds generalizing p with
  | zero => rw [cut, if_pos hfar]
  | succ rounds ih =>
    rw [cut_of_far hfar]
    have h' : ¬ Fits payloadSize (p.cutOnce header) pos := by rwa [fits_cutOnce hfar]
    refine ih h' ?_
    by_contra hnear
    exact h' (.inl hnear)

theorem cut_macroblock (hmode : p.modeA = false) (h : Fits payloadSize p pos) (rounds : Nat) :
    ∃ q, cut payloadSize header pos (rounds + 1) p = some q := by
  by_cases hfar : Far payloadSize pos p.ini
  · have hnear : ¬ Far payloadSize pos (p.cutOnce header).ini := by
      have hfits : Fits payloadSize (p.cutOnce header) pos := (fits_cutOnce hfar).2 h
      rw [cutOnce_macroblock hmode] at hfits ⊢
      simpa [Fits, hmode] using hfits
    exact ⟨_, by rw [cut_of_far hfar, cut_of_near hnear]⟩
  · exact ⟨p, cut_of_near hfar _⟩

theorem cut_mode (hmode : p.modeA) (hle : p.lastGOB ≤ p.ini) (h : Fits payloadSize p pos)
    (rounds : Nat) : ∃ q, cut payloadSize header pos (rounds + 2) p = some q := by
  by_cases hfar : Far payloadSize pos p.ini
  · have hfits : Fits payloadSize (p.cutOnce header) pos := (fits_cutOnce hfar).2 h
    rw [cut_of_far hfar]
    exact cut_macroblock (by rw [cutOnce_mode hmode hle]) hfits rounds
  · exact ⟨p, cut_of_near hfar _⟩

/-- A cut at the end of the group of blocks, the change of the mode, and a cut at the end of the
macroblock before. -/
def enough : Nat := 3

theorem cut_enough (h : Fits payloadSize p pos) :
    ∃ q, cut payloadSize header pos enough p = some q := by
  by_cases hfar : Far payloadSize pos p.ini
  · have hfits : Fits payloadSize (p.cutOnce header) pos := (fits_cutOnce hfar).2 h
    cases hmode : p.modeA with
    | false => exact cut_macroblock hmode h 2
    | true =>
      rcases Nat.lt_or_ge p.ini p.lastGOB with hlt | hle
      · rw [enough, cut_of_far hfar]
        by_cases hnear : Far payloadSize pos ((p.lastGOB + 1) % 2 ^ 32)
        · -- the end of the group of blocks is too far away, so that the mode changes
          have hwrap : p.lastGOB ≤ (p.lastGOB + 1) % 2 ^ 32 := by
            rw [Fits, if_pos ⟨hmode, hlt⟩] at h
            tauto
          rw [cutOnce_gob hmode hlt] at hfits ⊢
          refine cut_mode ?_ ?_ hfits 0
          · exact hmode
          · exact hwrap
        · rw [cutOnce_gob hmode hlt]
          exact ⟨_, cut_of_near hnear _⟩
      · exact cut_mode hmode hle h 1
  · exact ⟨p, cut_of_near hfar _⟩

theorem cut_mono (h : cut payloadSize header pos rounds p = some q) (more : Nat) :
    cut payloadSize header pos (rounds + more) p = some q := by
  induction rounds generalizing p with
  | zero =>
    rw [cut] at h
    split at h
    · cases h
    · rename_i hnear
      cases h
      exact cut_of_near hnear _
  | succ rounds ih =>
    rw [cut] at h
    rw [Nat.succ_add]
    split at h
    · rename_i hfar
      rw [cut_of_far hfar]
      exact ih h
    · rename_i hnear
      cases h
      exact cut_of_near hnear _

theorem cut_rounds (rounds : Nat) : cut payloadSize header pos rounds p = none ∨
    cut payloadSize header pos rounds p = cut payloadSize header pos enough p := by
  cases h : cut payloadSize header pos rounds p with
  | none => exact .inl rfl
  | some q =>
    right
    by_cases hfits : Fits payloadSize p pos
    · obtain ⟨q', hq'⟩ : ∃ q', cut payloadSize header pos enough p = some q' := cut_enough hfits
      have hmore := cut_mono h enough
      have hmore' := cut_mono hq' rounds
      rw [Nat.add_comm, hmore] at hmore'
      rw [hq', hmore']
    · rw [cut_of_not_fits hfits] at h
      cases h

end Cut

end Paquetizer

/-! ## When the packetization ends -/

open Paquetizer

section Fits

variable (payloadSize : Nat) (header : PictureHeader)

/-- The macroblocks of a row fit, as far as they are read. -/
def MacroblocksFit : Nat → BitReader → Paquetizer → Prop
  | 0, _, _ => True
  | x + 1, r, p =>
    match macroblock header.isIntra r with
    | .error _ => True
    | .ok (false, r) => MacroblocksFit x r p
    | .ok (true, r) => p.Fits payloadSize (position r) ∧
      ∀ q, p.cut payloadSize header (position r) enough = some q →
        MacroblocksFit x r { q with lastMB := position r }

/-- The macroblocks of the rows fit, as far as they are read. -/
def RowsFit : Nat → Bool → BitReader → Paquetizer → Prop
  | 0, _, _, _ => True
  | y + 1, first, r, p =>
    match rowHeader first r with
    | .error _ => True
    | .ok (true, _) => True
    | .ok (false, r) => MacroblocksFit payloadSize header ((header.width + 15) / 16) r p ∧
      ∀ r' q, macroblocks enough payloadSize header ((header.width + 15) / 16) r p = .ok (r', q) →
        RowsFit y false r' (q.endRow header (position r'))

end Fits

/-- Each coded macroblock that is read of a frame ends near enough to a place where the loop can
cut. -/
def FrameFits (payloadSize : Nat) (frame : List UInt8) : Prop :=
  match pictureHeader ⟨frame, 0, 0, 0⟩ with
  | .error _ => True
  | .ok (header, r) => RowsFit payloadSize header ((header.height + 15) / 16) true r {}

variable {e : Stop}

section Ends

variable {payloadSize : Nat} {header : PictureHeader}

theorem outcome_ne_running {packets : List Packet} : e.outcome packets ≠ .running := by
  cases e with
  | thrown e => exact Outcome.noConfusion
  | invalid => exact Outcome.noConfusion

section Macroblocks

variable {rounds x : Nat} {r r' : BitReader} {p : Paquetizer}

attribute [local simp] macroblocks in
theorem macroblocks_error (h : macroblock header.isIntra r = .error e) :
    macroblocks rounds payloadSize header (x + 1) r p = .error (e.outcome p.packets) := by
  simp [h]

theorem macroblocks_skipped (h : macroblock header.isIntra r = .ok (false, r')) :
    macroblocks rounds payloadSize header (x + 1) r p =
      macroblocks rounds payloadSize header x r' p := by
  rw [macroblocks, h]

theorem macroblocks_coded (h : macroblock header.isIntra r = .ok (true, r')) :
    macroblocks rounds payloadSize header (x + 1) r p =
      match p.cut payloadSize header (position r') rounds with
      | none => .error .running
      | some p => macroblocks rounds payloadSize header x r' { p with lastMB := position r' } := by
  rw [macroblocks, h]

theorem macroblocks_cut {q : Paquetizer} (h : macroblock header.isIntra r = .ok (true, r'))
    (hcut : p.cut payloadSize header (position r') rounds = some q) :
    macroblocks rounds payloadSize header (x + 1) r p =
      macroblocks rounds payloadSize header x r' { q with lastMB := position r' } := by
  rw [macroblocks_coded h, hcut]

theorem macroblocks_running (h : macroblock header.isIntra r = .ok (true, r'))
    (hcut : p.cut payloadSize header (position r') rounds = none) :
    macroblocks rounds payloadSize header (x + 1) r p = .error .running := by
  rw [macroblocks_coded h, hcut]

attribute [local simp] MacroblocksFit in
theorem macroblocksFit_error (h : macroblock header.isIntra r = .error e) :
    MacroblocksFit payloadSize header (x + 1) r p := by
  simp [h]

theorem macroblocksFit_skipped (h : macroblock header.isIntra r = .ok (false, r')) :
    MacroblocksFit payloadSize header (x + 1) r p ↔ MacroblocksFit payloadSize header x r' p := by
  rw [MacroblocksFit, h]

theorem macroblocksFit_coded (h : macroblock header.isIntra r = .ok (true, r')) :
    MacroblocksFit payloadSize header (x + 1) r p ↔ p.Fits payloadSize (position r') ∧
      ∀ q, p.cut payloadSize header (position r') enough = some q →
        MacroblocksFit payloadSize header x r' { q with lastMB := position r' } := by
  rw [MacroblocksFit, h]

end Macroblocks

/-- **A row.** It is left, with enough rounds for each loop, exactly if its macroblocks fit. -/
theorem macroblocks_running_iff (x : Nat) (r : BitReader) (p : Paquetizer) :
    macroblocks enough payloadSize header x r p = .error .running ↔
      ¬ MacroblocksFit payloadSize header x r p := by
  induction x generalizing r p with
  | zero => simp [macroblocks, MacroblocksFit]
  | succ x ih =>
    cases hmacroblock : macroblock header.isIntra r with
    | error e =>
      rw [macroblocks_error hmacroblock]
      simp [outcome_ne_running, macroblocksFit_error hmacroblock]
    | ok result =>
      obtain ⟨coded, r'⟩ := result
      cases coded with
      | false => rw [macroblocks_skipped hmacroblock, macroblocksFit_skipped hmacroblock, ih]
      | true =>
        rw [macroblocksFit_coded hmacroblock]
        by_cases hfits : p.Fits payloadSize (position r')
        · obtain ⟨q, hq⟩ : ∃ q, p.cut payloadSize header (position r') enough = some q :=
            cut_enough hfits
          rw [macroblocks_cut hmacroblock hq, ih]
          constructor
          · intro h hall
            exact h (hall.2 q hq)
          · intro h hq'
            refine h ⟨hfits, ?_⟩
            intro q' hcut
            rw [hq, Option.some.injEq] at hcut
            rwa [← hcut]
        · have hcut : p.cut payloadSize header (position r') enough = none :=
            cut_of_not_fits hfits enough
          rw [macroblocks_running hmacroblock hcut]
          exact iff_of_true rfl (fun h => hfits h.1)

theorem macroblocks_rounds (rounds x : Nat) (r : BitReader) (p : Paquetizer) :
    macroblocks rounds payloadSize header x r p = .error .running ∨
      macroblocks rounds payloadSize header x r p =
        macroblocks enough payloadSize header x r p := by
  induction x generalizing r p with
  | zero => exact .inr rfl
  | succ x ih =>
    cases hmacroblock : macroblock header.isIntra r with
    | error e =>
      rw [macroblocks_error hmacroblock, macroblocks_error hmacroblock]
      exact .inr rfl
    | ok result =>
      obtain ⟨coded, r'⟩ := result
      cases coded with
      | false =>
        rw [macroblocks_skipped hmacroblock, macroblocks_skipped hmacroblock]
        exact ih r' p
      | true =>
        have hrounds : p.cut payloadSize header (position r') rounds = none ∨
            p.cut payloadSize header (position r') rounds =
              p.cut payloadSize header (position r') enough := cut_rounds rounds
        rcases hrounds with hnone | heq
        · exact .inl (macroblocks_running hmacroblock hnone)
        · cases hcut : p.cut payloadSize header (position r') enough with
          | none => exact .inl (macroblocks_running hmacroblock (heq.trans hcut))
          | some q =>
            rw [macroblocks_cut hmacroblock (heq.trans hcut), macroblocks_cut hmacroblock hcut]
            exact ih r' _


section Rows

variable {rounds y : Nat} {first : Bool} {r r' : BitReader} {p : Paquetizer}

attribute [local simp] rows in
theorem rows_error (h : rowHeader first r = .error e) :
    rows rounds payloadSize header (y + 1) first r p = .error (e.outcome p.packets) := by
  simp [h]

theorem rows_end (h : rowHeader first r = .ok (true, r')) :
    rows rounds payloadSize header (y + 1) first r p = .error (.returned true p.packets) := by
  rw [rows, h]

theorem rows_row (h : rowHeader first r = .ok (false, r')) :
    rows rounds payloadSize header (y + 1) first r p =
      (macroblocks rounds payloadSize header ((header.width + 15) / 16) r' p).bind fun row =>
        rows rounds payloadSize header y false row.1 (row.2.endRow header (position row.1)) := by
  rw [rows, h]
  rfl

attribute [local simp] RowsFit in
theorem rowsFit_error (h : rowHeader first r = .error e) :
    RowsFit payloadSize header (y + 1) first r p := by
  simp [h]

theorem rowsFit_end (h : rowHeader first r = .ok (true, r')) :
    RowsFit payloadSize header (y + 1) first r p := by
  rw [RowsFit, h]
  trivial

theorem rowsFit_row (h : rowHeader first r = .ok (false, r')) :
    RowsFit payloadSize header (y + 1) first r p ↔
      MacroblocksFit payloadSize header ((header.width + 15) / 16) r' p ∧
        ∀ r'' q, macroblocks enough payloadSize header ((header.width + 15) / 16) r' p =
            .ok (r'', q) →
          RowsFit payloadSize header y false r'' (q.endRow header (position r'')) := by
  rw [RowsFit, h]

end Rows

/-- **The rows.** They are left, with enough rounds for each loop, exactly if they fit. -/
theorem rows_running_iff (y : Nat) (first : Bool) (r : BitReader) (p : Paquetizer) :
    rows enough payloadSize header y first r p = .error .running ↔
      ¬ RowsFit payloadSize header y first r p := by
  induction y generalizing first r p with
  | zero => simp [rows, RowsFit]
  | succ y ih =>
    cases hheader : rowHeader first r with
    | error e =>
      rw [rows_error hheader]
      simp [outcome_ne_running, rowsFit_error hheader]
    | ok result =>
      obtain ⟨last, r'⟩ := result
      cases last with
      | true =>
        rw [rows_end hheader]
        simp [rowsFit_end hheader]
      | false =>
        rw [rows_row hheader, rowsFit_row hheader]
        cases hrow : macroblocks enough payloadSize header ((header.width + 15) / 16) r' p with
        | error outcome =>
          rw [Except.bind, ← hrow, macroblocks_running_iff]
          constructor
          · intro h hall
            exact h hall.1
          · intro h hfits
            refine h ⟨hfits, ?_⟩
            intro r'' q hok
            rw [hrow] at hok
            cases hok
        | ok row =>
          obtain ⟨r'', q⟩ := row
          have hfits : MacroblocksFit payloadSize header ((header.width + 15) / 16) r' p := by
            by_contra hnot
            rw [← macroblocks_running_iff, hrow] at hnot
            cases hnot
          rw [Except.bind, ih]
          constructor
          · intro h hall
            exact h (hall.2 r'' q rfl)
          · intro h hrest
            refine h ⟨hfits, ?_⟩
            intro r₁ q₁ hok
            cases hok
            exact hrest

theorem rows_rounds (rounds y : Nat) (first : Bool) (r : BitReader) (p : Paquetizer) :
    rows rounds payloadSize header y first r p = .error .running ∨
      rows rounds payloadSize header y first r p =
        rows enough payloadSize header y first r p := by
  induction y generalizing first r p with
  | zero =>
    rw [rows, rows]
    exact .inr rfl
  | succ y ih =>
    cases hheader : rowHeader first r with
    | error e =>
      rw [rows_error hheader, rows_error hheader]
      exact .inr rfl
    | ok result =>
      obtain ⟨last, r'⟩ := result
      cases last with
      | true =>
        rw [rows_end hheader, rows_end hheader]
        exact .inr rfl
      | false =>
        rw [rows_row hheader, rows_row hheader]
        rcases macroblocks_rounds rounds ((header.width + 15) / 16) r' p with hrunning | heq
        · rw [hrunning]
          exact .inl rfl
        · rw [heq]
          cases macroblocks enough payloadSize header ((header.width + 15) / 16) r' p with
          | error outcome =>
            rw [Except.bind, Except.bind]
            exact .inr rfl
          | ok row =>
            rw [Except.bind, Except.bind]
            exact ih false row.1 _

end Ends

section Frame

variable {payloadSize : Nat} {frame : List UInt8}

section Equations

variable {rounds : Nat} {header : PictureHeader} {r : BitReader}

attribute [local simp] paquetizeFrame FrameFits

theorem paquetizeFrame_error (h : pictureHeader ⟨frame, 0, 0, 0⟩ = .error e) :
    paquetizeFrame rounds payloadSize frame = e.outcome [] := by
  simp [h]

theorem paquetizeFrame_picture (h : pictureHeader ⟨frame, 0, 0, 0⟩ = .ok (header, r)) :
    paquetizeFrame rounds payloadSize frame =
      finish header (rows rounds payloadSize header ((header.height + 15) / 16) true r {}) := by
  simp [h]

theorem frameFits_error (h : pictureHeader ⟨frame, 0, 0, 0⟩ = .error e) :
    FrameFits payloadSize frame := by
  simp [h]

theorem frameFits_picture (h : pictureHeader ⟨frame, 0, 0, 0⟩ = .ok (header, r)) :
    FrameFits payloadSize frame ↔
      RowsFit payloadSize header ((header.height + 15) / 16) true r {} := by
  simp [h]

end Equations

theorem paquetizeFrame_running_iff :
    paquetizeFrame enough payloadSize frame = .running ↔ ¬ FrameFits payloadSize frame := by
  cases hheader : pictureHeader ⟨frame, 0, 0, 0⟩ with
  | error e =>
    rw [paquetizeFrame_error hheader]
    simp [outcome_ne_running, frameFits_error hheader]
  | ok result =>
    obtain ⟨header, r⟩ := result
    rw [paquetizeFrame_picture hheader, frameFits_picture hheader, ← rows_running_iff]
    cases rows enough payloadSize header ((header.height + 15) / 16) true r {} with
    | error outcome => simp [finish]
    | ok row => simp [finish]

theorem paquetizeFrame_rounds (rounds : Nat) :
    paquetizeFrame rounds payloadSize frame = .running ∨
      paquetizeFrame rounds payloadSize frame = paquetizeFrame enough payloadSize frame := by
  cases hheader : pictureHeader ⟨frame, 0, 0, 0⟩ with
  | error e =>
    rw [paquetizeFrame_error hheader, paquetizeFrame_error hheader]
    exact .inr rfl
  | ok result =>
    obtain ⟨header, r⟩ := result
    rw [paquetizeFrame_picture hheader, paquetizeFrame_picture hheader]
    rcases rows_rounds rounds ((header.height + 15) / 16) true r {} with hrunning | heq
    · rw [hrunning]
      exact .inl rfl
    · rw [heq]
      exact .inr rfl

theorem terminates_iff_enough :
    Terminates payloadSize frame ↔ paquetizeFrame enough payloadSize frame ≠ .running := by
  constructor
  · rintro ⟨rounds, hrounds⟩
    rcases paquetizeFrame_rounds rounds with hrunning | heq
    · exact absurd hrunning hrounds
    · rwa [← heq]
  · intro h
    exact ⟨enough, h⟩

/-- **The packetization of a frame ends exactly if each of its coded macroblocks fits.** -/
theorem terminates_iff (payloadSize : Nat) (frame : List UInt8) :
    Terminates payloadSize frame ↔ FrameFits payloadSize frame := by
  rw [terminates_iff_enough, ne_eq, paquetizeFrame_running_iff, not_not]

/-- A frame whose data ends behind the escape of a coefficient: the loop never ends. -/
theorem not_terminates_escape : ¬ Terminates 1350
    [0, 0, 0x80, 2, 0x0c, 0x0a, 0x25, 0x80, 0x80, 0x80, 0x80, 7, 0] := by
  rw [terminates_iff_enough, not_not]
  decide +kernel

end Frame

end H263

end McuMediaServer
