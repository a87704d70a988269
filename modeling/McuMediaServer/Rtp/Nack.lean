import McuMediaServer.BitStream
import McuMediaServer.Rtcp.Fields
import McuMediaServer.Rtp.LostPackets

/-!
# Negative acknowledgements

The receiver scans its window and describes the missing packets as NACK fields, each with the number
of one missing packet and a mask of the 16 after it; the sender expands the fields again and resends
what they name. The scan remembers the packet that opened a field by its number alone, with zero for
*no field open*, so a packet whose number is a multiple of 2^16 cannot open one.

`getNacks_eq_scan` reduces the code to a scan over slots (`scan`), and `agrees_iff` says exactly
when the packets the sender is asked for are those missing in the window.
-/

namespace McuMediaServer

open ByteSeq StepRun

/-! ## The receiver -/

/-- The state of the scan: the fields made so far, the number that opened the current field, zero
when none is open, and how many bits of its mask are in the writer. Reference: `rtp.cpp:1565`. -/
structure NackScan where
  nacks : List NACKField
  /-- A 16-bit number. -/
  lost : Nat
  n : Nat
  writer : BitWritter

namespace RTPLostPackets

/-- `NACKField(WORD pid,BYTE blp[2])`. Reference: `rtp.h:1005`. -/
def nackField (lost : Nat) (mask : List UInt8) : NACKField :=
  ⟨.ofNat lost, .ofNat ((get2 mask 0).getD 0)⟩

/-- One slot of the window. Reference: `rtp.cpp:1572`. -/
def nackStep (w : RTPLostPackets) (s : NackScan) (i : Nat) : Except BitFault NackScan :=
  if s.lost ≠ 0 then do
    let writer ← s.writer.put 1 (if w.slot i = 0 then 1 else 0)
    let n := s.n + 1
    if n = 16 then
      let writer ← writer.flush
      return { nacks := s.nacks ++ [nackField s.lost writer.data]
               lost := 0
               n := 0
               writer := writer.reset }
    else
      return { s with n := n, writer := writer }
  else if w.slot i = 0 then
    return { s with lost := (w.first + i) % 2 ^ 16 }
  else
    return s

/-- The NACK fields for the missing packets of the window. Reference: `rtp.cpp:1563`,
`GetNacks`. -/
def getNacks (w : RTPLostPackets) : Except BitFault (List NACKField) := do
  let start : NackScan := { nacks := [], lost := 0, n := 0, writer := { data := [0, 0] } }
  let s ← (List.range w.len).foldlM w.nackStep start
  if s.lost ≠ 0 then
    let writer ← s.writer.put (16 - s.n) 0
    let writer ← writer.flush
    return s.nacks ++ [nackField s.lost writer.data]
  else
    return s.nacks

end RTPLostPackets

/-! ## The sender -/

/-- The packets one field asks for, as passed to `ReSendPacket`, which takes an `int`. Reference:
`rtpsession.cpp:1989`. -/
def NACKField.requests (field : NACKField) : List Nat :=
  field.pid.toNat ::
    ((List.range 16).filter fun i => (field.blp.toNat >>> (15 - i)) &&& 1 ≠ 0).map
      fun i => field.pid.toNat + i + 1

/-- The loop over the fields of a NACK packet, whose counter is a byte. Without a value the loop did
not end within the given number of turns. Reference: `rtpsession.cpp:1985`. -/
def processNack (fields : List NACKField) : Nat → UInt8 → Option (List Nat)
  | 0, _ => none
  | turns + 1, i =>
    match fields[i.toNat]? with
    | none => some []
    | some field => (processNack fields turns (i + 1)).map (field.requests ++ ·)

/-! ## The scan over slots -/

/-- The slots one NACK field describes: the one that opened it and how many after it. -/
structure NackRun where
  head : Nat
  covered : Nat
  deriving DecidableEq

/-- The runs the scan makes of `count` slots from slot `i` on, continuing the open run if there is
one. A run is opened by a missing slot, unless its number is zero. -/
def scan (miss zero : Nat → Bool) : Nat → Nat → Option NackRun → List NackRun
  | 0, _, open? => open?.toList
  | count + 1, i, some f =>
    if f.covered + 1 = 16 then
      { f with covered := 16 } :: scan miss zero count (i + 1) none
    else
      scan miss zero count (i + 1) (some { f with covered := f.covered + 1 })
  | count + 1, i, none =>
    scan miss zero count (i + 1) (if miss i && !zero i then some ⟨i, 0⟩ else none)

/-- The slots that open a field: the missing ones that are not among the 16 slots after an earlier
one. `skip` slots are still covered by the slot that opened the current field. -/
def heads (miss : Nat → Bool) : Nat → Nat → Nat → List Nat
  | 0, _, _ => []
  | count + 1, i, skip + 1 => heads miss count (i + 1) skip
  | count + 1, i, 0 =>
    if miss i then i :: heads miss count (i + 1) 16 else heads miss count (i + 1) 0

/-- The slots a run asks for. -/
def NackRun.Asks (miss : Nat → Bool) (f : NackRun) (t : Nat) : Prop :=
  t = f.head ∨ (f.head < t ∧ t ≤ f.head + f.covered ∧ miss t = true)

variable {open? : Option NackRun} {count i : Nat}

section Scan

variable {miss : Nat → Bool}

/-- What the scan keeps: an open run is opened by a missing slot and ends right before slot `i`. -/
def OpenAt (miss : Nat → Bool) (i : Nat) (f : NackRun) : Prop :=
  miss f.head = true ∧ i = f.head + 1 + f.covered ∧ f.covered < 16

theorem openAt_none {i : Nat} : ∀ f ∈ (none : Option NackRun), OpenAt miss i f := by
  simp

/-- The slots that the open run has yet to cover. -/
def remaining : Option NackRun → Nat
  | none => 0
  | some f => 16 - f.covered

theorem mem_scan {zero : Nat → Bool} (hopen : ∀ f ∈ open?, OpenAt miss i f)
    {g : NackRun} (hg : g ∈ scan miss zero count i open?) :
    miss g.head = true ∧ g.covered ≤ 16 ∧ g.head + g.covered < i + count ∧
      (i ≤ g.head ∨ ∃ f ∈ open?, g.head = f.head) := by
  induction count generalizing i open? with
  | zero =>
    obtain ⟨hmiss, hi, hlt⟩ := hopen g (Option.mem_toList.1 hg)
    exact ⟨hmiss, by omega, by omega, .inr ⟨g, Option.mem_toList.1 hg, rfl⟩⟩
  | succ count ih =>
    cases open? with
    | some f =>
      obtain ⟨hmiss, hi, hlt⟩ := hopen f rfl
      rw [scan] at hg
      split at hg
      case isTrue hfull =>
        rcases List.mem_cons.1 hg with rfl | hg
        · exact ⟨hmiss, le_rfl, by dsimp only; omega, .inr ⟨f, rfl, rfl⟩⟩
        · obtain ⟨h1, h2, h3, h4⟩ := ih openAt_none hg
          refine ⟨h1, h2, by omega, .inl ?_⟩
          rcases h4 with h4 | ⟨_, h4, -⟩
          · omega
          · cases h4
      case isFalse hnot =>
        have hopen' : ∀ f' ∈ some { f with covered := f.covered + 1 }, OpenAt miss (i + 1) f' := by
          rintro _ ⟨⟩
          exact ⟨hmiss, by dsimp only; omega, by dsimp only; omega⟩
        obtain ⟨h1, h2, h3, h4⟩ := ih hopen' hg
        refine ⟨h1, h2, by omega, ?_⟩
        rcases h4 with h4 | ⟨_, ⟨⟩, h4⟩
        · exact .inl (by omega)
        · exact .inr ⟨f, rfl, h4⟩
    | none =>
      rw [scan] at hg
      split at hg
      case isTrue hopens =>
        rw [Bool.and_eq_true] at hopens
        have hopen' : ∀ f' ∈ some (⟨i, 0⟩ : NackRun), OpenAt miss (i + 1) f' := by
          rintro _ ⟨⟩
          exact ⟨hopens.1, rfl, Nat.succ_pos 15⟩
        obtain ⟨h1, h2, h3, h4⟩ := ih hopen' hg
        refine ⟨h1, h2, by omega, .inl ?_⟩
        rcases h4 with h4 | ⟨_, ⟨⟩, h4⟩
        · omega
        · exact h4 ▸ le_rfl
      case isFalse =>
        obtain ⟨h1, h2, h3, h4⟩ := ih openAt_none hg
        refine ⟨h1, h2, by omega, .inl ?_⟩
        rcases h4 with h4 | ⟨_, h4, -⟩
        · omega
        · cases h4

theorem scan_complete (zero : Nat → Bool) (hopen : ∀ f ∈ open?, OpenAt miss i f)
    (hheads : ∀ t ∈ heads miss count i (remaining open?), zero t = false) :
    (∀ f ∈ open?, ∀ t, f.Asks miss t → ∃ g ∈ scan miss zero count i open?, g.Asks miss t) ∧
      (∀ t, i ≤ t → t < i + count → miss t = true →
        ∃ g ∈ scan miss zero count i open?, g.Asks miss t) ∧
      (scan miss zero count i open?).length =
        (heads miss count i (remaining open?)).length + open?.toList.length := by
  induction count generalizing i open? with
  | zero =>
    refine ⟨fun f hf t ht => ⟨f, Option.mem_toList.2 hf, ht⟩, fun t _ _ => by omega, ?_⟩
    simp [scan, heads]
  | succ count ih =>
    cases open? with
    | some f =>
      obtain ⟨hmiss, hi, hlt⟩ := hopen f rfl
      have hrem : remaining (some f) = (15 - f.covered) + 1 := by
        simp only [remaining]; omega
      rw [hrem, heads] at hheads
      rw [scan, hrem, heads]
      split
      case isTrue hfull =>
        rw [show 15 - f.covered = remaining none by simp only [remaining]; omega] at hheads ⊢
        obtain ⟨-, hrest, hlen⟩ := ih openAt_none hheads
        have hnow : ∀ t, f.Asks miss t ∨ (t = i ∧ miss t = true) →
            NackRun.Asks miss { f with covered := 16 } t := by
          rintro t ((h | h) | ⟨rfl, h⟩)
          · exact .inl h
          · exact .inr ⟨h.1, by dsimp only; omega, h.2.2⟩
          · exact .inr ⟨by dsimp only; omega, by dsimp only; omega, h⟩
        refine ⟨?_, fun t hge hlt' ht => ?_, ?_⟩
        · rintro _ ⟨⟩ t ht
          exact ⟨_, List.mem_cons_self, hnow t (.inl ht)⟩
        · rcases Nat.lt_or_ge i t with h | h
          · obtain ⟨g, hg, hasks⟩ := hrest t h (by omega) ht
            exact ⟨g, List.mem_cons_of_mem _ hg, hasks⟩
          · exact ⟨_, List.mem_cons_self, hnow t (.inr ⟨by omega, ht⟩)⟩
        · simp only [List.length_cons, hlen, Option.toList, List.length_nil]
      case isFalse hnot =>
        have hopen' : ∀ f' ∈ some { f with covered := f.covered + 1 }, OpenAt miss (i + 1) f' := by
          rintro _ ⟨⟩
          exact ⟨hmiss, by dsimp only; omega, by dsimp only; omega⟩
        have hrem' : 15 - f.covered = remaining (some { f with covered := f.covered + 1 }) := by
          simp only [remaining]; omega
        rw [hrem'] at hheads ⊢
        obtain ⟨hold, hrest, hlen⟩ := ih hopen' hheads
        refine ⟨?_, fun t hge hlt' ht => ?_, hlen⟩
        · rintro _ ⟨⟩ t ht
          refine hold _ rfl t ?_
          exact ht.imp id fun h => ⟨h.1, by dsimp only; omega, h.2.2⟩
        · rcases Nat.lt_or_ge i t with h | h
          · exact hrest t h (by omega) ht
          · exact hold _ rfl t (.inr ⟨by dsimp only; omega, by dsimp only; omega, ht⟩)
    | none =>
      simp only [remaining, heads] at hheads
      rw [scan, show remaining none = 0 from rfl, heads]
      split at hheads
      case isTrue hm =>
        have hz := hheads i List.mem_cons_self
        have hopen' : ∀ f' ∈ some (⟨i, 0⟩ : NackRun), OpenAt miss (i + 1) f' := by
          rintro _ ⟨⟩
          exact ⟨hm, rfl, Nat.succ_pos 15⟩
        rw [if_pos (by rw [hm, hz]; rfl), if_pos hm]
        obtain ⟨hold, hrest, hlen⟩ := ih hopen'
          fun t ht => hheads t (List.mem_cons_of_mem _ ht)
        refine ⟨by simp, fun t hge hlt ht => ?_, ?_⟩
        · rcases Nat.lt_or_ge i t with h | h
          · exact hrest t h (by omega) ht
          · exact hold _ rfl t (.inl (by dsimp only; omega))
        · rw [hlen]
          rfl
      case isFalse hm =>
        rw [if_neg (by simp [hm]), if_neg hm]
        obtain ⟨-, hrest, hlen⟩ := ih openAt_none hheads
        refine ⟨by simp, fun t hge hlt ht => ?_, hlen⟩
        rcases Nat.lt_or_ge i t with h | h
        · exact hrest t h (by omega) ht
        · obtain rfl : t = i := by omega
          exact absurd ht hm

theorem scan_incomplete (zero : Nat → Bool) (hopen : ∀ f ∈ open?, OpenAt miss i f)
    (hheads : ∃ t ∈ heads miss count i (remaining open?), zero t = true) :
    ∃ t, i ≤ t ∧ t < i + count ∧ miss t = true ∧
      ∀ g ∈ scan miss zero count i open?, ¬ g.Asks miss t := by
  induction count generalizing i open? with
  | zero =>
    obtain ⟨t, ht, -⟩ := hheads
    simp [heads] at ht
  | succ count ih =>
    cases open? with
    | some f =>
      obtain ⟨hmiss, hi, hlt⟩ := hopen f rfl
      have hrem : remaining (some f) = (15 - f.covered) + 1 := by
        simp only [remaining]; omega
      rw [hrem, heads] at hheads
      rw [scan]
      split
      case isTrue hfull =>
        rw [show 15 - f.covered = remaining none by simp only [remaining]; omega] at hheads
        obtain ⟨t, hge, hlt', ht, hno⟩ := ih openAt_none hheads
        refine ⟨t, by omega, by omega, ht, fun g hg => ?_⟩
        rcases List.mem_cons.1 hg with rfl | hg
        · rintro (h | ⟨-, h, -⟩)
          · dsimp only at h; omega
          · dsimp only at h; omega
        · exact hno g hg
      case isFalse hnot =>
        have hopen' : ∀ f' ∈ some { f with covered := f.covered + 1 }, OpenAt miss (i + 1) f' := by
          rintro _ ⟨⟩
          exact ⟨hmiss, by dsimp only; omega, by dsimp only; omega⟩
        have hrem' : 15 - f.covered = remaining (some { f with covered := f.covered + 1 }) := by
          simp only [remaining]; omega
        rw [hrem'] at hheads
        obtain ⟨t, hge, hlt', ht, hno⟩ := ih hopen' hheads
        exact ⟨t, by omega, by omega, ht, hno⟩
    | none =>
      simp only [remaining, heads] at hheads
      rw [scan]
      split at hheads
      case isTrue hm =>
        cases hz : zero i with
        | true =>
          -- slot `i` is passed over, and no later run reaches back to it
          rw [if_neg (by simp)]
          refine ⟨i, le_rfl, by omega, hm, fun g hg hasks => ?_⟩
          obtain ⟨-, -, -, h | ⟨_, h, -⟩⟩ := mem_scan openAt_none hg
          · rcases hasks with hasks | ⟨hasks, -, -⟩ <;> omega
          · cases h
        | false =>
          rw [if_pos (by rw [hm]; rfl)]
          have hopen' : ∀ f' ∈ some (⟨i, 0⟩ : NackRun), OpenAt miss (i + 1) f' := by
            rintro _ ⟨⟩
            exact ⟨hm, rfl, Nat.succ_pos 15⟩
          obtain ⟨t, ht, hzt⟩ := hheads
          have htail : t ∈ heads miss count (i + 1) (remaining (some ⟨i, 0⟩)) := by
            rcases List.mem_cons.1 ht with rfl | ht
            · rw [hz] at hzt; cases hzt
            · exact ht
          obtain ⟨t, hge, hlt', ht, hno⟩ := ih hopen' ⟨t, htail, hzt⟩
          exact ⟨t, by omega, by omega, ht, hno⟩
      case isFalse hm =>
        rw [if_neg (by simp [hm])]
        obtain ⟨t, hge, hlt', ht, hno⟩ := ih openAt_none hheads
        exact ⟨t, by omega, by omega, ht, hno⟩

end Scan

/-! ## The code makes the runs of the scan -/

namespace RTPLostPackets

/-- Slot `i` is missing. -/
def missing (w : RTPLostPackets) (i : Nat) : Bool :=
  w.slot i = 0

/-- The number of slot `i` on the wire is zero. -/
def zeroNumber (w : RTPLostPackets) (i : Nat) : Bool :=
  (w.first + i) % 2 ^ 16 = 0

/-- The runs of missing packets of the window. -/
def nackRuns (w : RTPLostPackets) : List NackRun :=
  scan w.missing w.zeroNumber w.len 0 none

/-- The slots that open a NACK field when the window is scanned: the missing slots that are not
among the 16 slots after an earlier one. -/
def nackHeads (w : RTPLostPackets) : List Nat :=
  heads w.missing w.len 0 0

/-- The mask bits of a run, so far. -/
def bitsOf (w : RTPLostPackets) (f : NackRun) : List Bool :=
  (List.range f.covered).map fun j => w.missing (f.head + 1 + j)

/-- The field of a run, its mask padded with zeros. -/
def fieldOf (w : RTPLostPackets) (f : NackRun) : NACKField :=
  ⟨.ofNat (w.first + f.head),
    .ofNat (ofBits (w.bitsOf f ++ List.replicate (16 - f.covered) false))⟩

/-- A writer over a two-byte mask that holds the given bits. -/
def maskWriter (mask : List UInt8) (bits : List Bool) : BitWritter where
  data := mask
  cache := ofBits bits
  cached := bits.length

section ByteWriter

variable {mask : List UInt8} {bits : List Bool}

theorem put_maskWriter (b : Bool) (h : bits.length < 16) :
    (maskWriter mask bits).put 1 b.toNat = .ok (maskWriter mask (bits ++ [b])) := by
  rw [BitWritter.put_of_le _ Nat.one_pos (by decide) (show 1 + bits.length ≤ 32 by omega)
    (ofBits_lt bits)]
  have hb : b.toNat % 2 = b.toNat := Nat.mod_eq_of_lt (by have := b.toNat_le; omega)
  simp only [maskWriter, ofBits_concat, List.length_append, List.length_singleton, hb,
    Nat.pow_one, Nat.mul_comm]

variable (mask bits) in
theorem pad_maskWriter (h : bits.length < 16) :
    (maskWriter mask bits).put (16 - bits.length) 0 =
      .ok (maskWriter mask (bits ++ List.replicate (16 - bits.length) false)) := by
  rw [BitWritter.put_of_le _ (by omega) (by omega)
    (show 16 - bits.length + bits.length ≤ 32 by omega) (ofBits_lt bits)]
  simp only [maskWriter, ofBits_append_replicate, List.length_append, List.length_replicate,
    Nat.zero_mod, Nat.add_zero]

theorem flush_maskWriter (hmask : mask.length = 2) (h : bits.length = 16) :
    ∃ w, (maskWriter mask bits).flush = .ok w ∧
      w.reset = maskWriter (be2 (ofBits bits)) [] ∧
      ∀ lost, nackField lost w.data = ⟨.ofNat lost, .ofNat (ofBits bits)⟩ := by
  refine ⟨_, BitWritter.flush_sixteen h hmask, ?_, fun lost => ?_⟩
  · simp [BitWritter.reset, BitWritter.write, maskWriter, hmask]
  · have hlt := ofBits_lt bits
    rw [h] at hlt
    have hdata : (BitWritter.write (maskWriter mask bits) (be2 (ofBits bits))).data =
        be2 (ofBits bits) ++ [] := by
      simp [BitWritter.write, maskWriter, hmask]
    simp only [nackField, maskWriter] at hdata ⊢
    rw [hdata, get2_be2, Nat.mod_eq_of_lt hlt, Option.getD_some]

end ByteWriter

/-- The state of the code at slot `i`, when the scan has made the runs `done` and the open run is
`open?`. -/
def Scanned (w : RTPLostPackets) (s : NackScan) (i : Nat) (done : List NackRun) :
    Option NackRun → Prop
  | none =>
    s.nacks = done.map w.fieldOf ∧ s.lost = 0 ∧ s.n = 0 ∧
      ∃ mask, mask.length = 2 ∧ s.writer = maskWriter mask []
  | some f =>
    s.nacks = done.map w.fieldOf ∧ s.lost = (w.first + f.head) % 2 ^ 16 ∧ s.lost ≠ 0 ∧
      s.n = f.covered ∧ i = f.head + 1 + f.covered ∧ f.covered < 16 ∧
      ∃ mask, mask.length = 2 ∧ s.writer = maskWriter mask (w.bitsOf f)

theorem nackField_eq (w : RTPLostPackets) (f : NackRun) {lost : Nat}
    (hlost : lost = (w.first + f.head) % 2 ^ 16) (hfull : f.covered = 16) :
    (⟨.ofNat lost, .ofNat (ofBits (w.bitsOf f))⟩ : NACKField) = w.fieldOf f := by
  rw [fieldOf, hlost, hfull, Nat.sub_self, List.replicate_zero, List.append_nil]
  congr 1
  exact UInt16.toNat.inj (by simp)

/-- **Step lemma.** One slot takes the code to the state the scan goes to. -/
theorem nackStep_scanned (w : RTPLostPackets) {s : NackScan} {i : Nat} {done : List NackRun}
    {open? : Option NackRun} (h : w.Scanned s i done open?) (count : Nat) :
    ∃ s' done' open?', w.nackStep s i = .ok s' ∧ w.Scanned s' (i + 1) done' open?' ∧
      done ++ scan w.missing w.zeroNumber (count + 1) i open? =
        done' ++ scan w.missing w.zeroNumber count (i + 1) open?' := by
  cases open? with
  | none =>
    obtain ⟨hnacks, hlost, hn, hwriter⟩ := h
    rw [nackStep, if_neg (by simp [hlost]), scan]
    cases hm : w.missing i with
    | false =>
      rw [if_neg (by simpa [missing] using hm), if_neg (by simp)]
      exact ⟨s, done, none, rfl, ⟨hnacks, hlost, hn, hwriter⟩, rfl⟩
    | true =>
      rw [if_pos (by simpa [missing] using hm)]
      cases hz : w.zeroNumber i with
      | true =>
        -- the number of the packet is the sentinel, so no field is opened
        rw [if_neg (by simp)]
        have hzero : (w.first + i) % 2 ^ 16 = 0 := by simpa [zeroNumber] using hz
        exact ⟨_, done, none, rfl, ⟨hnacks, hzero, hn, hwriter⟩, rfl⟩
      | false =>
        rw [if_pos (by simp)]
        have hnum : (w.first + i) % 2 ^ 16 ≠ 0 := by simpa [zeroNumber] using hz
        exact ⟨_, done, some ⟨i, 0⟩, rfl,
          ⟨hnacks, rfl, hnum, hn, rfl, Nat.succ_pos 15, hwriter⟩, rfl⟩
  | some f =>
    obtain ⟨hnacks, hlost, hne, hn, hi, hlt, mask, hmask, hwriter⟩ := h
    have hlen : (w.bitsOf f).length = f.covered := by simp [bitsOf]
    have hbit : (if w.slot i = 0 then 1 else 0) = (w.missing i).toNat := by
      simp only [missing]
      split <;> simp_all
    have hbits : w.bitsOf f ++ [w.missing i] = w.bitsOf { f with covered := f.covered + 1 } := by
      simp [bitsOf, List.range_succ, hi]
    rw [nackStep, if_pos hne, hwriter, hbit, put_maskWriter _ (by omega), hbits, hn, scan]
    simp only [bind, Except.bind]
    split
    case isTrue hfull =>
      have hfull' : (w.bitsOf { f with covered := f.covered + 1 }).length = 16 := by
        rw [← hbits, List.length_append, hlen, List.length_singleton, hfull]
      obtain ⟨writer, hflush, hreset, hfield⟩ := flush_maskWriter hmask hfull'
      refine ⟨_, done ++ [{ f with covered := f.covered + 1 }], none, by rw [hflush]; rfl,
        ⟨?_, rfl, rfl, _, length_be2 _, hreset⟩, by simp [hfull]⟩
      rw [List.map_append, hnacks, List.map_singleton, hfield,
        nackField_eq w { f with covered := f.covered + 1 } hlost hfull]
    case isFalse hnot =>
      exact ⟨_, done, some { f with covered := f.covered + 1 }, rfl,
        ⟨hnacks, hlost, hne, rfl, by dsimp only; omega, by dsimp only; omega, mask, hmask, rfl⟩,
        rfl⟩

/-- **Run lemma.** The loop over the slots makes the runs of the scan. -/
theorem foldlM_nackStep_scanned (w : RTPLostPackets) (count : Nat) :
    ∀ {s : NackScan} {i : Nat} {done : List NackRun} {open? : Option NackRun},
      w.Scanned s i done open? →
      ∃ s' done' open?', (List.range' i count).foldlM w.nackStep s = .ok s' ∧
        w.Scanned s' (i + count) done' open?' ∧
        done ++ scan w.missing w.zeroNumber count i open? = done' ++ open?'.toList := by
  induction count with
  | zero => exact fun {s i done open?} h => ⟨s, done, open?, rfl, h, rfl⟩
  | succ count ih =>
    intro s i done open? h
    obtain ⟨s₁, done₁, open₁, hstep, h₁, hscan₁⟩ := nackStep_scanned w h count
    obtain ⟨s₂, done₂, open₂, hfold, h₂, hscan₂⟩ := ih h₁
    refine ⟨s₂, done₂, open₂, ?_, by rwa [show i + (count + 1) = i + 1 + count by omega],
      hscan₁.trans hscan₂⟩
    rw [List.range'_succ, List.foldlM_cons, hstep]
    exact hfold

/-- **The code makes the fields of the scan's runs.** -/
theorem getNacks_eq_scan (w : RTPLostPackets) : w.getNacks = .ok (w.nackRuns.map w.fieldOf) := by
  have hstart : w.Scanned { nacks := [], lost := 0, n := 0, writer := { data := [0, 0] } } 0 []
      none := ⟨rfl, rfl, rfl, [0, 0], rfl, rfl⟩
  obtain ⟨s, done, open?, hfold, hs, hscan⟩ := foldlM_nackStep_scanned w w.len hstart
  rw [List.nil_append] at hscan
  rw [getNacks, List.range_eq_range', hfold, nackRuns, hscan]
  simp only [bind, Except.bind]
  cases open? with
  | none =>
    obtain ⟨hnacks, hlost, -, -⟩ := hs
    rw [if_neg (by simp [hlost]), hnacks]
    simp [pure, Except.pure]
  | some f =>
    obtain ⟨hnacks, hlost, hne, hn, hi, hlt, mask, hmask, hwriter⟩ := hs
    have hlen : (w.bitsOf f).length = f.covered := by simp [bitsOf]
    have hpad := pad_maskWriter mask (w.bitsOf f) (by omega)
    rw [hlen] at hpad
    have hfull : (w.bitsOf f ++ List.replicate (16 - f.covered) false).length = 16 := by
      rw [List.length_append, hlen, List.length_replicate]; omega
    obtain ⟨writer, hflush, -, hfield⟩ := flush_maskWriter hmask hfull
    rw [if_pos hne, hn, hwriter, hpad]
    simp only [hflush]
    rw [hfield, hnacks, hlost, Option.toList, List.map_append, List.map_singleton, fieldOf]
    simp only [pure, Except.pure, Except.ok.injEq, List.append_cancel_left_eq, List.cons.injEq,
      and_true, NACKField.mk.injEq]
    exact UInt16.toNat.inj (by simp)

/-! ## The agreement -/

/-- A field as the sender gets it. Reference: `rtp.h:1010`, `rtp.h:1017`. -/
def sendField (f : NACKField) : Option NACKField := do
  let (size, bytes) ← f.serialize (List.replicate f.getSize 0)
  let parsed ← NACKField.parse bytes size
  parsed.map Prod.fst

theorem sendField_eq (f : NACKField) : sendField f = some f := by
  have hlen : (List.replicate f.getSize (0 : UInt8)).length = f.bytes.length := by
    rw [List.length_replicate, f.length_bytes]
  have hwrite := f.encodes_serialize _ hlen.ge
  rw [List.drop_eq_nil_of_le hlen.le, f.length_bytes] at hwrite
  have hparse := f.parse_bytes [] (Nat.le_refl _)
  simp only [sendField, hwrite, hparse, Option.bind_eq_bind, Option.bind_some, Option.map_some]

/-- The packets the sender resends for the NACK fields of the window, as numbers on the wire, are
exactly those missing in the window. -/
def NackAgreement (w : RTPLostPackets) : Prop :=
  ∃ sent received requested turns,
    w.getNacks = .ok sent ∧ sent.mapM sendField = some received ∧
      processNack received turns 0 = some requested ∧
      ∀ seq < 2 ^ 16, seq ∈ requested.map (· % 2 ^ 16) ↔
        ∃ i < w.len, w.slot i = 0 ∧ (w.first + i) % 2 ^ 16 = seq

section Sender

variable (w : RTPLostPackets)

/-- Bit `i` of the mask, counted from the left, says whether the packet `i + 1` after the first one
is missing, if the run covers it. -/
theorem mask_fieldOf {f : NackRun} (hf : f.covered ≤ 16) {i : Nat} (hi : i < 16) :
    ((w.fieldOf f).blp.toNat >>> (15 - i)) &&& 1 ≠ 0 ↔
      i < f.covered ∧ w.missing (f.head + 1 + i) = true := by
  have hlen : (w.bitsOf f ++ List.replicate (16 - f.covered) false).length = 16 := by
    simp only [bitsOf, List.length_append, List.length_map, List.length_range,
      List.length_replicate]
    omega
  have hlt := ofBits_lt (w.bitsOf f ++ List.replicate (16 - f.covered) false)
  rw [hlen] at hlt
  have hblp : (w.fieldOf f).blp.toNat =
      ofBits (w.bitsOf f ++ List.replicate (16 - f.covered) false) := by
    rw [fieldOf, UInt16.toNat_ofNat', Nat.mod_eq_of_lt hlt]
  have htest : ∀ n m : Nat, (n >>> m) &&& 1 ≠ 0 ↔ n.testBit m = true := by
    intro n m
    simp [Nat.testBit, Nat.and_comm]
  rw [htest, hblp, testBit_ofBits, List.getElem?_reverse (by omega), hlen,
    show 16 - 1 - (15 - i) = i by omega]
  rcases Nat.lt_or_ge i f.covered with h | h
  · rw [List.getElem?_append_left (by simpa [bitsOf] using h)]
    simp [bitsOf, h]
  · rw [List.getElem?_append_right (by simpa [bitsOf] using h), List.getElem?_replicate]
    split <;> simp [Nat.not_lt.2 h]

theorem mem_requests_iff {f : NackRun} (hf : f.covered ≤ 16) (seq : Nat) :
    seq ∈ (w.fieldOf f).requests.map (· % 2 ^ 16) ↔
      ∃ t, f.Asks w.missing t ∧ (w.first + t) % 2 ^ 16 = seq := by
  have hpid : (w.fieldOf f).pid.toNat = (w.first + f.head) % 2 ^ 16 := by
    rw [fieldOf, UInt16.toNat_ofNat']
  simp only [NACKField.requests, List.map_cons, List.map_map, List.mem_cons, List.mem_map,
    List.mem_filter, List.mem_range, decide_eq_true_eq, Function.comp_apply, hpid]
  constructor
  · rintro (rfl | ⟨i, ⟨hi, hmask⟩, rfl⟩)
    · exact ⟨f.head, .inl rfl, by omega⟩
    · obtain ⟨hcov, hmiss⟩ := (w.mask_fieldOf hf hi).1 hmask
      exact ⟨f.head + 1 + i, .inr ⟨by omega, by omega, hmiss⟩, by omega⟩
  · rintro ⟨t, rfl | ⟨hgt, hle, hmiss⟩, rfl⟩
    · exact .inl (by omega)
    · obtain ⟨i, rfl⟩ : ∃ i, t = f.head + 1 + i := ⟨t - f.head - 1, by omega⟩
      exact .inr ⟨i, ⟨by omega, (w.mask_fieldOf hf (by omega)).2 ⟨by omega, hmiss⟩⟩, by omega⟩

end Sender

variable {fields : List NACKField}

theorem processNack_eq_flatMap (hlen : fields.length < 2 ^ 8) :
    ∀ turns i, i ≤ fields.length → fields.length - i < turns →
      processNack fields turns (.ofNat i) = some ((fields.drop i).flatMap NACKField.requests) := by
  intro turns
  induction turns with
  | zero => exact fun i _ h => absurd h (Nat.not_lt_zero _)
  | succ turns ih =>
    intro i hi hturns
    have hnat : (UInt8.ofNat i).toNat = i := by
      rw [UInt8.toNat_ofNat', Nat.mod_eq_of_lt (by omega)]
    rw [processNack, hnat]
    rcases Nat.lt_or_ge i fields.length with h | h
    · have hsucc : UInt8.ofNat i + 1 = UInt8.ofNat (i + 1) := by simp
      rw [List.getElem?_eq_getElem h, hsucc]
      simp only [ih (i + 1) h (by omega), Option.map_some]
      rw [List.drop_eq_getElem_cons h, List.flatMap_cons]
    · simp [List.getElem?_eq_none h, List.drop_eq_nil_of_le h]

theorem processNack_eq_none (hlen : 2 ^ 8 ≤ fields.length) :
    ∀ turns i, processNack fields turns i = none := by
  intro turns
  induction turns with
  | zero => exact fun _ => rfl
  | succ turns ih =>
    intro i
    have hi : i.toNat < fields.length := Nat.lt_of_lt_of_le i.toNat_lt hlen
    rw [processNack, List.getElem?_eq_getElem hi]
    simp [ih]

theorem mem_of_processNack : ∀ {turns i requested}, processNack fields turns i = some requested →
      ∀ r ∈ requested, ∃ f ∈ fields, r ∈ f.requests := by
  intro turns
  induction turns with
  | zero => exact fun {i requested} h => nomatch h
  | succ turns ih =>
    intro i requested h r hr
    rw [processNack] at h
    split at h
    case h_1 =>
      cases h
      cases hr
    case h_2 field hfield =>
      obtain ⟨rest, hrest, rfl⟩ := Option.map_eq_some_iff.1 h
      rcases List.mem_append.1 hr with hr | hr
      · exact ⟨field, List.mem_of_getElem? hfield, hr⟩
      · exact ih hrest r hr

/-- **NACK agreement.** The sender is asked for exactly the packets missing in the window if and
only if no slot that opens a field has a number divisible by 2^16, and at most 255 slots open a
field. -/
theorem nackAgreement_iff (w : RTPLostPackets) :
    w.NackAgreement ↔
      (∀ i ∈ w.nackHeads, (w.first + i) % 2 ^ 16 ≠ 0) ∧ w.nackHeads.length < 2 ^ 8 := by
  have hmapM : ∀ fields : List NACKField, fields.mapM sendField = some fields := by
    intro fields
    induction fields with
    | nil => rfl
    | cons f fields ih => simp [List.mapM_cons, sendField_eq, ih]
  have hzero : ∀ i, w.zeroNumber i = false ↔ (w.first + i) % 2 ^ 16 ≠ 0 := by
    intro i
    simp [zeroNumber]
  have hsize := w.size_lt
  have hwlen := w.len_le
  -- numbers tell the slots of the window apart
  have hinj : ∀ i < w.len, ∀ j < w.len, (w.first + i) % 2 ^ 16 = (w.first + j) % 2 ^ 16 →
      i = j := by
    intro i hi j hj h
    omega
  have hruns : ∀ g ∈ w.nackRuns, w.missing g.head = true ∧ g.covered ≤ 16 ∧
      g.head + g.covered < w.len := by
    intro g hg
    obtain ⟨h1, h2, h3, -⟩ := mem_scan openAt_none hg
    exact ⟨h1, h2, by omega⟩
  by_cases hall : ∀ i ∈ w.nackHeads, (w.first + i) % 2 ^ 16 ≠ 0
  · obtain ⟨-, hcover, hlength⟩ := scan_complete w.zeroNumber openAt_none
      fun t ht => (hzero t).2 (hall t ht)
    have hcount : (w.nackRuns.map w.fieldOf).length = w.nackHeads.length := by
      rw [List.length_map, nackRuns, hlength]
      rfl
    refine ⟨?_, ?_⟩
    · rintro ⟨sent, received, requested, turns, hsent, hreceived, hprocess, -⟩
      refine ⟨hall, Nat.lt_of_not_le fun hmany => ?_⟩
      rw [getNacks_eq_scan] at hsent
      cases hsent
      rw [hmapM] at hreceived
      cases hreceived
      rw [processNack_eq_none (by omega)] at hprocess
      cases hprocess
    · rintro ⟨-, hfew⟩
      refine ⟨_, _, _, _, w.getNacks_eq_scan, hmapM _,
        processNack_eq_flatMap (by omega) _ 0 (Nat.zero_le _) (Nat.lt_succ_self _),
        fun seq hseq => ?_⟩
      rw [List.drop_zero, List.map_flatMap, List.mem_flatMap]
      constructor
      · rintro ⟨_, hf, hmem⟩
        obtain ⟨g, hg, rfl⟩ := List.mem_map.1 hf
        obtain ⟨hhead, hcov, hend⟩ := hruns g hg
        obtain ⟨t, ht, hnum⟩ := (w.mem_requests_iff hcov seq).1 hmem
        rcases ht with rfl | ⟨-, hle, hmiss⟩
        · exact ⟨g.head, by omega, by simpa [missing] using hhead, hnum⟩
        · exact ⟨t, by omega, by simpa [missing] using hmiss, hnum⟩
      · rintro ⟨t, ht, hmiss, hnum⟩
        obtain ⟨g, hg, hasks⟩ := hcover t (Nat.zero_le _) (by omega)
          (by simpa [missing] using hmiss)
        exact ⟨_, List.mem_map_of_mem hg,
          (w.mem_requests_iff (hruns g hg).2.1 seq).2 ⟨t, hasks, hnum⟩⟩
  · refine ⟨?_, fun h => absurd h.1 hall⟩
    rintro ⟨sent, received, requested, turns, hsent, hreceived, hprocess, hagree⟩
    exfalso
    rw [getNacks_eq_scan] at hsent
    cases hsent
    rw [hmapM] at hreceived
    cases hreceived
    push Not at hall
    obtain ⟨t, ht, hzt⟩ := hall
    obtain ⟨t, -, hlt, hmiss, hno⟩ := scan_incomplete w.zeroNumber openAt_none
      ⟨t, ht, by simpa [zeroNumber] using hzt⟩
    -- the number of slot `t` is missing in the window, so some run should ask for it
    obtain ⟨r, hr, hnum⟩ := List.mem_map.1 ((hagree _ (Nat.mod_lt _ (by decide))).2
      ⟨t, by omega, by simpa [missing] using hmiss, rfl⟩)
    obtain ⟨_, hf, hmem⟩ := mem_of_processNack hprocess r hr
    obtain ⟨g, hg, rfl⟩ := List.mem_map.1 hf
    obtain ⟨-, hcov, hend⟩ := hruns g hg
    obtain ⟨t', hasks, hnum'⟩ := (w.mem_requests_iff hcov _).1 (List.mem_map_of_mem hmem)
    obtain rfl : t' = t := by
      refine hinj t' ?_ t (by omega) (hnum'.trans hnum)
      rcases hasks with rfl | ⟨-, h, -⟩ <;> omega
    exact hno g hg hasks

section Runs

variable (size : Nat) (hpos : 0 < size) (hlt : size < 2 ^ 16)

/-- The window after a run of packets. -/
def afterPackets (ps : List RTPTimedPacket) : RTPLostPackets :=
  run (fun w p => (w.addPacket p).1) (reset size hpos hlt) ps

/-- **NACK agreement over runs.** After every run of packets, the sender resends exactly the packets
missing in the window if and only if no slot that opens a field has a number divisible by 2^16, and
at most 255 slots open a field. -/
theorem nackAgreement_run_iff (ps : List RTPTimedPacket) :
    (afterPackets size hpos hlt ps).NackAgreement ↔
      (∀ i ∈ (afterPackets size hpos hlt ps).nackHeads,
        ((afterPackets size hpos hlt ps).first + i) % 2 ^ 16 ≠ 0) ∧
        (afterPackets size hpos hlt ps).nackHeads.length < 2 ^ 8 :=
  nackAgreement_iff _

end Runs

/-- After packets 9, 12 and 14, the sender resends 10, 11 and 13. -/
theorem nackAgreement_three_lost :
    (afterPackets 640 (by decide) (by decide)
      [.numbered 9 1, .numbered 12 1, .numbered 14 1]).NackAgreement :=
  (nackAgreement_run_iff 640 (by decide) (by decide) _).2 (by decide)

/-- Packet 65536, whose number on the wire is zero, is lost and never asked for. -/
theorem not_nackAgreement_wrap :
    ¬ (afterPackets 640 (by decide) (by decide)
      [.numbered 65535 1, .numbered 65537 1]).NackAgreement := by
  rw [afterPackets, nackAgreement_iff]
  decide

end RTPLostPackets

end McuMediaServer
