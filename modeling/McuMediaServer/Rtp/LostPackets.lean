import Mathlib.Data.List.GetD
import McuMediaServer.Base.Run
import McuMediaServer.Rtp.Packet

/-!
# The window of lost packets

`RTPLostPackets` remembers, for a window of extended sequence numbers, the arrival time of each
packet, zero when it has not arrived. The window grows to the right as newer packets arrive and is
slid when it is full; `AddPacket` returns how many numbers were skipped by the packet it adds.

What the window is for is stated here over the numbers alone (`skipped`, `Bookkeeping`): the slots
in use are exactly the numbers added, the last one is the highest, and the returned values add up to
the numbers skipped. `LostPackets.bookkeeping_iff` says exactly in which runs the code keeps that
bookkeeping.
-/

namespace McuMediaServer

open StepRun

/-! ## The window -/

/-- A window of at most `size` packets from the extended number `first` on, of which `len` are in
use. A slot holds the arrival time of its packet, zero when the packet is missing. A session makes
its window with 640 slots. Reference: `rtp.h:1771`, class `RTPLostPackets`. -/
structure RTPLostPackets where
  packets : List UInt64
  /-- A 16-bit number. -/
  size : Nat
  /-- The extended number of slot 0; zero also says that there is no first packet yet. -/
  first : Nat
  len : Nat
  size_pos : 0 < size
  size_lt : size < 2 ^ 16
  length_packets : packets.length = size
  len_le : len ≤ size
  deriving DecidableEq

namespace RTPLostPackets

/-- The window after construction and after `Reset`. Reference: `rtp.cpp:1481`, `rtp.cpp:1493`. -/
def reset (size : Nat) (hpos : 0 < size) (hlt : size < 2 ^ 16) : RTPLostPackets where
  packets := List.replicate size 0
  size := size
  first := 0
  len := 0
  size_pos := hpos
  size_lt := hlt
  length_packets := List.length_replicate
  len_le := Nat.zero_le _

/-- The window of a media session. Reference: `rtpsession.cpp:95`, `losts(640)`. -/
def ofSession : RTPLostPackets :=
  reset 640 (by decide) (by decide)

/-- The time in slot `i`; no packet beyond the buffer. -/
def slot (w : RTPLostPackets) (i : Nat) : UInt64 :=
  w.packets.getD i 0

/-- The missing packets right below slot `pos`: the loop that stops at the first packet found.
Reference: `rtp.cpp:1541`. -/
def countLost (packets : List UInt64) : Nat → Nat
  | 0 => 0
  | i + 1 => if packets.getD i 0 = 0 then countLost packets i + 1 else 0

/-- Slide the window so that the packet at offset `pos`, beyond its end, gets the last slot. The
slots that fall off the left are forgotten and the new ones are empty. Reference: `rtp.cpp:1519`. -/
def slide (w : RTPLostPackets) (extSeq pos : Nat) : RTPLostPackets :=
  let n := min (pos + 1 - w.size) w.size
  { w with
    packets := w.packets.drop n ++ List.replicate n 0
    first := extSeq + 1 - w.size
    len := w.size
    length_packets := by
      have := w.length_packets
      simp only [List.length_append, List.length_drop, List.length_replicate]
      omega
    len_le := le_rfl }

/-- Write the arrival time at `pos`, extending the part in use up to it. Reference:
`rtp.cpp:1537`. -/
def store (w : RTPLostPackets) (pos : Nat) (hpos : pos < w.size) (time : UInt64) :
    RTPLostPackets :=
  { w with
    packets := w.packets.set pos time
    len := if w.len ≤ pos + 1 then pos + 1 else w.len
    length_packets := by rw [List.length_set, w.length_packets]
    len_le := by
      have := w.len_le
      split <;> omega }

/-- The number of losses the packet stored at `pos` reveals: none when a later slot is in use.
Reference: `rtp.cpp:1537`. -/
def lostAt (w : RTPLostPackets) (pos : Nat) : Nat :=
  if w.len ≤ pos + 1 then countLost w.packets pos else 0

/-- The first packet fixes the start of the window. Reference: `rtp.cpp:1514`. -/
def startAt (w : RTPLostPackets) (extSeq : Nat) : RTPLostPackets :=
  { w with first := if w.first = 0 then extSeq else w.first }

/-- The offset of a packet in the window, cut to 16 bits. Reference: `rtp.cpp:1519`. -/
def pos (w : RTPLostPackets) (extSeq : Nat) : Nat :=
  (extSeq - w.first) % 2 ^ 16

/-- Add a packet to a window whose start is fixed. Reference: `rtp.cpp:1519`. -/
def place (w : RTPLostPackets) (extSeq : Nat) (time : UInt64) : RTPLostPackets × Nat :=
  if h : w.pos extSeq < w.size then
    (w.store (w.pos extSeq) h time, w.lostAt (w.pos extSeq))
  else
    let slid := w.slide extSeq (w.pos extSeq)
    (slid.store (slid.size - 1) (Nat.sub_lt slid.size_pos Nat.one_pos) time,
      slid.lostAt (slid.size - 1))

/-- Add a packet to the window and return how many packets it shows to be lost. Reference:
`rtp.cpp:1503`, `AddPacket`. -/
def addPacket (w : RTPLostPackets) (packet : RTPTimedPacket) : RTPLostPackets × Nat :=
  -- A packet from before the window is very old
  if packet.extSeqNum < w.first then
    (w, 0)
  else
    (w.startAt packet.extSeqNum).place packet.extSeqNum packet.time

section Slots

variable (w : RTPLostPackets) (i pos : Nat)

theorem slot_of_size_le (h : w.size ≤ i) : w.slot i = 0 := by
  rw [slot, List.getD_eq_default]
  rw [w.length_packets]
  exact h

@[simp]
theorem slot_startAt (extSeq : Nat) : (w.startAt extSeq).slot i = w.slot i := rfl

theorem slot_store (h : pos < w.size) (time : UInt64) :
    (w.store pos h time).slot i = if i = pos then time else w.slot i := by
  have hlen : pos < w.packets.length := by rw [w.length_packets]; exact h
  simp only [slot, store, List.getD_eq_getElem?_getD, List.getElem?_set]
  by_cases hi : i = pos
  · simp [hi, hlen]
  · simp [hi, Ne.symm hi]

/-- Sliding by `n` slots forgets the first `n` and leaves the others in order. -/
theorem slot_slide (extSeq : Nat) :
    (w.slide extSeq pos).slot i = w.slot (i + min (pos + 1 - w.size) w.size) := by
  have hlen := w.length_packets
  simp only [slot, slide, List.getD_eq_getElem?_getD]
  generalize min (pos + 1 - w.size) w.size = n
  by_cases hi : i < w.size - n
  · rw [List.getElem?_append_left (by rw [List.length_drop, hlen]; exact hi), List.getElem?_drop,
      Nat.add_comm]
  · rw [List.getElem?_append_right (by rw [List.length_drop, hlen]; omega),
      List.getElem?_eq_none_iff.2 (show w.packets.length ≤ i + n by omega), List.getElem?_replicate]
    split <;> rfl

end Slots

section CountLost

variable {packets : List UInt64}

variable (packets) in
theorem countLost_le (pos : Nat) : countLost packets pos ≤ pos := by
  induction pos with
  | zero => exact le_rfl
  | succ pos ih =>
    rw [countLost]
    split <;> omega

theorem countLost_eq_zero_iff {pos : Nat} :
    countLost packets pos = 0 ↔ pos = 0 ∨ packets.getD (pos - 1) 0 ≠ 0 := by
  cases pos with
  | zero => simp [countLost]
  | succ pos =>
    rw [countLost, Nat.add_sub_cancel]
    split
    case isTrue h => simp only [Nat.add_one_ne_zero, h, ne_eq, not_true, or_false]
    case isFalse h => exact ⟨fun _ => .inr h, fun _ => rfl⟩

/-- The loop counts the empty slots from `k` up when the slot below `k` is full. -/
theorem countLost_eq {k pos : Nat} (hk : k ≤ pos)
    (hempty : ∀ i, k ≤ i → i < pos → packets.getD i 0 = 0)
    (hfull : k = 0 ∨ packets.getD (k - 1) 0 ≠ 0) : countLost packets pos = pos - k := by
  induction pos with
  | zero => simp [countLost]
  | succ pos ih =>
    rw [countLost]
    rcases Nat.lt_or_ge pos k with hlt | hge
    · have hkp : k = pos + 1 := by omega
      have hne : packets.getD pos 0 ≠ 0 := by
        rcases hfull with h | h
        · omega
        · rwa [hkp, Nat.add_sub_cancel] at h
      rw [if_neg hne]
      omega
    · rw [if_pos (hempty pos hge pos.lt_succ_self),
        ih hge fun i hi hip => hempty i hi (by omega)]
      omega

end CountLost

end RTPLostPackets

/-! ## What the window accounts for -/

/-- The sequence numbers that `extSeq` skips after the numbers `seen`: those between the highest of
them and it. -/
def skippedBy (seen : List Nat) (extSeq : Nat) : Nat :=
  match seen.max? with
  | none => 0
  | some highest => extSeq - highest - 1

/-- The sequence numbers skipped while the numbers of a list arrive after the numbers `seen`. -/
def skippedFrom (seen : List Nat) : List Nat → Nat
  | [] => 0
  | extSeq :: rest => skippedBy seen extSeq + skippedFrom (seen ++ [extSeq]) rest

/-- The sequence numbers skipped while the numbers of a list arrive, each counted once, at the time
the highest number moves past it. -/
def skipped (seqs : List Nat) : Nat :=
  skippedFrom [] seqs

theorem skippedFrom_concat (seen seqs : List Nat) (extSeq : Nat) :
    skippedFrom seen (seqs ++ [extSeq]) =
      skippedFrom seen seqs + skippedBy (seen ++ seqs) extSeq := by
  induction seqs generalizing seen with
  | nil => simp [skippedFrom]
  | cons e seqs ih => simp [skippedFrom, ih, Nat.add_assoc]

@[simp]
theorem skipped_concat (seqs : List Nat) (extSeq : Nat) :
    skipped (seqs ++ [extSeq]) = skipped seqs + skippedBy seqs extSeq := by
  rw [skipped, skippedFrom_concat, List.nil_append, skipped]

namespace RTPLostPackets

/-- What the window and the values it returned must say after the packets `seqs` were added, in that
order: the slots in use are the packets added, the last one is the highest, and the losses reported
are the numbers skipped. -/
structure Bookkeeping (seqs : List Nat) (w : RTPLostPackets) (reported : Nat) : Prop where
  len_le : w.len ≤ w.size
  slot_iff : ∀ i < w.len, w.slot i ≠ 0 ↔ w.first + i ∈ seqs
  highest : ∀ h, seqs.max? = some h → w.first + w.len = h + 1
  reported_eq : reported = skipped seqs

/-- What holds of the window in every run, whatever is added: the slots after those in use are
empty, the window is in use as soon as a packet was added, and a window whose first number is zero
has at most one slot in use (zero also stands for *no first packet*). -/
structure Inv (seqs : List Nat) (w : RTPLostPackets) : Prop where
  unused : ∀ i, w.len ≤ i → w.slot i = 0
  len_eq_zero : w.len = 0 ↔ seqs = []
  first_eq_zero : w.len = 0 → w.first = 0
  len_le_one : w.first = 0 → w.len ≤ 1

/-- The packets the window keeps account of: the first one, one older than the newest, the newest
again when the packet before it arrived, and a newer one that leaves no loss outside the window: at
most `size` after the newest, within 16 bits of the first, and right after the newest when that is
packet zero. -/
def Accountable (w : RTPLostPackets) (extSeq : Nat) : Prop :=
  w.len = 0 ∨ extSeq + 1 < w.first + w.len ∨
    (extSeq + 1 = w.first + w.len ∧ (w.len = 1 ∨ w.slot (w.len - 2) ≠ 0)) ∨
    (w.first + w.len ≤ extSeq ∧ extSeq < w.first + w.len + w.size ∧ extSeq < w.first + 2 ^ 16 ∧
      (w.first = 0 → extSeq = 1))

instance (w : RTPLostPackets) (extSeq : Nat) : Decidable (w.Accountable extSeq) :=
  inferInstanceAs (Decidable (_ ∨ _))

section Step

variable {seqs : List Nat} {w : RTPLostPackets} {highest extSeq reported : Nat} {time : UInt64}

theorem place_of_lt (h : w.pos extSeq < w.size) :
    w.place extSeq time = (w.store (w.pos extSeq) h time, w.lostAt (w.pos extSeq)) :=
  dif_pos h

theorem place_of_le (h : w.size ≤ w.pos extSeq) :
    w.place extSeq time =
      ((w.slide extSeq (w.pos extSeq)).store ((w.slide extSeq (w.pos extSeq)).size - 1)
          (Nat.sub_lt (w.slide extSeq (w.pos extSeq)).size_pos Nat.one_pos) time,
        (w.slide extSeq (w.pos extSeq)).lostAt ((w.slide extSeq (w.pos extSeq)).size - 1)) :=
  dif_neg (Nat.not_lt.2 h)

theorem startAt_eq_self (h : w.first ≠ 0) : w.startAt extSeq = w := by
  rw [startAt, if_neg h]

theorem place_startAt_of_first_eq_zero (h : w.first = 0) :
    (w.startAt extSeq).place extSeq time =
      ((w.startAt extSeq).store 0 (w.startAt extSeq).size_pos time, 0) := by
  have hpos : (w.startAt extSeq).pos extSeq = 0 := by simp [pos, startAt, h]
  have hlt : (w.startAt extSeq).pos extSeq < (w.startAt extSeq).size := by
    rw [hpos]; exact w.size_pos
  rw [place_of_lt hlt]
  simp only [hpos, lostAt, countLost, ite_self]

theorem bookkeeping_concat_iff (hmax : seqs.max? = some highest)
    (hrep : reported = skipped seqs) (lost : Nat) :
    Bookkeeping (seqs ++ [extSeq]) w (reported + lost) ↔
      (∀ i < w.len, w.slot i ≠ 0 ↔ w.first + i ∈ seqs ∨ w.first + i = extSeq) ∧
        w.first + w.len = max highest extSeq + 1 ∧ lost = extSeq - highest - 1 := by
  obtain ⟨hmem, hle⟩ := List.max?_eq_some_iff.1 hmax
  have hmax' : (seqs ++ [extSeq]).max? = some (max highest extSeq) := by
    refine List.max?_eq_some_iff.2 ⟨?_, fun b hb => ?_⟩
    · rcases Nat.le_total highest extSeq with h | h
      · simp [Nat.max_eq_right h]
      · simp [Nat.max_eq_left h, hmem]
    · rcases List.mem_append.1 hb with hb | hb
      · exact (hle b hb).trans (Nat.le_max_left _ _)
      · rw [List.mem_singleton.1 hb]
        exact Nat.le_max_right _ _
  have hby : skippedBy seqs extSeq = extSeq - highest - 1 := by rw [skippedBy, hmax]
  constructor
  · intro h
    refine ⟨fun i hi => ?_, h.highest _ hmax', ?_⟩
    · rw [h.slot_iff i hi, List.mem_append, List.mem_singleton]
    · have := h.reported_eq
      rw [skipped_concat, hby] at this
      omega
  · rintro ⟨hslot, hlast, hlost⟩
    refine ⟨w.len_le, fun i hi => ?_, fun h hh => ?_, ?_⟩
    · rw [hslot i hi, List.mem_append, List.mem_singleton]
    · rw [hmax', Option.some.injEq] at hh
      rw [← hh, hlast]
    · rw [skipped_concat, hby, hlost, hrep]

theorem len_store {pos : Nat} (hpos : pos < w.size) :
    (w.store pos hpos time).len = if w.len ≤ pos + 1 then pos + 1 else w.len := rfl

theorem inv_store {pos : Nat} (hpos : pos < w.size) (hunused : ∀ i, w.len ≤ i → w.slot i = 0)
    (hfirst : w.first = 0 → pos = 0 ∧ w.len ≤ 1) :
    Inv (seqs ++ [extSeq]) (w.store pos hpos time) := by
  have hlen : (w.store pos hpos time).len ≠ 0 := by rw [len_store]; split <;> omega
  refine ⟨fun i hi => ?_, by simp [hlen], fun h0 => absurd h0 hlen, fun h0 => ?_⟩
  · rw [len_store] at hi
    rw [slot_store, if_neg (by split at hi <;> omega)]
    exact hunused i (by split at hi <;> omega)
  · obtain ⟨rfl, hle⟩ := hfirst h0
    rw [len_store]
    split <;> omega

theorem Inv.addPacket (h : Inv seqs w) (p : RTPTimedPacket) :
    Inv (seqs ++ [p.extSeqNum]) (w.addPacket p).1 := by
  rw [RTPLostPackets.addPacket]
  split
  case isTrue hlt =>
    have hlen : w.len ≠ 0 := fun hz => by rw [h.first_eq_zero hz] at hlt; omega
    exact ⟨h.unused, by simp [hlen], h.first_eq_zero, h.len_le_one⟩
  case isFalse hge =>
    rcases Nat.eq_zero_or_pos w.first with hz | hpos
    · -- the packet becomes the first one, so its slot is slot 0
      rw [place_startAt_of_first_eq_zero hz]
      exact inv_store (w.startAt p.extSeqNum).size_pos h.unused
        fun _ => ⟨rfl, h.len_le_one hz⟩
    · rw [startAt_eq_self (Nat.ne_of_gt hpos)]
      rcases Nat.lt_or_ge (w.pos p.extSeqNum) w.size with hin | hout
      · rw [place_of_lt hin]
        exact inv_store hin h.unused fun h0 => absurd h0 (Nat.ne_of_gt hpos)
      · rw [place_of_le hout]
        refine inv_store (Nat.sub_lt (RTPLostPackets.size_pos _) Nat.one_pos)
          (fun i hi => slot_of_size_le _ _ hi) fun h0 => ?_
        -- the packet is at least `size` past the first one, so the new start is positive
        change p.extSeqNum + 1 - w.size = 0 at h0
        have hle : w.pos p.extSeqNum ≤ p.extSeqNum - w.first := Nat.mod_le _ _
        omega

theorem Bookkeeping.exists_highest (hb : Bookkeeping seqs w reported) (hne : seqs ≠ []) :
    ∃ highest, seqs.max? = some highest ∧ w.first + w.len = highest + 1 := by
  cases hmax : seqs.max? with
  | none => exact absurd (List.max?_eq_none_iff.1 hmax) hne
  | some highest => exact ⟨highest, rfl, hb.highest _ hmax⟩

theorem place_of_le_highest (time : UInt64) (hle : w.first ≤ extSeq) (hlt : extSeq < w.first + w.len) :
    ∃ hin : extSeq - w.first < w.size,
      w.place extSeq time = (w.store (extSeq - w.first) hin time, w.lostAt (extSeq - w.first)) := by
  have hsize := w.size_lt
  have hlen := w.len_le
  have hpos : w.pos extSeq = extSeq - w.first := Nat.mod_eq_of_lt (by omega)
  have hin : w.pos extSeq < w.size := by omega
  refine ⟨by omega, ?_⟩
  rw [place_of_lt hin]
  simp only [hpos]

theorem Bookkeeping.last (hb : Bookkeeping seqs w reported) (hI : Inv seqs w) (hne : seqs ≠ [])
    (hmax : seqs.max? = some highest) :
    0 < w.len ∧ w.slot (w.len - 1) ≠ 0 ∧ ∀ x ∈ seqs, x < w.first + w.len := by
  have hlen : 0 < w.len := Nat.pos_of_ne_zero (mt hI.len_eq_zero.1 hne)
  have hlast := hb.highest _ hmax
  obtain ⟨hmem, hle⟩ := List.max?_eq_some_iff.1 hmax
  refine ⟨hlen, (hb.slot_iff _ (by omega)).2 ?_, fun x hx => ?_⟩
  · rwa [show w.first + (w.len - 1) = highest by omega]
  · have := hle x hx
    omega

theorem bookkeeping_old (hb : Bookkeeping seqs w reported) (hmax : seqs.max? = some highest)
    (hlen : 0 < w.len) (hlt : extSeq < w.first) :
    Bookkeeping (seqs ++ [extSeq]) w (reported + 0) := by
  have hlast := hb.highest _ hmax
  refine (bookkeeping_concat_iff hmax hb.reported_eq 0).2 ⟨fun i hi => ?_, ?_, ?_⟩
  · rw [hb.slot_iff i hi]
    exact ⟨Or.inl, fun h => h.resolve_right (by omega)⟩
  · rw [hlast, Nat.max_eq_left (by omega)]
  · omega

theorem bookkeeping_first (hb : Bookkeeping [] w reported) (hfirst : w.first = 0)
    (hlen : w.len = 0) (ht : time ≠ 0) :
    Bookkeeping ([] ++ [extSeq]) ((w.startAt extSeq).store 0 (w.startAt extSeq).size_pos time) (reported + 0) := by
  have hlen' : ((w.startAt extSeq).store 0 (w.startAt extSeq).size_pos time).len = 1 := by
    rw [len_store, if_pos (show (w.startAt extSeq).len ≤ 0 + 1 from hlen.le.trans (by decide))]
  have hfirst' : ((w.startAt extSeq).store 0 (w.startAt extSeq).size_pos time).first = extSeq := if_pos hfirst
  refine ⟨(RTPLostPackets.len_le _), fun i hi => ?_, fun h hh => ?_, ?_⟩
  · obtain rfl : i = 0 := by omega
    rw [slot_store, if_pos rfl, hfirst']
    simp [ht]
  · rw [hlen', hfirst']
    exact congrArg (· + 1) (Option.some.inj hh)
  · rw [hb.reported_eq]
    rfl

theorem bookkeeping_after_zero (hb : Bookkeeping seqs w reported)
    (hmax : seqs.max? = some highest) (hfirst : w.first = 0) (hlen : w.len = 1) (ht : time ≠ 0) :
    Bookkeeping (seqs ++ [extSeq]) ((w.startAt extSeq).store 0 (w.startAt extSeq).size_pos time) (reported + 0) ↔
      extSeq ≤ 1 := by
  have hlen' : ((w.startAt extSeq).store 0 (w.startAt extSeq).size_pos time).len = 1 := by
    rw [len_store, if_pos (show (w.startAt extSeq).len ≤ 0 + 1 from hlen.le.trans (by decide))]
  have hfirst' : ((w.startAt extSeq).store 0 (w.startAt extSeq).size_pos time).first = extSeq := if_pos hfirst
  have hhigh : highest = 0 := by have := hb.highest _ hmax; omega
  rw [bookkeeping_concat_iff hmax hb.reported_eq, hlen', hfirst', hhigh]
  constructor
  · rintro ⟨-, -, hlost⟩
    omega
  · intro hle
    refine ⟨fun i hi => ?_, by omega, by omega⟩
    obtain rfl : i = 0 := by omega
    rw [slot_store, if_pos rfl]
    simp [ht]

theorem bookkeeping_within (hb : Bookkeeping seqs w reported)
    (hmax : seqs.max? = some highest) (ht : time ≠ 0) (hle : w.first ≤ extSeq)
    (hlt : extSeq < w.first + w.len) :
    Bookkeeping (seqs ++ [extSeq]) (w.place extSeq time).1
        (reported + (w.place extSeq time).2) ↔
      extSeq + 1 < w.first + w.len ∨ w.len = 1 ∨ w.slot (w.len - 2) ≠ 0 := by
  obtain ⟨hin, hplace⟩ := place_of_le_highest time hle hlt
  have hlast := hb.highest _ hmax
  have hlen' : (w.store (extSeq - w.first) hin time).len = w.len := by
    rw [len_store]; split <;> omega
  have hslots : ∀ i < w.len, (w.store (extSeq - w.first) hin time).slot i ≠ 0 ↔
      w.first + i ∈ seqs ∨ w.first + i = extSeq := by
    intro i hi
    rw [slot_store]
    split
    case isTrue h => exact ⟨fun _ => .inr (by omega), fun _ => ht⟩
    case isFalse h =>
      rw [hb.slot_iff i hi]
      exact ⟨.inl, fun h' => h'.resolve_right (by omega)⟩
  have hfirst : (w.store (extSeq - w.first) hin time).first = w.first := rfl
  rw [hplace, bookkeeping_concat_iff hmax hb.reported_eq, hlen', hfirst]
  have hlost : w.lostAt (extSeq - w.first) = 0 ↔
      extSeq + 1 < w.first + w.len ∨ w.len = 1 ∨ w.slot (w.len - 2) ≠ 0 := by
    rw [lostAt]
    split
    case isFalse h => exact ⟨fun _ => .inl (by omega), fun _ => rfl⟩
    case isTrue h =>
      have hpos : extSeq - w.first - 1 = w.len - 2 := by omega
      rw [countLost_eq_zero_iff, hpos]
      exact ⟨fun h' => .inr (h'.imp_left (by omega)), fun h' => by
        rcases h' with h' | h' | h'
        · omega
        · exact .inl (by omega)
        · exact .inr h'⟩
  rw [← hlost]
  constructor
  · rintro ⟨-, -, h⟩
    omega
  · intro h
    exact ⟨hslots, by omega, by omega⟩

theorem bookkeeping_newer (hb : Bookkeeping seqs w reported) (hI : Inv seqs w) (hne : seqs ≠ [])
    (hmax : seqs.max? = some highest) (ht : time ≠ 0) (hge : w.first + w.len ≤ extSeq)
    (hlt : extSeq < w.first + w.size) :
    Bookkeeping (seqs ++ [extSeq]) (w.place extSeq time).1
      (reported + (w.place extSeq time).2) := by
  have hsize := w.size_lt
  have hlast := hb.highest _ hmax
  obtain ⟨hlen, hfull, hbelow⟩ := hb.last hI hne hmax
  have hpos : w.pos extSeq = extSeq - w.first := Nat.mod_eq_of_lt (by omega)
  have hin : w.pos extSeq < w.size := by omega
  have hlen' : (w.store (w.pos extSeq) hin time).len = w.pos extSeq + 1 := by
    rw [len_store, if_pos (by omega)]
  have hfirst : (w.store (w.pos extSeq) hin time).first = w.first := rfl
  rw [place_of_lt hin, bookkeeping_concat_iff hmax hb.reported_eq, hlen', hfirst]
  refine ⟨fun i hi => ?_, by omega, ?_⟩
  · rw [slot_store]
    split
    case isTrue h => exact ⟨fun _ => .inr (by omega), fun _ => ht⟩
    case isFalse h =>
      rcases Nat.lt_or_ge i w.len with hil | hil
      · rw [hb.slot_iff i hil]
        exact ⟨.inl, fun h' => h'.resolve_right (by omega)⟩
      · -- a slot the packet skips
        have hempty := hI.unused i hil
        refine ⟨fun h' => absurd hempty h', fun h' => ?_⟩
        rcases h' with h' | h'
        · have := hbelow _ h'
          omega
        · omega
  · have hcount : countLost w.packets (w.pos extSeq) = w.pos extSeq - w.len :=
      countLost_eq (by omega) (fun i hi _ => hI.unused i hi) (.inr hfull)
    rw [lostAt, if_pos (by omega), hcount]
    omega

theorem not_bookkeeping_far (hb : Bookkeeping seqs w reported)
    (hmax : seqs.max? = some highest) (hge : w.first + 2 ^ 16 ≤ extSeq)
    (hin : w.pos extSeq < w.size) :
    ¬ Bookkeeping (seqs ++ [extSeq]) (w.place extSeq time).1
      (reported + (w.place extSeq time).2) := by
  have hsize := w.size_lt
  have hlen := w.len_le
  have hlast := hb.highest _ hmax
  have hfirst : (w.store (w.pos extSeq) hin time).first = w.first := rfl
  rw [place_of_lt hin, bookkeeping_concat_iff hmax hb.reported_eq, len_store, hfirst]
  rintro ⟨-, h, -⟩
  rw [Nat.max_eq_right (by omega)] at h
  split at h <;> omega

theorem bookkeeping_slide (hb : Bookkeeping seqs w reported) (hI : Inv seqs w) (hne : seqs ≠ [])
    (hmax : seqs.max? = some highest) (ht : time ≠ 0) (hge : w.first + w.len ≤ extSeq)
    (hout : w.size ≤ w.pos extSeq) :
    Bookkeeping (seqs ++ [extSeq]) (w.place extSeq time).1
        (reported + (w.place extSeq time).2) ↔
      extSeq < w.first + w.len + w.size ∧ extSeq < w.first + 2 ^ 16 := by
  have hsize := w.size_lt
  have hsize0 := w.size_pos
  have hwlen := w.len_le
  have hlast := hb.highest _ hmax
  obtain ⟨hlen, hfull, hbelow⟩ := hb.last hI hne hmax
  have hmod : w.pos extSeq % 2 ^ 16 = w.pos extSeq := Nat.mod_mod _ _
  have hdiv : extSeq - w.first = 2 ^ 16 * ((extSeq - w.first) / 2 ^ 16) + w.pos extSeq :=
    (Nat.div_add_mod _ _).symm
  rw [place_of_le hout]
  generalize hv : w.slide extSeq (w.pos extSeq) = v
  have hvsize : v.size = w.size := by rw [← hv]; rfl
  have hvlen : v.len = w.size := by rw [← hv]; rfl
  have hvfirst : v.first = extSeq + 1 - w.size := by rw [← hv]; rfl
  have hvslot : ∀ i, v.slot i = w.slot (i + min (w.pos extSeq + 1 - w.size) w.size) := by
    intro i
    rw [← hv, slot_slide]
  have hin : v.size - 1 < v.size := Nat.sub_lt v.size_pos Nat.one_pos
  have hlen' : (v.store (v.size - 1) hin time).len = w.size := by
    rw [len_store]; split <;> omega
  have hfirst' : (v.store (v.size - 1) hin time).first = v.first := rfl
  have hlost : v.lostAt (v.size - 1) = countLost v.packets (w.size - 1) := by
    rw [lostAt, if_pos (by omega), hvsize]
  have hcount := countLost_le v.packets (w.size - 1)
  rw [bookkeeping_concat_iff hmax hb.reported_eq, hlen', hfirst', hlost]
  constructor
  · rintro ⟨-, -, h⟩
    omega
  · rintro ⟨hnear, hfar⟩
    have hpos : w.pos extSeq = extSeq - w.first := Nat.mod_eq_of_lt (by omega)
    -- the window moves by exactly the distance of the packet from its end
    obtain ⟨d, hd⟩ : ∃ d, extSeq + 1 = w.first + d + w.size :=
      ⟨extSeq + 1 - w.first - w.size, by omega⟩
    have hslide : min (w.pos extSeq + 1 - w.size) w.size = d := by omega
    rw [hslide] at hvslot
    clear hmod hdiv hpos hslide hout hfar
    refine ⟨fun i hi => ?_, by omega, ?_⟩
    · rw [slot_store]
      split
      case isTrue h => exact ⟨fun _ => .inr (by omega), fun _ => ht⟩
      case isFalse h =>
        rw [hvslot]
        rcases Nat.lt_or_ge (i + d) w.len with hil | hil
        · rw [hb.slot_iff _ hil, show w.first + (i + d) = v.first + i by omega]
          exact ⟨.inl, fun h' => h'.resolve_right (by omega)⟩
        · refine ⟨fun h' => absurd (hI.unused _ hil) h', fun h' => ?_⟩
          rcases h' with h' | h'
          · have := hbelow _ h'
            omega
          · omega
    · have hempty : ∀ i, w.len - d ≤ i → i < w.size - 1 → v.packets.getD i 0 = 0 := fun i hi _ => by
        have := hvslot i
        rw [slot] at this
        rw [this]
        exact hI.unused _ (by omega)
      have hfull' : w.len - d = 0 ∨ v.packets.getD (w.len - d - 1) 0 ≠ 0 := by
        rcases Nat.eq_zero_or_pos (w.len - d) with hz | hp
        · exact .inl hz
        · have := hvslot (w.len - d - 1)
          rw [slot] at this
          rw [this]
          refine .inr ?_
          rwa [show w.len - d - 1 + d = w.len - 1 by omega]
      rw [countLost_eq (by omega) hempty hfull']
      omega

/-- **Step lemma.** From a window that keeps account, one more packet is accounted for exactly if it
is accountable. -/
theorem bookkeeping_addPacket_iff (hb : Bookkeeping seqs w reported) (hI : Inv seqs w)
    (p : RTPTimedPacket) (ht : p.time ≠ 0) :
    Bookkeeping (seqs ++ [p.extSeqNum]) (w.addPacket p).1 (reported + (w.addPacket p).2) ↔
      w.Accountable p.extSeqNum := by
  rcases eq_or_ne seqs [] with rfl | hne
  · have hlen := hI.len_eq_zero.2 rfl
    have hfirst := hI.first_eq_zero hlen
    rw [addPacket, if_neg (by omega), place_startAt_of_first_eq_zero hfirst]
    exact ⟨fun _ => .inl hlen, fun _ => bookkeeping_first hb hfirst hlen ht⟩
  obtain ⟨highest, hmax, hlast⟩ := hb.exists_highest hne
  have hlen : 0 < w.len := (hb.last hI hne hmax).1
  rw [addPacket, Accountable]
  split
  case isTrue hlt =>
    exact ⟨fun _ => .inr (.inl (by omega)), fun _ => bookkeeping_old hb hmax hlen hlt⟩
  case isFalse hge =>
  rcases Nat.eq_zero_or_pos w.first with hz | hpos
  · have hone : w.len = 1 := by have := hI.len_le_one hz; omega
    have hsize := w.size_pos
    rw [place_startAt_of_first_eq_zero hz, bookkeeping_after_zero hb hmax hz hone ht]
    omega
  rw [startAt_eq_self (Nat.ne_of_gt hpos)]
  rcases Nat.lt_or_ge p.extSeqNum (w.first + w.len) with hold | hnew
  · rw [bookkeeping_within hb hmax ht (by omega) hold]
    constructor
    · rintro (h | h)
      · exact .inr (.inl h)
      · by_cases heq : p.extSeqNum + 1 = w.first + w.len
        · exact .inr (.inr (.inl ⟨heq, h⟩))
        · exact .inr (.inl (by omega))
    · rintro (h | h | ⟨_, h⟩ | h)
      · omega
      · exact .inl h
      · exact .inr h
      · omega
  have haccountable : (w.len = 0 ∨ p.extSeqNum + 1 < w.first + w.len ∨
      (p.extSeqNum + 1 = w.first + w.len ∧ (w.len = 1 ∨ w.slot (w.len - 2) ≠ 0)) ∨
      (w.first + w.len ≤ p.extSeqNum ∧ p.extSeqNum < w.first + w.len + w.size ∧
        p.extSeqNum < w.first + 2 ^ 16 ∧ (w.first = 0 → p.extSeqNum = 1))) ↔
      p.extSeqNum < w.first + w.len + w.size ∧ p.extSeqNum < w.first + 2 ^ 16 := by
    constructor
    · rintro (h | h | ⟨h, -⟩ | h)
      · omega
      · omega
      · omega
      · exact ⟨h.2.1, h.2.2.1⟩
    · rintro ⟨h, h'⟩
      exact .inr (.inr (.inr ⟨hnew, h, h', fun h0 => by omega⟩))
  rw [haccountable]
  rcases Nat.lt_or_ge (w.pos p.extSeqNum) w.size with hin | hout
  · rcases Nat.lt_or_ge p.extSeqNum (w.first + 2 ^ 16) with hnear | hfar
    · have hpos' : w.pos p.extSeqNum = p.extSeqNum - w.first := Nat.mod_eq_of_lt (by omega)
      exact ⟨fun _ => ⟨by omega, hnear⟩,
        fun _ => bookkeeping_newer hb hI hne hmax ht hnew (by omega)⟩
    · exact ⟨fun h => absurd h (not_bookkeeping_far hb hmax hfar hin), fun h => by omega⟩
  · exact bookkeeping_slide hb hI hne hmax ht hnew hout

end Step

/-! ## Runs -/

/-- A packet with a nonzero arrival time: zero stands for *not arrived* in the window. -/
structure Arrival extends RTPTimedPacket where
  time_ne_zero : time ≠ 0

/-- Add a packet, with the sum of the values returned so far. -/
def receive (s : RTPLostPackets × Nat) (p : Arrival) : RTPLostPackets × Nat :=
  ((s.1.addPacket p.toRTPTimedPacket).1, s.2 + (s.1.addPacket p.toRTPTimedPacket).2)

@[simp]
theorem receive_fst (s : RTPLostPackets × Nat) (p : Arrival) :
    (receive s p).1 = (s.1.addPacket p.toRTPTimedPacket).1 := by
  have h : ∀ r : RTPLostPackets × Nat, (r.1, s.2 + r.2).1 = r.1 := fun _ => rfl
  exact h _

@[simp]
theorem receive_snd (s : RTPLostPackets × Nat) (p : Arrival) :
    (receive s p).2 = s.2 + (s.1.addPacket p.toRTPTimedPacket).2 := by
  have h : ∀ r : RTPLostPackets × Nat, (r.1, s.2 + r.2).2 = s.2 + r.2 := fun _ => rfl
  exact h _

/-- The extended numbers of a run of packets. -/
def extSeqs (ps : List Arrival) : List Nat :=
  ps.map fun p => p.extSeqNum

@[simp]
theorem extSeqs_concat (ps : List Arrival) (p : Arrival) :
    extSeqs (ps ++ [p]) = extSeqs ps ++ [p.extSeqNum] :=
  List.map_append

variable (size : Nat) (hpos : 0 < size) (hlt : size < 2 ^ 16)

theorem inv_reset : Inv [] (reset size hpos hlt) := by
  refine ⟨fun i _ => ?_, by simp [reset], fun _ => rfl, fun _ => Nat.zero_le _⟩
  rw [slot, reset, List.getD_eq_getElem?_getD, List.getElem?_replicate]
  split <;> rfl

/-- **Loss bookkeeping.** At every point of a run the window says exactly which packets arrived and
the values returned add up to the numbers skipped, if and only if every packet of the run was
accountable when it arrived. -/
theorem bookkeeping_iff_accountable (ps : List Arrival) :
    (∀ qs, qs <+: ps →
      Bookkeeping (extSeqs qs) (run receive (reset size hpos hlt, 0) qs).1
        (run receive (reset size hpos hlt, 0) qs).2) ↔
      Meets receive (fun s p => s.1.Accountable p.extSeqNum) (reset size hpos hlt, 0) ps := by
  refine forall_prefix_iff_meets (s := (reset size hpos hlt, 0))
    (I := fun qs (s : RTPLostPackets × Nat) => Inv (extSeqs qs) s.1)
    (P := fun qs (s : RTPLostPackets × Nat) => Bookkeeping (extSeqs qs) s.1 s.2)
    (inv_reset size hpos hlt) ?_ (fun qs p hI _ _ => ?_) (fun qs p hI hb => ?_) ps
  · exact ⟨Nat.zero_le _, fun i hi => absurd hi (Nat.not_lt_zero i), (fun _ h => nomatch h), rfl⟩
  · rw [extSeqs_concat, receive_fst]
    exact hI.addPacket p.toRTPTimedPacket
  · rw [extSeqs_concat, receive_fst, receive_snd]
    exact bookkeeping_addPacket_iff hb hI p.toRTPTimedPacket p.time_ne_zero

/-- The packet numbered `extSeq`, for the examples. -/
def Arrival.numbered (extSeq : Nat) : Arrival where
  toRTPTimedPacket := .numbered extSeq 1
  time_ne_zero := (by decide : (1 : UInt64) ≠ 0)

/-- A loss, a late packet that repairs it and a jump that slides the window are all accounted
for. -/
theorem bookkeeping_reordered :
    Bookkeeping (extSeqs ([7, 9, 8, 12].map Arrival.numbered))
      (run receive (reset 4 (by decide) (by decide), 0) ([7, 9, 8, 12].map Arrival.numbered)).1
      (run receive (reset 4 (by decide) (by decide), 0) ([7, 9, 8, 12].map Arrival.numbered)).2 :=
  (bookkeeping_iff_accountable 4 (by decide) (by decide)
    ([7, 9, 8, 12].map Arrival.numbered)).2 (by decide) _ (List.prefix_refl _)

/-- The newest packet arriving twice reports the loss below it twice. -/
theorem not_bookkeeping_duplicate :
    ¬ Bookkeeping (extSeqs ([1, 3, 3].map Arrival.numbered))
      (run receive (ofSession, 0) ([1, 3, 3].map Arrival.numbered)).1
      (run receive (ofSession, 0) ([1, 3, 3].map Arrival.numbered)).2 := by
  intro h
  have hreported := h.reported_eq
  revert hreported
  decide

end RTPLostPackets

end McuMediaServer
