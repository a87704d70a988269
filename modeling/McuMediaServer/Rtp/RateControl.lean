import McuMediaServer.Base.Outputs
import Mathlib.Tactic.Ring

/-!
# The rate control of a stream

`RemoteRateControl` follows the frames of a video stream to estimate its delay. A packet whose
timestamp in milliseconds is above the current one begins a frame, one below it is late. At the
third frame and each later one the filter is given the differences between the two frames before it.

The timestamp is a 32-bit word of ticks, and nothing is done about its wraps: `groups` is the same
over the true times, and `meetsGroups_iff` says when the two agree.
-/

namespace McuMediaServer.RateControl

open Outputs

/-- The clock of a video stream. Reference: `rtp.h:132`. -/
def clockRate : Nat := 90000

/-- What is read of a packet. Reference: `rtp.h:443`. -/
structure RTPTimedPacket where
  /-- A 32-bit word of ticks. -/
  timestamp : Nat
  time : Nat
  mediaLength : Nat

/-- Reference: `rtp.h:254`. -/
def RTPTimedPacket.getClockTimestamp (packet : RTPTimedPacket) : Nat :=
  packet.timestamp * 1000 % 2 ^ 64 / clockRate % 2 ^ 32

/-- The `int` of a number. -/
def int (x : Int) : Int := x.bmod (2 ^ 32)

/-- What the filter is called with. Reference: `remoteratecontrol.cpp:100`. -/
structure UpdateKalman where
  now : Nat
  deltaTime : Int
  deltaTS : Int
  deltaSize : Int
  deriving DecidableEq

/-- The previous and the current frame. Reference: `remoteratecontrol.h:79`. -/
structure RemoteRateControl where
  prevTS : Nat := 0
  prevTime : Nat := 0
  prevSize : Nat := 0
  curTS : Nat := 0
  curTime : Nat := 0
  curSize : Nat := 0
  deriving DecidableEq

/-- Reference: `remoteratecontrol.cpp:39`. -/
def RemoteRateControl.update (s : RemoteRateControl) (packet : RTPTimedPacket) :
    RemoteRateControl × Option UpdateKalman :=
  let ts := packet.getClockTimestamp
  if ts < s.curTS then
    (s, none)
  else if s.curTS < ts then
    ({ prevTS := s.curTS, prevTime := s.curTime, prevSize := s.curSize, curTS := ts
       curTime := packet.time, curSize := packet.mediaLength % 2 ^ 32 },
      if s.prevTime = 0 then none
      else some {
        now := packet.time
        deltaTime := int (Int.bmod s.curTime (2 ^ 64) - Int.bmod s.prevTime (2 ^ 64))
        deltaTS := int (int s.curTS - int s.prevTS)
        deltaSize := int (int s.curSize - int s.prevSize) })
  else
    ({ s with
       curTS := ts, curTime := packet.time, curSize := (s.curSize + packet.mediaLength) % 2 ^ 32 },
      none)

/-! ## The frames by their true times -/

/-- A packet of a frame with a true time in ticks. -/
structure Arrival where
  ticks : Nat
  time : Nat
  mediaLength : Nat
  time_ne : time ≠ 0

namespace Arrival

/-- The timestamp is the lower word of the true time. -/
def packet (a : Arrival) : RTPTimedPacket := ⟨a.ticks % 2 ^ 32, a.time, a.mediaLength⟩

/-- The packet as if its timestamp were the true time. -/
def wrapped (a : Arrival) : Arrival := { a with ticks := a.ticks % 2 ^ 32 }

theorem wrapped_of_lt {a : Arrival} (h : a.ticks < 2 ^ 32) : a.wrapped = a := by
  rw [wrapped, Nat.mod_eq_of_lt h]

end Arrival

/-- A frame that has been seen: when its last packet in time arrived, and the size of those packets.
-/
structure Seen where
  ticks : Nat
  time : Nat
  size : Nat
  time_ne : time ≠ 0

/-- The milliseconds of a true time. -/
def ms (ticks : Nat) : Nat := ticks * 1000 / clockRate

/-- The differences between two frames, one after the other. -/
def Seen.differences (cur prev : Seen) (now : Nat) : UpdateKalman where
  now := now
  deltaTime := int (cur.time - prev.time)
  deltaTS := int (ms cur.ticks - ms prev.ticks)
  deltaSize := int (cur.size - prev.size)

/-- What a packet says of the frames, the newest first: it is late, or of the current frame, or
begins a frame and then the filter is due if there are two before it. -/
def see : List Seen → Arrival → List Seen × Option UpdateKalman
  | [], a => ([⟨a.ticks, a.time, a.mediaLength, a.time_ne⟩], none)
  | cur :: frames, a =>
    if a.ticks < cur.ticks then
      (cur :: frames, none)
    else if cur.ticks < a.ticks then
      (⟨a.ticks, a.time, a.mediaLength, a.time_ne⟩ :: cur :: frames,
        frames.head?.map fun prev => cur.differences prev a.time)
    else
      (⟨cur.ticks, a.time, cur.size + a.mediaLength, a.time_ne⟩ :: frames, none)

/-- The frames of a stream that begin in time. -/
def frames (arrivals : List Arrival) : List Seen := final see [] arrivals

/-- The times are each less than half the range of timestamps behind the newest one before. -/
def Advances : Nat → List Arrival → Prop
  | _, [] => True
  | newest, a :: arrivals => a.ticks < newest + 2 ^ 31 ∧ Advances (max newest a.ticks) arrivals

/-- Frames two milliseconds apart. -/
def Spaced (s t : Nat) : Prop :=
  s = t ∨ s + 2 * clockRate / 1000 ≤ t ∨ t + 2 * clockRate / 1000 ≤ s

/-- A stream of packets in the order of their arrivals. Times are counted so that the first one is
its timestamp. -/
structure Stream where
  first : Arrival
  rest : List Arrival
  first_lt : first.ticks < 2 ^ 32
  advances : Advances first.ticks rest
  spaced : ∀ a ∈ first :: rest, ∀ b ∈ first :: rest, Spaced a.ticks b.ticks

/-- The packets in the order of their arrivals. -/
def Stream.arrivals (stream : Stream) : List Arrival := stream.first :: stream.rest

/-- The filter is called as it is due at each packet of the stream. -/
def Stream.Groups (stream : Stream) : Prop :=
  outputs RemoteRateControl.update {} (stream.arrivals.map Arrival.packet) =
    outputs see [] stream.arrivals

/-! ## Timestamps in milliseconds -/

theorem getClockTimestamp_packet (a : Arrival) :
    a.packet.getClockTimestamp = ms (a.ticks % 2 ^ 32) := by
  have hword : a.ticks % 2 ^ 32 < 2 ^ 32 := Nat.mod_lt _ (Nat.two_pow_pos 32)
  have hms : ms (a.ticks % 2 ^ 32) < 2 ^ 32 := by
    unfold ms clockRate
    omega
  change a.ticks % 2 ^ 32 * 1000 % 2 ^ 64 / clockRate % 2 ^ 32 = _
  rw [Nat.mod_eq_of_lt (by omega : a.ticks % 2 ^ 32 * 1000 < 2 ^ 64)]
  exact Nat.mod_eq_of_lt hms

theorem ms_le_ms {s t : Nat} (h : s ≤ t) : ms s ≤ ms t :=
  Nat.div_le_div_right (Nat.mul_le_mul_right _ h)

theorem ms_lt_ms {s t : Nat} (h : s + 2 * clockRate / 1000 ≤ t) : ms s < ms t := by
  unfold ms
  unfold clockRate at *
  omega

theorem Spaced.ms_lt_iff {s t : Nat} (h : Spaced s t) : ms s < ms t ↔ s < t := by
  constructor
  · intro hms
    by_contra hle
    exact absurd (ms_le_ms (Nat.le_of_not_lt hle)) (Nat.not_le.2 hms)
  · intro hlt
    rcases h with rfl | hle | hge
    · exact absurd hlt (Nat.lt_irrefl _)
    · exact ms_lt_ms hle
    · omega

theorem Spaced.symm {s t : Nat} (h : Spaced s t) : Spaced t s := by
  rcases h with rfl | hle | hge
  · exact .inl rfl
  · exact .inr (.inr hle)
  · exact .inr (.inl hge)

/-! ## What the code keeps of the frames -/

/-- The current frame and the one before it. -/
def Keeps (s : RemoteRateControl) : List Seen → Prop
  | [] => s = {}
  | [cur] => s.curTS = ms cur.ticks ∧ s.curTime = cur.time ∧ s.curSize = cur.size % 2 ^ 32 ∧
    s.prevTime = 0
  | cur :: prev :: _ => s.curTS = ms cur.ticks ∧ s.curTime = cur.time ∧
    s.curSize = cur.size % 2 ^ 32 ∧ s.prevTS = ms prev.ticks ∧ s.prevTime = prev.time ∧
    s.prevSize = prev.size % 2 ^ 32

theorem int_bmod_sub_bmod (x y : Int) : int (Int.bmod x (2 ^ 64) - Int.bmod y (2 ^ 64)) =
    int (x - y) := by
  unfold int
  have hword : Int.bmod x (2 ^ 64) - Int.bmod y (2 ^ 64) =
      x - y + (2 ^ 32 : Nat) * (2 ^ 32 * (Int.bdiv y (2 ^ 64) - Int.bdiv x (2 ^ 64))) := by
    rw [Int.bmod_eq_self_sub_mul_bdiv x, Int.bmod_eq_self_sub_mul_bdiv y]
    push_cast
    ring
  rw [hword, Int.add_mul_bmod_self_left]

theorem int_sub_int (x y : Int) : int (int x - int y) = int (x - y) := by
  unfold int
  rw [Int.sub_bmod_bmod, Int.bmod_sub_bmod]

theorem int_emod (x : Nat) : int ((x % 2 ^ 32 : Nat) : Int) = int x := by
  unfold int
  rw [Int.natCast_emod]
  exact Int.emod_bmod x (2 ^ 32)

section Update

variable {s : RemoteRateControl} {cur : Seen} {fs : List Seen} {a : Arrival}

theorem see_late (h : a.ticks < cur.ticks) : see (cur :: fs) a = (cur :: fs, none) :=
  if_pos h

theorem see_continues (h : a.ticks = cur.ticks) : see (cur :: fs) a =
    (⟨cur.ticks, a.time, cur.size + a.mediaLength, a.time_ne⟩ :: fs, none) := by
  rw [see, if_neg (by omega), if_neg (by omega)]

theorem see_begins (h : cur.ticks < a.ticks) : see (cur :: fs) a =
    (⟨a.ticks, a.time, a.mediaLength, a.time_ne⟩ :: cur :: fs,
      fs.head?.map fun prev => cur.differences prev a.time) := by
  rw [see, if_neg (by omega), if_pos h]

theorem update_late (h : ms (a.ticks % 2 ^ 32) < s.curTS) : s.update a.packet = (s, none) := by
  rw [RemoteRateControl.update, getClockTimestamp_packet]
  exact if_pos h

theorem update_continues (h : ms (a.ticks % 2 ^ 32) = s.curTS) : s.update a.packet =
    ({ s with curTime := a.time, curSize := (s.curSize + a.mediaLength) % 2 ^ 32 }, none) := by
  rw [RemoteRateControl.update, getClockTimestamp_packet]
  rw [if_neg (by omega), if_neg (by omega), h]
  rfl

theorem update_begins (h : s.curTS < ms (a.ticks % 2 ^ 32)) : s.update a.packet =
    ({ prevTS := s.curTS, prevTime := s.curTime, prevSize := s.curSize
       curTS := ms (a.ticks % 2 ^ 32), curTime := a.time, curSize := a.mediaLength % 2 ^ 32 },
      if s.prevTime = 0 then none
      else some {
        now := a.time
        deltaTime := int (s.curTime - s.prevTime)
        deltaTS := int (s.curTS - s.prevTS)
        deltaSize := int (s.curSize - s.prevSize) }) := by
  rw [RemoteRateControl.update, getClockTimestamp_packet]
  rw [if_neg (by omega), if_pos h, int_bmod_sub_bmod, int_sub_int, int_sub_int]
  rfl

theorem Keeps.update (h : Keeps s fs)
    (hspaced : ∀ cur ∈ fs.head?, Spaced (a.ticks % 2 ^ 32) cur.ticks) :
    (s.update a.packet).2 = (see fs a.wrapped).2 ∧
      Keeps (s.update a.packet).1 (see fs a.wrapped).1 := by
  match fs, h with
  | [], h =>
    cases h
    rcases Nat.eq_zero_or_pos (ms (a.ticks % 2 ^ 32)) with hzero | hpos
    · rw [update_continues hzero]
      exact ⟨rfl, hzero.symm, rfl, by rw [Nat.zero_add]; rfl, rfl⟩
    · rw [update_begins hpos]
      exact ⟨rfl, rfl, rfl, rfl, rfl⟩
  | cur :: fs, h =>
    have hspaced := hspaced cur rfl
    have hcur : s.curTS = ms cur.ticks := by
      cases fs with
      | nil => exact h.1
      | cons => exact h.1
    rcases Nat.lt_trichotomy (a.ticks % 2 ^ 32) cur.ticks with hlate | hsame | hnew
    · rw [update_late (by rw [hcur]; exact hspaced.ms_lt_iff.2 hlate),
        @see_late _ _ a.wrapped hlate]
      exact ⟨rfl, h⟩
    · rw [update_continues (by rw [hcur, hsame]), @see_continues _ _ a.wrapped hsame]
      refine ⟨rfl, ?_⟩
      cases fs with
      | nil => exact ⟨h.1, rfl, by rw [h.2.2.1, Nat.mod_add_mod]; rfl, h.2.2.2⟩
      | cons => exact ⟨h.1, rfl, by rw [h.2.2.1, Nat.mod_add_mod]; rfl, h.2.2.2⟩
    · rw [update_begins (by rw [hcur]; exact hspaced.symm.ms_lt_iff.2 hnew),
        @see_begins _ _ a.wrapped hnew]
      cases fs with
      | nil => exact ⟨if_pos h.2.2.2, rfl, rfl, rfl, h.1, h.2.1, h.2.2.1⟩
      | cons prev =>
        obtain ⟨hTS, htime, hsize, hpTS, hptime, hpsize⟩ := h
        refine ⟨?_, rfl, rfl, rfl, hTS, htime, hsize⟩
        dsimp only
        rw [if_neg (by rw [hptime]; exact prev.time_ne), hTS, htime, hsize, hpTS, hptime, hpsize,
          ← int_sub_int ((cur.size % 2 ^ 32 : Nat) : Int), int_emod, int_emod, int_sub_int]
        rfl

theorem curTS_le_update : s.curTS ≤ (s.update a.packet).1.curTS := by
  rcases Nat.lt_trichotomy (ms (a.ticks % 2 ^ 32)) s.curTS with hlate | hsame | hnew
  · rw [update_late hlate]
  · rw [update_continues hsame]
  · rw [update_begins hnew]
    exact Nat.le_of_lt hnew

theorem update_eq_none (h : ms (a.ticks % 2 ^ 32) ≤ s.curTS) : (s.update a.packet).2 = none := by
  rcases Nat.lt_or_eq_of_le h with hlate | hsame
  · rw [update_late hlate]
  · rw [update_continues hsame]

end Update

/-! ## Runs -/

section Runs

variable {s : RemoteRateControl} {cur : Seen} {fs : List Seen} {a : Arrival}
  {arrivals : List Arrival}

theorem ticks_of_mem_see {f : Seen} (hf : f ∈ (see fs a).1) :
    (∃ g ∈ fs, g.ticks = f.ticks) ∨ f.ticks = a.ticks ∧ ∀ cur ∈ fs.head?, cur.ticks < a.ticks := by
  cases fs with
  | nil =>
    rw [List.mem_singleton.1 hf]
    exact .inr ⟨rfl, by simp⟩
  | cons cur fs =>
    rcases Nat.lt_trichotomy a.ticks cur.ticks with hlate | hsame | hnew
    · rw [see_late hlate] at hf
      exact .inl ⟨f, hf, rfl⟩
    · rw [see_continues hsame] at hf
      rcases List.mem_cons.1 hf with rfl | hin
      · exact .inl ⟨cur, List.mem_cons_self, rfl⟩
      · exact .inl ⟨f, List.mem_cons_of_mem _ hin, rfl⟩
    · rw [see_begins hnew] at hf
      rcases List.mem_cons.1 hf with rfl | hin
      · refine .inr ⟨rfl, fun c hc => ?_⟩
        rw [← Option.mem_some.1 hc]
        exact hnew
      · exact .inl ⟨f, hin, rfl⟩

theorem see_eq_none_iff (h : fs.length < 3) :
    (see fs a).2 = none ↔ (see fs a).1.length < 3 := by
  cases fs with
  | nil => exact iff_of_true rfl (by simp [see])
  | cons cur fs =>
    rcases Nat.lt_trichotomy a.ticks cur.ticks with hlate | hsame | hnew
    · rw [see_late hlate]
      exact iff_of_true rfl h
    · rw [see_continues hsame]
      exact iff_of_true rfl h
    · rw [see_begins hnew]
      cases fs with
      | nil => exact iff_of_true rfl (by simp)
      | cons prev fs => simp

theorem length_le_see : fs.length ≤ (see fs a).1.length := by
  cases fs with
  | nil => exact Nat.zero_le _
  | cons cur fs =>
    rcases Nat.lt_trichotomy a.ticks cur.ticks with hlate | hsame | hnew
    · rw [see_late hlate]
    · rw [see_continues hsame]
      exact Nat.le_refl _
    · rw [see_begins hnew]
      exact Nat.le_succ _

theorem length_le_final : fs.length ≤ (final see fs arrivals).length := by
  induction arrivals generalizing fs with
  | nil => exact Nat.le_refl _
  | cons a arrivals ih => exact length_le_see.trans ih

theorem outputs_see_none_iff (h : fs.length < 3) :
    (∀ o ∈ outputs see fs arrivals, o = none) ↔ (final see fs arrivals).length < 3 := by
  induction arrivals generalizing fs with
  | nil => exact iff_of_true (by simp [outputs]) h
  | cons a arrivals ih =>
    rw [outputs, List.forall_mem_cons, see_eq_none_iff h, final]
    constructor
    · rintro ⟨hlen, hnone⟩
      exact (ih hlen).1 hnone
    · intro hfinal
      have hlen := Nat.lt_of_le_of_lt length_le_final hfinal
      exact ⟨hlen, (ih hlen).2 hfinal⟩

theorem update_eq_none_of_wrapped {first : Nat} (hcur : 2 ^ 32 ≤ a.ticks)
    (hlt : a.ticks < first + 2 ^ 32) (hfirst : ms first ≤ s.curTS) :
    (s.update a.packet).2 = none := by
  refine update_eq_none ((ms_le_ms ?_).trans hfirst)
  omega

theorem length_final_of_wrapped {first : Nat} {prev : Seen} (hcur : 2 ^ 32 ≤ cur.ticks)
    (hlt : cur.ticks < first + 2 ^ 31) (hfirst : ms first ≤ s.curTS)
    (hadv : Advances cur.ticks arrivals)
    (heq : outputs (fun s a => RemoteRateControl.update s (Arrival.packet a)) s arrivals =
      outputs see (cur :: prev :: fs) arrivals) :
    (final see (cur :: prev :: fs) arrivals).length = fs.length + 2 := by
  induction arrivals generalizing s cur with
  | nil => rfl
  | cons a arrivals ih =>
    rw [outputs, outputs, List.cons.injEq] at heq
    obtain ⟨hout, heq⟩ := heq
    obtain ⟨ha, hadv⟩ := hadv
    have hmono := hfirst.trans (@curTS_le_update s a)
    rw [final]
    rcases Nat.lt_trichotomy a.ticks cur.ticks with hlate | hsame | hnew
    · rw [see_late hlate] at heq ⊢
      rw [Nat.max_eq_left (Nat.le_of_lt hlate)] at hadv
      exact ih hcur hlt hmono hadv heq
    · rw [see_continues hsame] at heq ⊢
      rw [hsame, Nat.max_self] at hadv
      exact @ih _ ⟨cur.ticks, a.time, cur.size + a.mediaLength, a.time_ne⟩ hcur hlt hmono hadv heq
    · rw [update_eq_none_of_wrapped (by omega) (by omega) hfirst, see_begins hnew] at hout
      cases hout

theorem length_final_of_wraps (h : Keeps s (cur :: fs)) (hcur : cur.ticks < 2 ^ 32)
    (hadv : Advances cur.ticks arrivals) (hwraps : ∃ a ∈ arrivals, 2 ^ 32 ≤ a.ticks)
    (hspaced : ∀ a ∈ arrivals, Spaced a.ticks cur.ticks ∧ ∀ b ∈ arrivals, Spaced b.ticks a.ticks)
    (heq : outputs (fun s a => RemoteRateControl.update s (Arrival.packet a)) s arrivals =
      outputs see (cur :: fs) arrivals) :
    (final see (cur :: fs) arrivals).length < 3 := by
  induction arrivals generalizing s cur fs with
  | nil =>
    obtain ⟨a, ha, -⟩ := hwraps
    cases ha
  | cons a arrivals ih =>
    rw [outputs, outputs, List.cons.injEq] at heq
    obtain ⟨hout, heq⟩ := heq
    obtain ⟨ha, hadv⟩ := hadv
    rw [final]
    rcases Nat.lt_or_ge a.ticks (2 ^ 32) with hbefore | hwrap
    · have hwraps' : ∃ b ∈ arrivals, 2 ^ 32 ≤ b.ticks := by
        obtain ⟨b, hb, hle⟩ := hwraps
        rcases List.mem_cons.1 hb with rfl | hin
        · omega
        · exact ⟨b, hin, hle⟩
      have hlater : ∀ t ∈ arrivals, Spaced t.ticks cur.ticks ∧
          ∀ b ∈ arrivals, Spaced b.ticks t.ticks := by
        intro t ht
        obtain ⟨htcur, htall⟩ := hspaced t (List.mem_cons_of_mem a ht)
        exact ⟨htcur, fun b hb => htall b (List.mem_cons_of_mem a hb)⟩
      have hnext : Keeps (s.update a.packet).1 (see (cur :: fs) a).1 := by
        have := (h.update (a := a) (by
          rintro c ⟨⟩
          rw [Nat.mod_eq_of_lt hbefore]
          exact (hspaced a List.mem_cons_self).1)).2
        rwa [Arrival.wrapped_of_lt hbefore] at this
      rcases Nat.lt_trichotomy a.ticks cur.ticks with hlate | hsame | hnew
      · rw [see_late hlate] at heq hnext ⊢
        rw [Nat.max_eq_left (Nat.le_of_lt hlate)] at hadv
        exact ih hnext hcur hadv hwraps' hlater heq
      · rw [see_continues hsame] at heq hnext ⊢
        rw [hsame, Nat.max_self] at hadv
        exact ih hnext hcur hadv hwraps' hlater heq
      · rw [see_begins hnew] at heq hnext ⊢
        rw [Nat.max_eq_right (Nat.le_of_lt hnew)] at hadv
        refine ih hnext hbefore hadv hwraps' ?_ heq
        intro t ht
        refine ⟨?_, (hlater t ht).2⟩
        exact (hspaced a List.mem_cons_self).2 t (List.mem_cons_of_mem a ht)
    · have hnew : cur.ticks < a.ticks := by omega
      have hcurTS : ms cur.ticks ≤ s.curTS := by
        cases fs with
        | nil => exact h.1.ge
        | cons => exact h.1.ge
      rw [update_eq_none_of_wrapped hwrap (by omega) hcurTS, see_begins hnew] at hout
      rw [see_begins hnew] at heq ⊢
      rw [Nat.max_eq_right (Nat.le_of_lt hnew)] at hadv
      cases fs with
      | nil =>
        have hlen : (final see [⟨a.ticks, a.time, a.mediaLength, a.time_ne⟩, cur] arrivals).length =
            0 + 2 := length_final_of_wrapped hwrap ha (hcurTS.trans curTS_le_update) hadv heq
        rw [hlen]
        decide
      | cons prev fs => cases hout

theorem ticks_le_of_length_final {prev : Seen}
    (h : (final see (cur :: prev :: fs) arrivals).length < fs.length + 3) :
    ∀ a ∈ arrivals, a.ticks ≤ cur.ticks := by
  induction arrivals generalizing cur with
  | nil => simp
  | cons a arrivals ih =>
    rw [final] at h
    rw [List.forall_mem_cons]
    rcases Nat.lt_trichotomy a.ticks cur.ticks with hlate | hsame | hnew
    · rw [see_late hlate] at h
      exact ⟨Nat.le_of_lt hlate, ih h⟩
    · rw [see_continues hsame] at h
      exact ⟨Nat.le_of_eq hsame, @ih ⟨cur.ticks, a.time, cur.size + a.mediaLength, a.time_ne⟩ h⟩
    · rw [see_begins hnew] at h
      have hle := h.trans_le' length_le_final
      simp at hle

theorem ticks_lt_of_length_final (hadv : Advances cur.ticks arrivals)
    (h : (final see [cur] arrivals).length < 3) :
    ∀ a ∈ arrivals, a.ticks < cur.ticks + 2 ^ 31 := by
  induction arrivals generalizing cur with
  | nil => simp
  | cons a arrivals ih =>
    obtain ⟨ha, hadv⟩ := hadv
    rw [final] at h
    rw [List.forall_mem_cons]
    refine ⟨ha, ?_⟩
    rcases Nat.lt_trichotomy a.ticks cur.ticks with hlate | hsame | hnew
    · rw [see_late hlate] at h
      rw [Nat.max_eq_left (Nat.le_of_lt hlate)] at hadv
      exact ih hadv h
    · rw [see_continues hsame] at h
      rw [hsame, Nat.max_self] at hadv
      exact @ih ⟨cur.ticks, a.time, cur.size + a.mediaLength, a.time_ne⟩ hadv h
    · rw [see_begins hnew] at h
      intro b hb
      exact (ticks_le_of_length_final h b hb).trans_lt ha

end Runs

/-! ## Streams -/

namespace Stream

variable (stream : Stream)

theorem outputs_packet
    (h : ∀ a ∈ stream.arrivals, a.ticks < 2 ^ 32 ∨ a.ticks < stream.first.ticks + 2 ^ 31) :
    outputs RemoteRateControl.update {} (stream.arrivals.map Arrival.packet) =
      outputs see [] (stream.arrivals.map Arrival.wrapped) := by
  have hfirst := stream.first_lt
  rw [outputs_map, outputs_map]
  have hstart : Keeps {} [] := rfl
  obtain ⟨hout, hkeeps⟩ := hstart.update (a := stream.first) (by simp)
  rw [arrivals, outputs, outputs, hout]
  congr 1
  refine outputs_eq_of_simulates (R := fun s fs => Keeps s fs ∧ fs ≠ [] ∧ ∀ f ∈ fs,
    stream.first.ticks ≤ f.ticks ∧ ∃ a ∈ stream.arrivals, a.ticks % 2 ^ 32 = f.ticks)
    (P := fun a => a ∈ stream.arrivals) ?_ ⟨hkeeps, by simp [see], ?_⟩ ?_
  · rintro s fs a ha ⟨hs, hne, hfs⟩
    have hspaced : ∀ cur ∈ fs.head?, Spaced (a.ticks % 2 ^ 32) cur.ticks := by
      intro cur hcur
      obtain ⟨hle, b, hb, hticks⟩ := hfs cur (List.mem_of_mem_head? hcur)
      have hab := stream.spaced a ha b hb
      have ha' := h a ha
      have hb' := h b hb
      unfold Spaced clockRate at *
      omega
    obtain ⟨hout, hnext⟩ := hs.update hspaced
    refine ⟨hout, hnext, ?_, ?_⟩
    · have hlen := @length_le_see fs a.wrapped
      intro hnil
      rw [hnil, List.length_nil, Nat.le_zero, List.length_eq_zero_iff] at hlen
      exact hne hlen
    · intro f hf
      rcases ticks_of_mem_see hf with ⟨g, hg, hticks⟩ | ⟨hticks, hnew⟩
      · rw [← hticks]
        exact hfs g hg
      · rw [hticks]
        refine ⟨?_, a, ha, rfl⟩
        obtain ⟨cur, fs, rfl⟩ := List.exists_cons_of_ne_nil hne
        exact (hfs cur List.mem_cons_self).1.trans (Nat.le_of_lt (hnew cur rfl))
  · intro f hf
    rw [List.mem_singleton.1 hf]
    exact ⟨(Nat.mod_eq_of_lt hfirst).ge, stream.first, List.mem_cons_self, rfl⟩
  · intro a ha
    exact List.mem_cons_of_mem _ ha

/-- **The filter is called as it is due if and only if the timestamp does not wrap**, or no three
frames begin, neither by the true times nor by the timestamps. -/
theorem groups_iff : stream.Groups ↔ (∀ a ∈ stream.arrivals, a.ticks < 2 ^ 32) ∨
    (frames stream.arrivals).length < 3 ∧
      (frames (stream.arrivals.map Arrival.wrapped)).length < 3 := by
  have hnone (arrivals : List Arrival) :
      (∀ o ∈ outputs see [] arrivals, o = none) ↔ (frames arrivals).length < 3 :=
    outputs_see_none_iff (by decide)
  have hfew (hlen : (frames stream.arrivals).length < 3) :
      outputs RemoteRateControl.update {} (stream.arrivals.map Arrival.packet) =
        outputs see [] (stream.arrivals.map Arrival.wrapped) := by
    refine stream.outputs_packet fun a ha => .inr ?_
    rcases List.mem_cons.1 ha with rfl | hin
    · omega
    · exact @ticks_lt_of_length_final ⟨stream.first.ticks, stream.first.time,
        stream.first.mediaLength, stream.first.time_ne⟩ _ stream.advances hlen a hin
  constructor
  · intro h
    rcases Classical.em (∀ a ∈ stream.arrivals, a.ticks < 2 ^ 32) with hall | hwraps
    · exact .inl hall
    · right
      have hlen : (frames stream.arrivals).length < 3 := by
        have hstart : Keeps {} [] := rfl
        obtain ⟨hout, hkeeps⟩ := hstart.update (a := stream.first) (by simp)
        rw [Arrival.wrapped_of_lt stream.first_lt] at hkeeps
        rw [Groups, outputs_map, arrivals, outputs, outputs, List.cons.injEq] at h
        refine length_final_of_wraps hkeeps stream.first_lt stream.advances ?_ ?_ h.2
        · push Not at hwraps
          obtain ⟨a, ha, hle⟩ := hwraps
          rcases List.mem_cons.1 ha with rfl | hin
          · exact absurd stream.first_lt (Nat.not_lt.2 hle)
          · exact ⟨a, hin, hle⟩
        · intro a ha
          have ha := List.mem_cons_of_mem stream.first ha
          refine ⟨stream.spaced a ha stream.first List.mem_cons_self, fun b hb => ?_⟩
          exact stream.spaced b (List.mem_cons_of_mem stream.first hb) a ha
      refine ⟨hlen, (hnone _).1 ?_⟩
      rw [← hfew hlen, h]
      exact (hnone _).2 hlen
  · rintro (hall | ⟨hlen, hwrapped⟩)
    · have hsame : stream.arrivals.map Arrival.wrapped = stream.arrivals := by
        rw [List.map_congr_left fun a ha => Arrival.wrapped_of_lt (hall a ha), List.map_id']
      rw [Groups, stream.outputs_packet fun a ha => .inl (hall a ha), hsame]
    · have hleft := List.eq_replicate_iff.2 ⟨rfl, (hnone _).2 hwrapped⟩
      have hright := List.eq_replicate_iff.2 ⟨rfl, (hnone _).2 hlen⟩
      rw [Groups, hfew hlen, hleft, hright, length_outputs, length_outputs, List.length_map]

end Stream

/-- Three frames, of which the third wraps the timestamp to zero. -/
def wrapsAtThird : List Arrival :=
  [⟨2 ^ 32 - 6000, 1000, 1200, Nat.succ_ne_zero _⟩, ⟨2 ^ 32 - 3000, 1033, 1200, Nat.succ_ne_zero _⟩,
    ⟨2 ^ 32, 1066, 1200, Nat.succ_ne_zero _⟩]

theorem not_groups_wrapsAtThird : ¬ ∀ stream : Stream, stream.Groups := by
  intro h
  have hgroups := h {
    first := wrapsAtThird.head (by decide)
    rest := wrapsAtThird.tail
    first_lt := by decide
    advances := ⟨by decide, by decide, trivial⟩
    spaced := by simp [wrapsAtThird, Spaced, clockRate] }
  exact absurd hgroups (by unfold Stream.Groups; decide)

end McuMediaServer.RateControl
