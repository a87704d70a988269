import McuMediaServer.Mp4.Track
import Mathlib.Algebra.BigOperators.Group.List.Basic
import Mathlib.Algebra.Order.BigOperators.Group.List
import Mathlib.Algebra.Order.Ring.Nat

/-!
# The timeline of a track

The durations of the samples before a frame should add up to the time of the frame, in the ticks of
the track. Each duration is cut to whole ticks on its own, and what is cut adds up too.
-/

namespace McuMediaServer.Mp4

open Track

/-! ## What is asked of the samples -/

/-- The frames come in the order of their times. -/
def Nondecreasing (frames : List MediaFrame) : Prop :=
  frames.Pairwise (·.ts ≤ ·.ts)

instance (frames : List MediaFrame) : Decidable (Nondecreasing frames) :=
  inferInstanceAs (Decidable (frames.Pairwise (·.ts ≤ ·.ts)))

/-- Each frame is written once, in order, and less than a tick from its time, which is in
milliseconds. -/
structure Timeline (timescale : Nat) (frames : List MediaFrame) (samples : List Sample) : Prop where
  once : samples.map (·.data) = frames.map (·.data)
  near : ∀ (k : Nat) (first frame : MediaFrame), frames.head? = some first →
    frames[k]? = some frame →
    (1000 * (start samples k : Int) - timescale * (frame.ts.toNat - first.ts.toNat)).natAbs < 1000

/-- The frames with the ones behind them. -/
def steps {φ : Type} (frames : List φ) : List (φ × φ) :=
  frames.zip frames.tail

/-- The milliseconds from a frame to the one behind it. -/
def gap {φ : Type} (media : φ → MediaFrame) (step : φ × φ) : Nat :=
  (media step.2).ts.toNat - (media step.1).ts.toNat

/-! ## What the durations miss -/

section Missing

variable {φ : Type} {duration : φ → φ → UInt32} {flush : φ → UInt32 → List Sample} {last : UInt32}
  {media : φ → MediaFrame} {timescale : Nat} {frames : List φ}

/-- What the duration of a frame is too short, in thousandths of a tick. -/
def missing (duration : φ → φ → UInt32) (media : φ → MediaFrame) (timescale : Nat)
    (step : φ × φ) : Nat :=
  timescale * gap media step - 1000 * (duration step.2 step.1).toNat

theorem flushAll_data
    (hflush : ∀ frame d, ∃ sync, flush frame d = [⟨(media frame).data, d.toNat, 0, sync⟩]) :
    (flushAll duration flush last frames).map (·.data) = (frames.map media).map (·.data) := by
  fun_induction flushAll duration flush last frames with
  | case1 => rfl
  | case2 frame =>
    obtain ⟨sync, h⟩ := hflush frame last
    rw [h]
    rfl
  | case3 prev frame frames ih =>
    obtain ⟨sync, h⟩ := hflush prev (duration frame prev)
    rw [h, List.map_append, ih]
    rfl

variable (last) in
theorem start_flushAll {k : Nat} {first frame : φ}
    (hflush : ∀ frame d, ∃ sync, flush frame d = [⟨(media frame).data, d.toNat, 0, sync⟩])
    (hle : ∀ step ∈ steps frames, 1000 * (duration step.2 step.1).toNat ≤ timescale * gap media step)
    (hmono : Nondecreasing (frames.map media)) (hfirst : frames.head? = some first)
    (hframe : frames[k]? = some frame) :
    1000 * start (flushAll duration flush last frames) k +
      (((steps frames).map (missing duration media timescale)).take k).sum =
        timescale * ((media frame).ts.toNat - (media first).ts.toNat) ∧
      (media first).ts ≤ (media frame).ts := by
  induction frames generalizing k first with
  | nil => simp at hfirst
  | cons prev frames ih =>
    obtain rfl : prev = first := by simpa using hfirst
    cases k with
    | zero =>
      obtain rfl : prev = frame := by simpa using hframe
      simp [start]
    | succ k =>
      cases frames with
      | nil => simp at hframe
      | cons next frames =>
        obtain ⟨sync, hs⟩ := hflush prev (duration next prev)
        have hmono' := List.pairwise_cons.1 hmono
        have hnext : (media prev).ts ≤ (media next).ts := hmono'.1 (media next) (by simp)
        have hstep := hle (prev, next) (by simp [steps])
        obtain ⟨h, hle'⟩ := ih (fun step hm => hle step (by
          rw [steps, List.tail_cons, List.zip_cons_cons]
          exact List.mem_cons_of_mem _ hm)) hmono'.2 rfl hframe
        have htake : (((steps (prev :: next :: frames)).map
            (missing duration media timescale)).take (k + 1)).sum =
            missing duration media timescale (prev, next) +
              (((steps (next :: frames)).map (missing duration media timescale)).take k).sum := by
          simp [steps]
        have hstart : start (flushAll duration flush last (prev :: next :: frames)) (k + 1) =
            (duration next prev).toNat + start (flushAll duration flush last (next :: frames)) k := by
          rw [flushAll, hs, start, List.singleton_append, List.take_succ_cons, List.map_cons,
            List.sum_cons, start]
        have hmissing : missing duration media timescale (prev, next) +
            1000 * (duration next prev).toNat =
              timescale * ((media next).ts.toNat - (media prev).ts.toNat) :=
          Nat.sub_add_cancel hstep
        rw [UInt32.le_iff_toNat_le] at hnext hle'
        refine ⟨?_, UInt32.le_iff_toNat_le.2 (hnext.trans hle')⟩
        have hsplit : (media frame).ts.toNat - (media prev).ts.toNat =
            ((media next).ts.toNat - (media prev).ts.toNat) +
              ((media frame).ts.toNat - (media next).ts.toNat) := by omega
        rw [htake, hstart, hsplit, Nat.mul_add timescale]
        omega

theorem near_eq {k : Nat} {first frame : φ}
    (hflush : ∀ frame d, ∃ sync, flush frame d = [⟨(media frame).data, d.toNat, 0, sync⟩])
    (hle : ∀ step ∈ steps frames, 1000 * (duration step.2 step.1).toNat ≤ timescale * gap media step)
    (hmono : Nondecreasing (frames.map media)) (hfirst : frames.head? = some first)
    (hframe : frames[k]? = some frame) :
    (1000 * (start (flushAll duration flush last frames) k : Int) -
      timescale * ((media frame).ts.toNat - (media first).ts.toNat)).natAbs =
        (((steps frames).map (missing duration media timescale)).take k).sum := by
  obtain ⟨h, hts⟩ := start_flushAll last hflush hle hmono hfirst hframe
  rw [UInt32.le_iff_toNat_le] at hts
  have hcast : (timescale : Int) * ((media frame).ts.toNat - (media first).ts.toNat) =
      ((timescale * ((media frame).ts.toNat - (media first).ts.toNat) : Nat) : Int) := by
    rw [Nat.cast_mul, Nat.cast_sub hts]
  rw [hcast, ← h]
  omega

theorem timeline_iff
    (hflush : ∀ frame d, ∃ sync, flush frame d = [⟨(media frame).data, d.toNat, 0, sync⟩])
    (hle : ∀ step ∈ steps frames, 1000 * (duration step.2 step.1).toNat ≤ timescale * gap media step)
    (hmono : Nondecreasing (frames.map media)) :
    Timeline timescale (frames.map media) (flushAll duration flush last frames) ↔
      ((steps frames).map (missing duration media timescale)).sum < 1000 := by
  constructor
  · intro h
    cases frames with
    | nil => simp [steps]
    | cons first frames =>
      have hlast : (first :: frames)[frames.length]? =
          some ((first :: frames)[frames.length]) := List.getElem?_eq_getElem (by simp)
      have hnear := h.near frames.length (media first) _ rfl (by rw [List.getElem?_map, hlast]; rfl)
      rw [near_eq hflush hle hmono rfl hlast, List.take_of_length_le (by simp [steps])] at hnear
      exact hnear
  · intro h
    refine ⟨flushAll_data hflush, ?_⟩
    intro k first frame hfirst hframe
    rw [List.head?_map, Option.map_eq_some_iff] at hfirst
    rw [List.getElem?_map, Option.map_eq_some_iff] at hframe
    obtain ⟨first, hfirst, rfl⟩ := hfirst
    obtain ⟨frame, hframe, rfl⟩ := hframe
    rw [near_eq hflush hle hmono hfirst hframe]
    exact (List.Sublist.sum_le_sum (List.take_sublist _ _) (by simp)).trans_lt h

end Missing

/-! ## The durations of the tracks -/

section Steps

variable {φ : Type} {media : φ → MediaFrame} {frames : List φ}

theorem mem_steps {step : φ × φ} (h : step ∈ steps frames) : step.1 ∈ frames ∧ step.2 ∈ frames :=
  ⟨(List.of_mem_zip h).1, List.mem_of_mem_tail (List.of_mem_zip h).2⟩

theorem steps_le (hmono : Nondecreasing (frames.map media)) {step : φ × φ}
    (h : step ∈ steps frames) : (media step.1).ts ≤ (media step.2).ts := by
  induction frames with
  | nil => simp [steps] at h
  | cons prev frames ih =>
    have hmono' := List.pairwise_cons.1 hmono
    cases frames with
    | nil => simp [steps] at h
    | cons frame frames =>
      rw [steps, List.tail_cons, List.zip_cons_cons, List.mem_cons] at h
      obtain rfl | h := h
      · exact hmono'.1 _ (by simp)
      · exact ih hmono'.2 h

end Steps

variable {step : AudioFrame × AudioFrame}

section Audio

variable {frames : List AudioFrame} {rate : UInt32}

theorem toNat_audioDuration (h : step.1.ts ≤ step.2.ts) : (audioDuration step.2 step.1).toNat =
      (gap AudioFrame.toMediaFrame step * step.2.rate.toNat) % 2 ^ 32 / 1000 := by
  rw [audioDuration, UInt32.toNat_div, UInt32.toNat_mul, UInt32.toNat_sub_of_le _ _ h]
  rfl

theorem audioDuration_le (hmono : Nondecreasing (frames.map (·.toMediaFrame)))
    (hrate : ∀ frame ∈ frames, frame.rate = rate) (h : step ∈ steps frames) :
    1000 * (audioDuration step.2 step.1).toNat ≤
      rate.toNat * gap AudioFrame.toMediaFrame step := by
  have hmod := Nat.mod_le (gap AudioFrame.toMediaFrame step * rate.toNat) (2 ^ 32)
  rw [toNat_audioDuration (steps_le hmono h), hrate _ (mem_steps h).2, Nat.mul_comm rate.toNat]
  omega

theorem missing_audio (h : step.1.ts ≤ step.2.ts) (hrate : step.2.rate = rate) :
    missing audioDuration AudioFrame.toMediaFrame rate.toNat step =
      gap AudioFrame.toMediaFrame step * rate.toNat -
        1000 * (gap AudioFrame.toMediaFrame step * rate.toNat % 2 ^ 32 / 1000) := by
  rw [missing, toNat_audioDuration h, hrate, Nat.mul_comm rate.toNat]

theorem sum_missing_audio (hmono : Nondecreasing (frames.map (·.toMediaFrame)))
    (hrate : ∀ frame ∈ frames, frame.rate = rate) :
    ((steps frames).map (missing audioDuration AudioFrame.toMediaFrame rate.toNat)).sum < 1000 ↔
      (∀ step ∈ steps frames, gap AudioFrame.toMediaFrame step * rate.toNat < 2 ^ 32) ∧
      ((steps frames).map fun step =>
        gap AudioFrame.toMediaFrame step * rate.toNat % 1000).sum < 1000 := by
  have hmissing : ∀ step ∈ steps frames,
      missing audioDuration AudioFrame.toMediaFrame rate.toNat step =
        gap AudioFrame.toMediaFrame step * rate.toNat -
          1000 * (gap AudioFrame.toMediaFrame step * rate.toNat % 2 ^ 32 / 1000) := by
    intro step hm
    exact missing_audio (steps_le hmono hm) (hrate _ (mem_steps hm).2)
  have hcut : (∀ step ∈ steps frames, gap AudioFrame.toMediaFrame step * rate.toNat < 2 ^ 32) →
      (steps frames).map (missing audioDuration AudioFrame.toMediaFrame rate.toNat) =
        (steps frames).map fun step => gap AudioFrame.toMediaFrame step * rate.toNat % 1000 := by
    intro hlt
    refine List.map_congr_left fun step hm => ?_
    rw [hmissing step hm, Nat.mod_eq_of_lt (hlt step hm)]
    omega
  constructor
  · intro h
    have hlt : ∀ step ∈ steps frames, gap AudioFrame.toMediaFrame step * rate.toNat < 2 ^ 32 := by
      intro step hm
      have := (List.le_sum_of_mem (List.mem_map_of_mem hm)).trans_lt h
      rw [hmissing step hm] at this
      omega
    exact ⟨hlt, hcut hlt ▸ h⟩
  · rintro ⟨hlt, h⟩
    rw [hcut hlt]
    exact h

end Audio

section Video

variable {frames : List VideoFrame}

theorem toNat_videoDuration {step : VideoFrame × VideoFrame} (h : step.1.ts ≤ step.2.ts) :
    (videoDuration step.2 step.1).toNat =
      (gap VideoFrame.toMediaFrame step * 90) % 2 ^ 32 := by
  rw [videoDuration, UInt32.toNat_mul, UInt32.toNat_sub_of_le _ _ h]
  rfl

theorem videoDuration_le (hmono : Nondecreasing (frames.map (·.toMediaFrame)))
    {step : VideoFrame × VideoFrame} (h : step ∈ steps frames) :
    1000 * (videoDuration step.2 step.1).toNat ≤ 90000 * gap VideoFrame.toMediaFrame step := by
  have hmod := Nat.mod_le (gap VideoFrame.toMediaFrame step * 90) (2 ^ 32)
  rw [toNat_videoDuration (steps_le hmono h)]
  omega

theorem sum_missing_video (hmono : Nondecreasing (frames.map (·.toMediaFrame))) :
    ((steps frames).map (missing videoDuration VideoFrame.toMediaFrame 90000)).sum < 1000 ↔
      ∀ step ∈ steps frames, gap VideoFrame.toMediaFrame step * 90 < 2 ^ 32 := by
  have hmissing : ∀ step ∈ steps frames,
      missing videoDuration VideoFrame.toMediaFrame 90000 step =
        90000 * gap VideoFrame.toMediaFrame step -
          1000 * (gap VideoFrame.toMediaFrame step * 90 % 2 ^ 32) := by
    intro step hm
    rw [missing, toNat_videoDuration (steps_le hmono hm)]
  constructor
  · intro h step hm
    have := (List.le_sum_of_mem (List.mem_map_of_mem hm)).trans_lt h
    rw [hmissing step hm] at this
    omega
  · intro hlt
    rw [List.sum_eq_zero]
    · decide
    · intro x hx
      obtain ⟨step, hm, rfl⟩ := List.mem_map.1 hx
      rw [hmissing step hm, Nat.mod_eq_of_lt (hlt step hm)]
      omega

end Video

/-! ## The durations are cut -/

/-- A track keeps its timeline as long as no product of a gap overflows and, at the rate of an audio
track, what is cut off the durations adds up to less than a tick. -/
theorem timelines_iff {rate : UInt32} {audio : List AudioFrame} {video : List VideoFrame}
    (haudio : Nondecreasing (audio.map (·.toMediaFrame)))
    (hrate : ∀ frame ∈ audio, frame.rate = rate)
    (hvideo : Nondecreasing (video.map (·.toMediaFrame))) :
    (Timeline rate.toNat (audio.map (·.toMediaFrame)) (recordAudio audio) ↔
      (∀ step ∈ steps audio, gap AudioFrame.toMediaFrame step * rate.toNat < 2 ^ 32) ∧
      ((steps audio).map fun step =>
        gap AudioFrame.toMediaFrame step * rate.toNat % 1000).sum < 1000) ∧
    (Timeline 90000 (video.map (·.toMediaFrame)) (recordVideo video) ↔
      ∀ step ∈ steps video, gap VideoFrame.toMediaFrame step * 90 < 2 ^ 32) := by
  constructor
  · rw [recordAudio_eq, ← sum_missing_audio haudio hrate]
    exact timeline_iff (fun frame d => ⟨true, rfl⟩)
      (fun step hm => audioDuration_le haudio hrate hm) haudio
  · rw [recordVideo_eq, ← sum_missing_video hvideo]
    exact timeline_iff (fun frame d => ⟨frame.isIntra, rfl⟩)
      (fun step hm => videoDuration_le hvideo hm) hvideo

/-- Three frames at 8 kHz, and two of video. -/
theorem timelines_eightKilohertz :
    Timeline 8000 [⟨0, [1]⟩, ⟨20, [2]⟩, ⟨41, [3]⟩]
      (recordAudio [⟨⟨0, [1]⟩, 8000⟩, ⟨⟨20, [2]⟩, 8000⟩, ⟨⟨41, [3]⟩, 8000⟩]) ∧
    Timeline 90000 [⟨0, [4]⟩, ⟨33, [5]⟩]
      (recordVideo [⟨⟨0, [4]⟩, true⟩, ⟨⟨33, [5]⟩, false⟩]) := by
  have h := @timelines_iff 8000 [⟨⟨0, [1]⟩, 8000⟩, ⟨⟨20, [2]⟩, 8000⟩, ⟨⟨41, [3]⟩, 8000⟩]
    [⟨⟨0, [4]⟩, true⟩, ⟨⟨33, [5]⟩, false⟩] (by decide) (by simp) (by decide)
  exact ⟨h.1.2 (by decide), h.2.2 (by decide)⟩

/-- Four frames of 20 ms at 11025 Hz: each duration is half a tick too short. -/
theorem not_timeline_elevenKilohertz :
    ¬ Timeline 11025 [⟨0, []⟩, ⟨20, []⟩, ⟨40, []⟩, ⟨60, []⟩]
      (recordAudio [⟨⟨0, []⟩, 11025⟩, ⟨⟨20, []⟩, 11025⟩, ⟨⟨40, []⟩, 11025⟩,
        ⟨⟨60, []⟩, 11025⟩]) := by
  intro h
  have := h.near 3 ⟨0, []⟩ ⟨60, []⟩ rfl rfl
  revert this
  decide

end McuMediaServer.Mp4
