import McuMediaServer.Mp4.Track
import McuMediaServer.Text.Receivers
import McuMediaServer.Amf.Utf8

/-!
# Texts that are recorded and played

A sample of a text track is the length of the text in two bytes and the text. The reader takes the
two bytes off the length once more, so that it loses the end of each text.
-/

namespace McuMediaServer.Mp4

open ByteSeq Track
open Amf (WString encode utf8Size UTF8Parser)

/-! ## Recording -/

/-- What is written of a text, which leaves the screen after seven seconds. Reference:
`mp4recorder.cpp:298`. -/
def Track.flushTextFrame (frame : TextFrame) (duration : UInt32) : List Sample :=
  let frameduration := min duration.toNat 7000
  let size := (encode frame.value).length
  let data := be2 size ++ encode frame.value
  ⟨data, frameduration, 0, false⟩ ::
    if 0 < duration.toNat - frameduration then
      [⟨[0, 0], duration.toNat - frameduration, 0, false⟩]
    else
      []

/-- Reference: `mp4recorder.cpp:363`. -/
def Track.textDuration (frame prev : TextFrame) : UInt32 :=
  frame.timestamp - prev.timestamp

/-- Reference: `mp4recorder.cpp:346`. -/
def Track.writeTextFrame : Track TextFrame → TextFrame → Track TextFrame :=
  write textDuration flushTextFrame

/-- Reference: `mp4recorder.cpp:388`. -/
def Track.closeText : Track TextFrame → Track TextFrame :=
  close flushTextFrame 1000

/-- What is written of some texts. -/
def Track.recordText (frames : List TextFrame) : List Sample :=
  (frames.foldl writeTextFrame {}).closeText.samples

theorem Track.recordText_eq (frames : List TextFrame) :
    recordText frames = flushAll textDuration flushTextFrame 1000 frames :=
  samplesOf_eq textDuration flushTextFrame 1000 frames

/-! ## Playing

The samples are numbered from one, zero is `MP4_INVALID_SAMPLE_ID`. There is no value when a
sample is read outside its data.
-/

namespace MP4TextTrack

/-- What is given to the listener of a sample. The lengths are taken modulo the size of a `DWORD`.
Reference: `mp4streamer.cpp:950`. -/
def readSample (sample : Sample) : Option (List WString) :=
  if 2 < sample.data.length then do
    let len ← get2 sample.data 0
    let size := (len + 2 ^ 64 - sample.renderingOffset - 2) % 2 ^ 32
    let text ← slice sample.data (2 + sample.renderingOffset) size
    return [(TextFrame.ofBytes 0 text).value]
  else
    some []

/-- One sample is read after the other, until there is none. Reference: `mp4streamer.cpp:906`,
`Read`. -/
def readAll : List Sample → Option (List WString)
  | [] => some []
  | sample :: samples => do
    let text ← readSample sample
    let texts ← readAll samples
    return text ++ texts

/-- Reference: `mp4streamer.cpp:966`. -/
def getSampleTime (samples : List Sample) (sampleId : Nat) : Option Nat :=
  if 1 ≤ sampleId ∧ sampleId ≤ samples.length then
    some (start samples (sampleId - 1))
  else
    none

/-- Reference: `mp4streamer.cpp:839`. -/
def readPrevious (samples : List Sample) (sampleId : Nat) : Option (List WString) :=
  if sampleId = 1 then
    some [[]]
  else
    let prevId := if sampleId = 0 then samples.length else sampleId - 1
    (samples[prevId - 1]?).elim (some []) readSample

/-- Reference: `mp4recorder.cpp:132`. -/
def timeScale : Nat := 1000

/-- The text before the one to go on with, if that is not shown at once. Reference:
`mp4streamer.cpp:307`. -/
def playPrevious (samples : List Sample) (seeked : Nat) (next : Nat × Option Nat) :
    Option (List WString) :=
  if next.2 ≠ some seeked then readPrevious samples next.1 else some []

/-- The texts of the loop, which ends when there is no next time. What the other tracks do and when
the texts are given is left out. Reference: `mp4streamer.cpp:321`. -/
def playLoop (samples : List Sample) (next : Nat × Option Nat) : Option (List WString) :=
  if next.2.isSome then readAll (samples.drop (next.1 - 1)) else some []

section Play

/- `MP4GetSampleIdFromTime` is a function of the library: the number of the sample that is shown at
a time, or zero. -/
variable (getSampleIdFromTime : List Sample → Nat → Nat) (samples : List Sample)

/-- The sample to go on with and when it is to be shown. Reference: `mp4streamer.cpp:1156`. -/
def seek (time : Nat) : Nat × Option Nat :=
  let sampleId := getSampleIdFromTime samples (time * timeScale % 2 ^ 64 / 1000)
  if sampleId = 0 then (0, none)
  else (sampleId, (getSampleTime samples sampleId).map (· * 1000 % 2 ^ 64 / timeScale))

/-- The texts that the listener gets when the file is played from a time on. Reference:
`mp4streamer.cpp:252`, `PlayLoop`. -/
def play (seeked : Nat) : Option (List WString) := do
  let next := if seeked = 0 then (1, getSampleTime samples 1)
    else seek getSampleIdFromTime samples seeked
  let previous ← playPrevious samples seeked next
  let texts ← playLoop samples next
  return previous ++ texts

end Play

end MP4TextTrack

open MP4TextTrack

/-! ## What is asked of a text track -/

/-- Empty texts are not shown. -/
def shown (texts : List WString) : List WString :=
  texts.filter (· ≠ [])

/-- The texts that are recorded from a time on, which counts from the first of them. -/
def recordedFrom (frames : List TextFrame) (time : Nat) : List TextFrame :=
  frames.filter fun frame =>
    time ≤ (frame.timestamp - (frames.headD frame).timestamp).toNat

/-- Whatever the time that is sought, the reader stays within the samples, and what is shown are
the last of the recorded texts, all of those from the time on among them. -/
def RoundTrips (getSampleIdFromTime : List Sample → Nat → Nat) (frames : List TextFrame) : Prop :=
  ∀ time, ∃ texts, play getSampleIdFromTime (recordText frames) time = some texts ∧
    shown ((recordedFrom frames time).map (·.value)) <:+ shown texts ∧
    shown texts <:+ shown (frames.map (·.value))

/-! ## A text comes back shorter -/

section Reading

variable {frames : List TextFrame} {frame : TextFrame} {duration : UInt32} {texts : List WString}

theorem readAll_append (samples samples' : List Sample) :
    readAll (samples ++ samples') = do
      let texts ← readAll samples
      let texts' ← readAll samples'
      return texts ++ texts' := by
  induction samples with
  | nil => simp [readAll]
  | cons sample samples ih =>
    rw [List.cons_append, readAll, readAll, ih]
    cases readSample sample with
    | none => rfl
    | some text => cases readAll samples <;> cases readAll samples' <;> simp

theorem length_encode_le (s : WString) : (encode s).length ≤ utf8Size s := by
  induction s with
  | nil => rfl
  | cons w s ih =>
    have hw : (Amf.encodeChar w).length ≤ Amf.charSize w := by
      unfold Amf.encodeChar Amf.charSize
      split_ifs <;> simp
    rw [encode, List.flatMap_cons, List.length_append, ← encode, Amf.utf8Size_cons]
    omega

theorem utf8Size_ofBytes_le (timestamp : UInt32) (buffer : List UInt8) :
    utf8Size (TextFrame.ofBytes timestamp buffer).value ≤ buffer.length := by
  have h : ({ ({} : UTF8Parser) with utf8size := buffer.length }).Within 0 := .inl ⟨rfl, by simp⟩
  have hfold := (h.foldl buffer).utf8Size_le
  rw [Nat.zero_add] at hfold
  simpa [TextFrame.ofBytes, UTF8Parser.setSize, UTF8Parser.parse] using hfold

theorem readSample_of_le {sample : Sample} (h : sample.data.length ≤ 2) :
    readSample sample = some [] := by
  rw [readSample, if_neg (Nat.not_lt.2 h)]

theorem readAll_of_le {samples : List Sample} (h : ∀ sample ∈ samples, sample.data.length ≤ 2) :
    readAll samples = some [] := by
  induction samples with
  | nil => rfl
  | cons sample samples ih =>
    rw [readAll, readSample_of_le (h sample List.mem_cons_self),
      ih fun sample hm => h sample (List.mem_cons_of_mem _ hm)]
    rfl

theorem flushTextFrame_eq (frame : TextFrame) (duration : UInt32) :
    ∃ rest, flushTextFrame frame duration =
      ⟨be2 (encode frame.value).length ++ encode frame.value, min duration.toNat 7000, 0, false⟩ ::
        rest ∧ ∀ sample ∈ rest, sample.data.length ≤ 2 := by
  refine ⟨_, rfl, ?_⟩
  intro sample hm
  split_ifs at hm
  · obtain rfl := List.mem_singleton.1 hm
    exact Nat.le_refl 2
  · exact absurd hm List.not_mem_nil

theorem readSample_text {data : List UInt8} {d : Nat} (hdata : data ≠ [])
    (h : readSample ⟨be2 data.length ++ data, d, 0, false⟩ = some texts) :
    utf8Size texts.flatten < data.length := by
  have hpos := List.length_pos_iff.2 hdata
  rw [readSample, if_pos (by simp; omega), get2_be2, Option.bind_eq_bind, Option.bind_some,
    Option.bind_eq_bind, Option.bind_eq_some_iff] at h
  obtain ⟨text, hslice, htexts⟩ := h
  dsimp only at hslice
  have hfits := (isSome_slice _ _ _).1 (Option.isSome_of_eq_some hslice)
  have hlen := length_of_slice hslice
  have hle := utf8Size_ofBytes_le 0 text
  obtain rfl : texts = [(TextFrame.ofBytes 0 text).value] := (Option.some.inj htexts).symm
  rw [List.length_append, length_be2] at hfits
  rw [List.flatten_singleton]
  omega

theorem readAll_flushTextFrame (h : readAll (flushTextFrame frame duration) = some texts) :
    utf8Size texts.flatten ≤ utf8Size frame.value ∧
      (frame.value ≠ [] → utf8Size texts.flatten < utf8Size frame.value) := by
  obtain ⟨rest, heq, hrest⟩ := flushTextFrame_eq frame duration
  have hle := length_encode_le frame.value
  rw [heq, readAll, readAll_of_le hrest] at h
  by_cases hsize : encode frame.value = []
  · rw [readSample_of_le (by simp [hsize])] at h
    obtain rfl : texts = [] := by simpa using h.symm
    refine ⟨Nat.zero_le _, fun hv => ?_⟩
    exact Nat.pos_of_ne_zero fun hzero => hv (Amf.utf8Size_eq_zero.1 hzero)
  · cases hsample : readSample ⟨be2 (encode frame.value).length ++ encode frame.value,
        min duration.toNat 7000, 0, false⟩ with
    | none => simp [hsample] at h
    | some text =>
      have hlt := readSample_text hsize hsample
      obtain rfl : texts = text := by simpa [hsample] using h.symm
      exact ⟨by omega, fun _ => by omega⟩

theorem readAll_flushAll
    (h : readAll (flushAll textDuration flushTextFrame 1000 frames) = some texts) :
    utf8Size texts.flatten ≤ utf8Size (frames.map (·.value)).flatten ∧
      ((∃ frame ∈ frames, frame.value ≠ []) →
        utf8Size texts.flatten < utf8Size (frames.map (·.value)).flatten) := by
  induction frames generalizing texts with
  | nil =>
    obtain rfl : texts = [] := (Option.some.inj h).symm
    simp
  | cons prev frames ih =>
    obtain ⟨duration, hsplit⟩ := flushAll_cons textDuration flushTextFrame 1000 prev frames
    rw [hsplit, readAll_append, Option.bind_eq_bind, Option.bind_eq_some_iff] at h
    obtain ⟨first, hfirst, h⟩ := h
    rw [Option.bind_eq_some_iff] at h
    obtain ⟨others, hothers, h⟩ := h
    obtain rfl : texts = first ++ others := (Option.some.inj h).symm
    obtain ⟨hle, hlt⟩ := readAll_flushTextFrame hfirst
    obtain ⟨hle', hlt'⟩ := ih hothers
    rw [List.flatten_append, Amf.utf8Size_append, List.map_cons, List.flatten_cons,
      Amf.utf8Size_append]
    refine ⟨Nat.add_le_add hle hle', ?_⟩
    rintro ⟨frame, hm, hv⟩
    rcases List.mem_cons.1 hm with rfl | hm
    · exact Nat.add_lt_add_of_lt_of_le (hlt hv) hle'
    · exact Nat.add_lt_add_of_le_of_lt hle (hlt' ⟨frame, hm, hv⟩)

theorem flatten_shown (texts : List WString) : (shown texts).flatten = texts.flatten := by
  rw [shown]
  exact List.flatten_filter_ne_nil

end Reading

/-! ## Empty texts -/

section Empty

variable {frames : List TextFrame}

theorem shown_eq_nil {texts : List WString} (h : ∀ text ∈ texts, text = []) : shown texts = [] := by
  rw [shown, List.filter_eq_nil_iff]
  intro text hm
  simp [h text hm]

theorem length_of_mem_flushAll (h : ∀ frame ∈ frames, frame.value = []) {sample : Sample}
    (hm : sample ∈ flushAll textDuration flushTextFrame 1000 frames) : sample.data.length ≤ 2 := by
  induction frames with
  | nil => exact absurd hm List.not_mem_nil
  | cons prev frames ih =>
    obtain ⟨duration, hsplit⟩ := flushAll_cons textDuration flushTextFrame 1000 prev frames
    obtain ⟨rest, heq, hrest⟩ := flushTextFrame_eq prev duration
    rw [hsplit, heq, h prev List.mem_cons_self, List.cons_append, List.mem_cons,
      List.mem_append] at hm
    obtain rfl | hm | hm := hm
    · exact Nat.le_refl 2
    · exact hrest sample hm
    · exact ih (fun frame hf => h frame (List.mem_cons_of_mem _ hf)) hm

theorem play_of_le (getSampleIdFromTime : List Sample → Nat → Nat) {samples : List Sample}
    (h : ∀ sample ∈ samples, sample.data.length ≤ 2) (time : Nat) :
    ∃ texts, play getSampleIdFromTime samples time = some texts ∧ shown texts = [] := by
  have hprevious : ∀ sampleId, readPrevious samples sampleId = some [[]] ∨
      readPrevious samples sampleId = some [] := by
    intro sampleId
    by_cases hone : sampleId = 1
    · exact .inl (if_pos hone)
    · right
      rw [readPrevious, if_neg hone]
      dsimp only
      cases hsample : samples[(if sampleId = 0 then samples.length else sampleId - 1) - 1]? with
      | none => rfl
      | some sample => exact readSample_of_le (h sample (List.mem_of_getElem? hsample))
  rw [play]
  generalize (if time = 0 then (1, getSampleTime samples 1)
    else seek getSampleIdFromTime samples time) = next
  have hloop : playLoop samples next = some [] := by
    rw [playLoop, readAll_of_le fun sample hm => h sample (List.mem_of_mem_drop hm), ite_self]
  have hfirst : playPrevious samples time next = some [[]] ∨
      playPrevious samples time next = some [] := by
    rw [playPrevious]
    split
    · exact hprevious next.1
    · exact .inr rfl
  rcases hfirst with hfirst | hfirst
  · exact ⟨[[]], by rw [hfirst, hloop]; rfl, rfl⟩
  · exact ⟨[], by rw [hfirst, hloop]; rfl, rfl⟩

end Empty

/-! ## The end of every text is lost -/

theorem play_zero {getSampleIdFromTime : List Sample → Nat → Nat} {samples : List Sample}
    {texts : List WString} (h : play getSampleIdFromTime samples 0 = some texts) :
    ∃ texts', readAll samples = some texts' ∧ shown texts = shown texts' := by
  rw [play, if_pos rfl, Option.bind_eq_bind, Option.bind_eq_some_iff] at h
  obtain ⟨previous, hprevious, h⟩ := h
  rw [Option.bind_eq_some_iff] at h
  obtain ⟨rest, hrest, h⟩ := h
  obtain rfl : texts = previous ++ rest := (Option.some.inj h).symm
  cases samples with
  | nil =>
    obtain rfl : [[]] = previous := Option.some.inj hprevious
    obtain rfl : [] = rest := Option.some.inj hrest
    exact ⟨[], rfl, rfl⟩
  | cons sample samples =>
    have htime : getSampleTime (sample :: samples) 1 = some 0 := by
      rw [getSampleTime, if_pos (by simp), start, Nat.sub_self]
      rfl
    rw [htime] at hprevious hrest
    obtain rfl : [] = previous := Option.some.inj hprevious
    exact ⟨rest, hrest, rfl⟩

theorem recordedFrom_zero (frames : List TextFrame) : recordedFrom frames 0 = frames := by
  rw [recordedFrom, List.filter_eq_self]
  simp

/-- A text track comes back as it was recorded exactly if there is no text in it. -/
theorem texts_roundTrip_iff (getSampleIdFromTime : List Sample → Nat → Nat) (frames : List TextFrame) :
    RoundTrips getSampleIdFromTime frames ↔ ∀ frame ∈ frames, frame.value = [] := by
  constructor
  · intro h
    obtain ⟨texts, hplay, hall, hrecorded⟩ := h 0
    obtain ⟨texts', hread, hshown⟩ := play_zero hplay
    rw [recordedFrom_zero, hshown] at hall
    rw [hshown] at hrecorded
    have heq := congrArg List.flatten (hall.eq_of_length_le hrecorded.length_le)
    rw [flatten_shown, flatten_shown] at heq
    rw [recordText_eq] at hread
    obtain ⟨-, hlt⟩ := readAll_flushAll hread
    intro frame hm
    by_contra hne
    exact absurd (hlt ⟨frame, hm, hne⟩) (by rw [heq]; exact Nat.lt_irrefl _)
  · intro h time
    obtain ⟨texts, hplay, hshown⟩ := play_of_le getSampleIdFromTime
      (fun sample hm => length_of_mem_flushAll h (recordText_eq frames ▸ hm)) time
    refine ⟨texts, hplay, ?_⟩
    have hempty (part : List TextFrame) (hsub : ∀ frame ∈ part, frame ∈ frames) :
        shown (part.map (·.value)) = [] := by
      refine shown_eq_nil fun text hm => ?_
      obtain ⟨frame, hf, rfl⟩ := List.mem_map.1 hm
      exact h frame (hsub frame hf)
    rw [hshown, hempty frames fun _ hf => hf,
      hempty (recordedFrom frames time) fun _ hf => List.mem_of_mem_filter hf]
    exact ⟨List.suffix_rfl, List.suffix_rfl⟩

/-- Of the text `abc`, only its first letter comes back. -/
theorem not_roundTrips_abc :
    ¬ RoundTrips (fun _ time => if time < 1000 then 1 else 0) [⟨0, [0x61, 0x62, 0x63]⟩] := by
  intro h
  obtain ⟨texts, hplay, -, hsuffix⟩ := h 0
  have habc : play (fun _ time => if time < 1000 then 1 else 0)
      (recordText [⟨0, [0x61, 0x62, 0x63]⟩]) 0 = some [[0x61]] := by decide
  rw [habc] at hplay
  obtain rfl := Option.some.inj hplay
  revert hsuffix
  decide

end McuMediaServer.Mp4
