import McuMediaServer.Base.Bytes

/-!
# The tracks of a recording

A track keeps the last frame it was given, because the duration of its sample is only known when
the next one comes. What is left is written when the track is closed.
-/

namespace McuMediaServer.Mp4

/-- What `MP4WriteSample` is called with. Reference: `mp4recorder.cpp:138`. -/
structure Sample where
  data : List UInt8
  duration : Nat
  renderingOffset : Nat
  isSyncSample : Bool
  deriving DecidableEq, Repr

/-- The ticks in front of a sample. -/
def start (samples : List Sample) (k : Nat) : Nat :=
  ((samples.take k).map (·.duration)).sum

/-- Reference: `media.h:8`. -/
structure MediaFrame where
  ts : UInt32
  data : List UInt8
  deriving DecidableEq, Repr

/-- Reference: `audio.h:34`. -/
structure AudioFrame extends MediaFrame where
  rate : UInt32
  deriving DecidableEq, Repr

/-- Reference: `video.h:7`. -/
structure VideoFrame extends MediaFrame where
  isIntra : Bool
  deriving DecidableEq, Repr

/-- A track with the frame that is not written yet. Reference: `mp4recorder.h:13`. -/
structure Track (φ : Type) where
  frame : Option φ := none
  samples : List Sample := []

namespace Track

variable {φ : Type}

/-- What the tracks of all media do with a frame. Reference: `mp4recorder.cpp:162`. -/
def write (duration : φ → φ → UInt32) (flush : φ → UInt32 → List Sample) (track : Track φ)
    (frame : φ) : Track φ :=
  match track.frame with
  | none => { track with frame := some frame }
  | some prev =>
    { frame := some frame
      samples := track.samples ++ flush prev (duration frame prev) }

/-- Reference: `mp4recorder.cpp:372`. -/
def close (flush : φ → UInt32 → List Sample) (duration : UInt32) (track : Track φ) : Track φ :=
  match track.frame with
  | none => track
  | some frame => { frame := none, samples := track.samples ++ flush frame duration }

/-- The samples of a track that is given some frames and closed. -/
def samplesOf (duration : φ → φ → UInt32) (flush : φ → UInt32 → List Sample) (last : UInt32)
    (frames : List φ) : List Sample :=
  ((frames.foldl (write duration flush) {}).close flush last).samples

section Samples

variable (duration : φ → φ → UInt32) (flush : φ → UInt32 → List Sample) (last : UInt32)

/-- Each frame goes with the one behind it. -/
def flushAll : List φ → List Sample
  | [] => []
  | [frame] => flush frame last
  | prev :: frame :: frames =>
    flush prev (duration frame prev) ++ flushAll (frame :: frames)

theorem flushAll_cons (prev : φ) (frames : List φ) :
    ∃ d, flushAll duration flush last (prev :: frames) =
      flush prev d ++ flushAll duration flush last frames := by
  cases frames with
  | nil => exact ⟨last, by rw [flushAll, flushAll, List.append_nil]⟩
  | cons frame frames => exact ⟨duration frame prev, rfl⟩

theorem foldl_write (frames : List φ) (prev : φ) (samples : List Sample) :
    ((frames.foldl (write duration flush) ⟨some prev, samples⟩).close flush last).samples =
      samples ++ flushAll duration flush last (prev :: frames) := by
  induction frames generalizing prev samples with
  | nil => rfl
  | cons frame frames ih =>
    rw [List.foldl_cons, write, ih, flushAll, List.append_assoc]

theorem samplesOf_eq (frames : List φ) :
    samplesOf duration flush last frames = flushAll duration flush last frames := by
  cases frames with
  | nil => rfl
  | cons frame frames =>
    rw [samplesOf, List.foldl_cons, write, foldl_write]
    rfl

end Samples

/-! ## Audio and video -/

/-- Reference: `mp4recorder.cpp:135`. -/
def flushAudioFrame (frame : AudioFrame) (duration : UInt32) : List Sample :=
  [⟨frame.data, duration.toNat, 0, true⟩]

/-- Reference: `mp4recorder.cpp:179`. -/
def audioDuration (frame prev : AudioFrame) : UInt32 :=
  (frame.ts - prev.ts) * frame.rate / 1000

/-- Reference: `mp4recorder.cpp:162`. -/
def writeAudioFrame : Track AudioFrame → AudioFrame → Track AudioFrame :=
  write audioDuration flushAudioFrame

/-- Reference: `mp4recorder.cpp:188`. -/
def flushVideoFrame (frame : VideoFrame) (duration : UInt32) : List Sample :=
  [⟨frame.data, duration.toNat, 0, frame.isIntra⟩]

/-- Reference: `mp4recorder.cpp:289`. -/
def videoDuration (frame prev : VideoFrame) : UInt32 :=
  (frame.ts - prev.ts) * 90

/-- Reference: `mp4recorder.cpp:272`. -/
def writeVideoFrame : Track VideoFrame → VideoFrame → Track VideoFrame :=
  write videoDuration flushVideoFrame

/-- Reference: `mp4recorder.cpp:380`. -/
def closeAudio : Track AudioFrame → Track AudioFrame :=
  close flushAudioFrame 8000

/-- Reference: `mp4recorder.cpp:384`. -/
def closeVideo : Track VideoFrame → Track VideoFrame :=
  close flushVideoFrame 90000

/-- What is written of some audio frames. -/
def recordAudio (frames : List AudioFrame) : List Sample :=
  (frames.foldl writeAudioFrame {}).closeAudio.samples

/-- What is written of some video frames. -/
def recordVideo (frames : List VideoFrame) : List Sample :=
  (frames.foldl writeVideoFrame {}).closeVideo.samples

theorem recordAudio_eq (frames : List AudioFrame) :
    recordAudio frames = flushAll audioDuration flushAudioFrame 8000 frames :=
  samplesOf_eq audioDuration flushAudioFrame 8000 frames

theorem recordVideo_eq (frames : List VideoFrame) :
    recordVideo frames = flushAll videoDuration flushVideoFrame 90000 frames :=
  samplesOf_eq videoDuration flushVideoFrame 90000 frames

end Track

end McuMediaServer.Mp4
