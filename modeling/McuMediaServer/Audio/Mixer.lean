import Mathlib.Data.BitVec
import Mathlib.Algebra.BigOperators.Group.List.Basic
import McuMediaServer.Base.Blocks

/-!
# The audio mixer

Each participant has a buffer of samples and listens to a sidebar, the members of which are mixed.
In a round the samples that have arrived are taken into the buffers, the buffers of the members are
added up in each sidebar, and each participant is handed the sum with its own samples taken away
again. The buffers are summed eight samples at a time.
-/

namespace McuMediaServer

namespace Audio

open Blocks

/-- A sample. -/
abbrev SWORD := BitVec 16

/-- Reference: `sidebar.h:32`. -/
def mixerBufferSize : Nat := 4096

/-- How many registers of eight samples a number of samples takes. Reference: `sidebar.cpp:34`. -/
def registers (len : Nat) : Nat :=
  (len + 7) / 8

/-- Memory that is allocated for the samples of a mixer. Reference: `sidebar.cpp:15`. -/
structure Buffer where
  samples : List SWORD
  length_samples : samples.length = mixerBufferSize

namespace Buffer

/-- A buffer of silence. -/
def silence : Buffer := ⟨List.replicate mixerBufferSize 0, List.length_replicate⟩

/-- A sample of the buffer. -/
def get (buffer : Buffer) (k : Nat) : SWORD :=
  buffer.samples.getD k 0

/-- Sum with another buffer, register by register, as far as `len` goes. -/
def combine (f : SWORD → SWORD → SWORD) (d s : Buffer) (len : Nat) (hlen : len ≤ mixerBufferSize) :
    Buffer where
  samples := zipBlocks f 8 (registers len) d.samples s.samples
  length_samples := by
    have h : 8 * registers len ≤ mixerBufferSize := by
      simp only [registers, mixerBufferSize] at hlen ⊢
      omega
    rw [length_zipBlocks (by rwa [d.length_samples]) (by rwa [s.length_samples]), d.length_samples]

/-- Copy samples over a part of the buffer. -/
def copy (buffer : Buffer) (start : Nat) (samples : List SWORD)
    (hfits : start + samples.length ≤ mixerBufferSize) : Buffer where
  samples := buffer.samples.take start ++ samples ++ buffer.samples.drop (start + samples.length)
  length_samples := by
    simp only [List.length_append, List.length_take, List.length_drop, buffer.length_samples]
    omega

/-- Set so many bytes to 0, from a sample on. The first byte of a sample is its low one. -/
def clear (buffer : Buffer) (start bytes : Nat) : Buffer where
  samples := buffer.samples.mapIdx fun k sample =>
    if k < start then
      sample
    else if k < start + bytes / 2 then
      0
    else if k = start + bytes / 2 ∧ bytes % 2 = 1 then
      sample &&& 0xFF00
    else
      sample
  length_samples := by
    rw [List.length_mapIdx, buffer.length_samples]

end Buffer

/-- The participants that are mixed, and their sum. Reference: `sidebar.h:15`. -/
structure Sidebar where
  mixerBuffer : Buffer := .silence
  participants : List Int := []

namespace Sidebar

/-- Reference: `sidebar.cpp:47`. -/
def reset (sidebar : Sidebar) : Sidebar :=
  { sidebar with mixerBuffer := .silence }

/-- Reference: `sidebar.cpp:63`. -/
def hasParticipant (sidebar : Sidebar) (id : Int) : Bool :=
  id ∈ sidebar.participants

/-- Add samples to the sum. Reference: `sidebar.cpp:23`. -/
def update (sidebar : Sidebar) (samples : Buffer) (len : Nat) : Sidebar :=
  if hlen : len ≤ mixerBufferSize then
    { sidebar with mixerBuffer := sidebar.mixerBuffer.combine (· + ·) samples len hlen }
  else
    sidebar

end Sidebar

theorem zero_le_mixerBufferSize : 0 ≤ mixerBufferSize := Nat.zero_le _

/-- A participant: the samples that have arrived, the buffer of the last round, and the sidebar it
listens to. Reference: `audiomixer.h:51`. -/
structure AudioSource where
  fifo : List SWORD := []
  buffer : Buffer := .silence
  len : Nat := 0
  sidebar : Option Int := none
  len_le : len ≤ mixerBufferSize := by exact zero_le_mixerBufferSize

namespace AudioSource

/-- Take the samples of a round into the buffer and clear what is behind them. The size that is
cleared counts samples, and is taken for bytes. Reference: `audiomixer.cpp:99` and
`pipeaudiooutput.cpp:133`. -/
def getSamples (audio : AudioSource) (numSamples : Nat) (hnum : numSamples ≤ mixerBufferSize) :
    AudioSource :=
  let samples := audio.fifo.take numSamples
  have hlen : samples.length ≤ mixerBufferSize := by
    rw [List.length_take]
    omega
  { audio with
    fifo := audio.fifo.drop numSamples
    len := samples.length
    buffer := (audio.buffer.copy 0 samples (by omega)).clear samples.length
      (mixerBufferSize - samples.length)
    len_le := hlen }

/-- Take the samples of a participant out of the sum, and keep the sum behind them. Reference:
`audiomixer.cpp:132`. -/
def subtract (audio : AudioSource) (mixed : Buffer) (numSamples : Nat)
    (hnum : numSamples ≤ mixerBufferSize) : Buffer :=
  let buffer := audio.buffer.combine (fun b m => m - b) mixed audio.len audio.len_le
  if audio.len < numSamples then
    buffer.copy audio.len ((mixed.samples.drop audio.len).take (numSamples - audio.len)) (by
      have hlen := audio.len_le
      rw [List.length_take, List.length_drop, mixed.length_samples]
      omega)
  else
    buffer

end AudioSource

/-- The participants and the sidebars, each under its id. Reference: `audiomixer.h:12`. -/
structure AudioMixer where
  audios : List (Int × AudioSource) := []
  sidebars : List (Int × Sidebar) := []
  nodup_audios : (audios.map Prod.fst).Nodup

namespace AudioMixer

/-- The sidebar a participant listens to. -/
def sidebarOf (sidebars : List (Int × Sidebar)) (audio : AudioSource) : Option Sidebar :=
  audio.sidebar.bind fun sid => sidebars.lookup sid

/-- The first pass: the buffer of a participant is added to the sidebars it is in. Reference:
`audiomixer.cpp:104`. -/
def updateSidebars (sidebars : List (Int × Sidebar)) (e : Int × AudioSource) :
    List (Int × Sidebar) :=
  sidebars.map fun (sid, sidebar) =>
    (sid, if sidebar.hasParticipant e.1 then sidebar.update e.2.buffer e.2.len else sidebar)

/-- The second pass: the buffer a participant is left with, and what it is handed. Reference:
`audiomixer.cpp:119`. -/
def output (sidebars : List (Int × Sidebar)) (numSamples : Nat)
    (hnum : numSamples ≤ mixerBufferSize) (e : Int × AudioSource) :
    AudioSource × Option (List SWORD) :=
  match sidebarOf sidebars e.2 with
  | none => (e.2, none)
  | some sidebar =>
    if sidebar.hasParticipant e.1 then
      let buffer := e.2.subtract sidebar.mixerBuffer numSamples hnum
      ({ e.2 with buffer }, some (buffer.samples.take numSamples))
    else
      (e.2, some (sidebar.mixerBuffer.samples.take numSamples))

/-- The samples of a round. Reference: `audiomixer.cpp:79`. -/
def sampled (am : AudioMixer) (numSamples : Nat) : List (Int × AudioSource) :=
  am.audios.map fun (id, audio) =>
    (id, audio.getSamples (min numSamples mixerBufferSize) (Nat.min_le_right _ _))

/-- The sidebars after the first pass. Reference: `audiomixer.cpp:86`. -/
def mixed (am : AudioMixer) (numSamples : Nat) : List (Int × Sidebar) :=
  (am.sampled numSamples).foldl updateSidebars
    (am.sidebars.map fun (sid, sidebar) => (sid, sidebar.reset))

/-- A round: the mixer it leaves, and what each participant is handed. Reference:
`audiomixer.cpp:52`. -/
def mixAudio (am : AudioMixer) (numSamples : Nat) :
    AudioMixer × List (Int × Option (List SWORD)) :=
  let outputs := (am.sampled numSamples).map fun e =>
    (e.1, output (am.mixed numSamples) (min numSamples mixerBufferSize) (Nat.min_le_right _ _) e)
  ({ audios := outputs.map fun (id, audio, _) => (id, audio)
     sidebars := am.mixed numSamples
     nodup_audios := by
       have h := am.nodup_audios
       simpa [outputs, sampled, Function.comp_def] using h },
    outputs.map fun (id, _, samples) => (id, samples))

end AudioMixer

end Audio

end McuMediaServer
