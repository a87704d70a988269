import McuMediaServer.Base.Run
import McuMediaServer.Video.H263Decoder
import McuMediaServer.Video.VP8Decoder

/-!
# What the video depacketizers touch

Every byte that a depacketizer reads or writes is inside the payload it is given or inside its own buffer
exactly when the payloads meet a condition, one for each depacketizer. The runs are over payloads of any
bytes and sizes, with any loss flags and marks.
-/

namespace McuMediaServer

open StepRun

/-- A packet as it is given to a decoder. -/
structure VideoPacket where
  payload : RTPPayload
  lost : Bool
  last : Bool

namespace H264Decoder

def step (ffmpeg : FFmpeg) (dec : H264Decoder) (packet : VideoPacket) : Option H264Decoder :=
  (dec.decodePacket ffmpeg packet.payload.data packet.last).map Prod.snd

/-- A fragment that is looked at has an FU header. -/
def Safe (ffmpeg : FFmpeg) (dec : H264Decoder) (packet : VideoPacket) : Prop :=
  dec.bufLen + packet.payload.data.length + ffmpeg.inputBufferPaddingSize ≤ bufSize →
    HasFuHeader packet.payload.data

theorem isSome_run_iff (ffmpeg : FFmpeg) (packets : List VideoPacket) :
    (packets.foldlM (step ffmpeg) new).isSome ↔
      MeetsM (step ffmpeg) (Safe ffmpeg) new packets := by
  refine isSome_foldlM_iff (I := Inv ffmpeg) ?_ ?_ (inv_new ffmpeg) packets
  · intro dec packet h
    rw [step, Option.isSome_map]
    exact isSome_decodePacket h
  · intro dec packet dec' h hstep
    rw [step, Option.map_eq_some_iff] at hstep
    obtain ⟨⟨bitstream, dec₁⟩, hdecode, rfl⟩ := hstep
    exact h.decodePacket hdecode

end H264Decoder

namespace H264Depacketizer

/-- What is done with the depacketizer; `none` resets the frame. -/
def step (d : H264Depacketizer) : Option RTPPayload → Option H264Depacketizer
  | some payload => (d.addPayload payload.data).map Prod.snd
  | none => some d.resetFrame

/-- A payload that is added is safe. -/
def SafeStep (d : H264Depacketizer) : Option RTPPayload → Prop
  | some payload => d.Safe payload.data
  | none => True

theorem isSome_run_iff (calls : List (Option RTPPayload)) :
    (calls.foldlM step new).isSome ↔ MeetsM step SafeStep new calls := by
  refine isSome_foldlM_iff (I := Inv) ?_ ?_ Inv.new calls
  · intro d call h
    cases call with
    | none => exact iff_of_true rfl trivial
    | some payload =>
      rw [step, Option.isSome_map]
      exact isSome_addPayload h payload.length_lt
  · intro d call d' h hstep
    cases call with
    | none =>
      obtain rfl := Option.some.inj hstep
      exact h.resetFrame
    | some payload =>
      rw [step, Option.map_eq_some_iff] at hstep
      obtain ⟨⟨r, d₁⟩, hadd, rfl⟩ := hstep
      obtain ⟨data, -, hstepped⟩ := stepped_of_addPayload h payload.length_lt hadd
      exact hstepped.inv

end H264Depacketizer

namespace VP8Decoder

def step (dec : VP8Decoder) (packet : VideoPacket) : Option VP8Decoder :=
  (dec.decodePacket packet.payload.data packet.lost packet.last).map Prod.snd

theorem isSome_run_iff (packets : List VideoPacket) :
    (packets.foldlM step new).isSome ↔
      MeetsM step (fun dec packet => dec.Safe packet.payload.data packet.lost) new packets := by
  refine isSome_foldlM_iff (I := Inv) ?_ ?_ inv_new packets
  · intro dec packet h
    rw [step, Option.isSome_map]
    exact isSome_decodePacket h
  · intro dec packet dec' h hstep
    rw [step, Option.map_eq_some_iff] at hstep
    obtain ⟨⟨partitions, dec₁⟩, hdecode, rfl⟩ := hstep
    exact h.decodePacket hdecode

end VP8Decoder

namespace H263Decoder

def step (ffmpeg : FFmpeg) (dec : H263Decoder) (packet : VideoPacket) : Option H263Decoder :=
  (dec.decodePacket ffmpeg packet.payload.data packet.last).map Prod.snd

theorem isSome_run_iff (ffmpeg : FFmpeg) (packets : List VideoPacket) :
    (packets.foldlM (step ffmpeg) new).isSome ↔
      MeetsM (step ffmpeg) (fun dec packet => dec.Safe ffmpeg packet.payload.data) new packets := by
  refine isSome_foldlM_iff (I := Inv ffmpeg) ?_ ?_ (inv_new ffmpeg) packets
  · intro dec packet h
    rw [step, Option.isSome_map]
    exact isSome_decodePacket h
  · intro dec packet dec' h hstep
    rw [step, Option.map_eq_some_iff] at hstep
    obtain ⟨⟨bitstream, dec₁⟩, hdecode, rfl⟩ := hstep
    exact h.decodePacket hdecode

end H263Decoder

namespace H263Decoder1996

open H263HeadersBasic

def step (ffmpeg : FFmpeg) (dec : H263Decoder1996) (packet : VideoPacket) :
    Option H263Decoder1996 :=
  (dec.decodePacket ffmpeg packet.payload.data packet.last).map Outcome.decoder

/-- The decoder for RFC 2190 that is not to write to a payload. -/
def stepWithin (ffmpeg : FFmpeg) (dec : H263Decoder1996) (packet : VideoPacket) :
    Option H263Decoder1996 :=
  (dec.decodePacket ffmpeg packet.payload.data packet.last).bind fun outcome =>
    if outcome.writesPayload then none else some outcome.decoder

theorem isSome_run_iff (ffmpeg : FFmpeg) (packets : List VideoPacket) :
    (packets.foldlM (step ffmpeg) new).isSome ↔
      MeetsM (step ffmpeg) (fun _ packet =>
        packet.payload.data.length ≠ headersSize packet.payload.data) new packets := by
  refine isSome_foldlM_iff (I := Inv ffmpeg) ?_ ?_ (inv_new ffmpeg) packets
  · intro dec packet h
    obtain ⟨hsafe, houtside⟩ := @decodePacket_spec _ _ packet.payload.data h packet.last
    rw [step, Option.isSome_map]
    by_cases hlength : packet.payload.data.length = headersSize packet.payload.data
    · rw [houtside hlength]
      exact iff_of_false (by simp) (fun hne => hne hlength)
    · obtain ⟨outcome, houtcome, -⟩ := hsafe hlength
      rw [houtcome]
      exact iff_of_true rfl hlength
  · intro dec packet dec' h hstep
    obtain ⟨hsafe, houtside⟩ := @decodePacket_spec _ _ packet.payload.data h packet.last
    rw [step, Option.map_eq_some_iff] at hstep
    obtain ⟨outcome, hdecode, rfl⟩ := hstep
    have hlength : packet.payload.data.length ≠ headersSize packet.payload.data := by
      intro hlength
      rw [houtside hlength] at hdecode
      cases hdecode
    obtain ⟨outcome', houtcome, hinv, -⟩ := hsafe hlength
    obtain rfl := Option.some.inj (houtcome.symm.trans hdecode)
    exact hinv

theorem isSome_runWithin_iff (ffmpeg : FFmpeg) (packets : List VideoPacket) :
    (packets.foldlM (stepWithin ffmpeg) new).isSome ↔
      MeetsM (stepWithin ffmpeg) (fun _ packet =>
        packet.payload.data.length < headersSize packet.payload.data) new packets := by
  refine isSome_foldlM_iff (I := Inv ffmpeg) ?_ ?_ (inv_new ffmpeg) packets
  · intro dec packet h
    obtain ⟨hsafe, houtside⟩ := @decodePacket_spec _ _ packet.payload.data h packet.last
    rw [stepWithin]
    by_cases hlength : packet.payload.data.length = headersSize packet.payload.data
    · rw [houtside hlength]
      exact iff_of_false (by simp) (Nat.not_lt.2 (Nat.le_of_eq hlength.symm))
    · obtain ⟨outcome, houtcome, -, hwrites⟩ := hsafe hlength
      rw [houtcome, Option.bind_some]
      by_cases hmasks : outcome.writesPayload = true
      · rw [if_pos hmasks]
        exact iff_of_false (by simp) (Nat.not_lt.2 (hwrites.1 hmasks))
      · rw [if_neg hmasks]
        exact iff_of_true rfl (Nat.lt_of_not_le (mt hwrites.2 hmasks))
  · intro dec packet dec' h hstep
    obtain ⟨hsafe, houtside⟩ := @decodePacket_spec _ _ packet.payload.data h packet.last
    rw [stepWithin, Option.bind_eq_some_iff] at hstep
    obtain ⟨outcome, hdecode, houtcome⟩ := hstep
    have hlength : packet.payload.data.length ≠ headersSize packet.payload.data := by
      intro hlength
      rw [houtside hlength] at hdecode
      cases hdecode
    obtain ⟨outcome', houtcome, hinv, -⟩ := hsafe hlength
    obtain rfl := Option.some.inj (houtcome.symm.trans hdecode)
    by_cases hmasks : outcome'.writesPayload = true
    · rw [if_pos hmasks] at houtcome
      cases houtcome
    · rw [if_neg hmasks] at houtcome
      obtain rfl := Option.some.inj houtcome
      exact hinv

end H263Decoder1996

/-- **The depacketizers stay inside the payload and their own buffer exactly when** a fragment has
an FU header (`H264Decoder`), an aggregate is short and has its NAL units inside, a fragment has an
FU header and the last one comes after a first one, and the frame can grow (`H264Depacketizer`), a
descriptor and headers are inside the payload (`VP8Decoder` and `H263Decoder`) and a payload is
refused as too short (`H263Decoder1996`, which masks bits in every other payload, and reads behind
one that ends with its headers). -/
theorem depacketizers_stayInside_iff (ffmpeg : FFmpeg) (packets : List VideoPacket)
    (calls : List (Option RTPPayload)) :
    ((packets.foldlM (H264Decoder.step ffmpeg) H264Decoder.new).isSome ↔
        MeetsM (H264Decoder.step ffmpeg) (H264Decoder.Safe ffmpeg) H264Decoder.new packets) ∧
      ((calls.foldlM H264Depacketizer.step H264Depacketizer.new).isSome ↔
        MeetsM H264Depacketizer.step H264Depacketizer.SafeStep H264Depacketizer.new calls) ∧
      ((packets.foldlM VP8Decoder.step VP8Decoder.new).isSome ↔
        MeetsM VP8Decoder.step (fun dec packet => dec.Safe packet.payload.data packet.lost)
          VP8Decoder.new packets) ∧
      ((packets.foldlM (H263Decoder.step ffmpeg) H263Decoder.new).isSome ↔
        MeetsM (H263Decoder.step ffmpeg) (fun dec packet => dec.Safe ffmpeg packet.payload.data)
          H263Decoder.new packets) ∧
      ((packets.foldlM (H263Decoder1996.step ffmpeg) H263Decoder1996.new).isSome ↔
        MeetsM (H263Decoder1996.step ffmpeg) (fun _ packet => packet.payload.data.length ≠
          H263HeadersBasic.headersSize packet.payload.data) H263Decoder1996.new packets) ∧
      ((packets.foldlM (H263Decoder1996.stepWithin ffmpeg) H263Decoder1996.new).isSome ↔
        MeetsM (H263Decoder1996.stepWithin ffmpeg) (fun _ packet => packet.payload.data.length <
          H263HeadersBasic.headersSize packet.payload.data) H263Decoder1996.new packets) :=
  ⟨H264Decoder.isSome_run_iff ffmpeg packets, H264Depacketizer.isSome_run_iff calls,
    VP8Decoder.isSome_run_iff packets, H263Decoder.isSome_run_iff ffmpeg packets,
    H263Decoder1996.isSome_run_iff ffmpeg packets, H263Decoder1996.isSome_runWithin_iff ffmpeg packets⟩

/-- A fragment without its FU header. -/
def truncatedFragment : VideoPacket := ⟨⟨[0x7C], by decide⟩, false, true⟩

/-- Its second byte is read all the same. -/
theorem truncatedFragment_leaves :
    ¬ ([truncatedFragment].foldlM (H264Decoder.step H264Decoder.padding32) H264Decoder.new).isSome := by
  rw [H264Decoder.isSome_run_iff]
  intro hmeets
  exact hmeets.1 (by decide) (by decide)

end McuMediaServer
