import McuMediaServer.Video.H264Depacketizer

/-!
# The frame of an H.264 picture

Payloads that carry all the NAL units of a frame, and what the depacketizer makes of them: the frame
holds the NAL units one after the other, each behind its length, and the packetization notes give the
payloads back.
-/

namespace McuMediaServer

open ByteSeq ByteWriter

namespace H264

/-- The fragments of a NAL unit after the first one (FU-A), and what they carry of it. -/
inductive Fragments : List (List UInt8) → List UInt8 → Prop
  | last {indicator fuHeader : UInt8} {body : List UInt8} (htype : nalUnitType indicator = 28)
      (hstart : ¬ isStart fuHeader) (hend : isEnd fuHeader) :
      Fragments [indicator :: fuHeader :: body] body
  | more {indicator fuHeader : UInt8} {body rest : List UInt8} {payloads : List (List UInt8)}
      (htype : nalUnitType indicator = 28) (hstart : ¬ isStart fuHeader) (hend : ¬ isEnd fuHeader)
      (hrest : Fragments payloads rest) :
      Fragments ((indicator :: fuHeader :: body) :: payloads) (body ++ rest)

/-- All the fragments of a NAL unit. -/
inductive Fragmented : List (List UInt8) → List UInt8 → Prop
  | whole {indicator fuHeader : UInt8} {body : List UInt8} (htype : nalUnitType indicator = 28)
      (hstart : isStart fuHeader) (hend : isEnd fuHeader) :
      Fragmented [indicator :: fuHeader :: body] (reconstruct indicator fuHeader :: body)
  | split {indicator fuHeader : UInt8} {body rest : List UInt8} {payloads : List (List UInt8)}
      (htype : nalUnitType indicator = 28) (hstart : isStart fuHeader) (hend : ¬ isEnd fuHeader)
      (hrest : Fragments payloads rest) :
      Fragmented ((indicator :: fuHeader :: body) :: payloads)
        (reconstruct indicator fuHeader :: (body ++ rest))

/-- The NAL units of an aggregate, each behind its size. -/
def aggregated (nals : List (List UInt8)) : List UInt8 :=
  nals.flatMap fun nal => be2 nal.length ++ nal

/-- Payloads that carry NAL units, with none lost: packets that are a NAL unit (types 1 to 23),
aggregates (STAP-A) and all the fragments of a NAL unit (FU-A). -/
inductive Carry : List (List UInt8) → List (List UInt8) → Prop
  | nil : Carry [] []
  | single {header : UInt8} {body : List UInt8} {payloads nals : List (List UInt8)}
      (htype : packetType header = .single) (hrest : Carry payloads nals) :
      Carry ((header :: body) :: payloads) ((header :: body) :: nals)
  | stapA {header : UInt8} {units payloads nals : List (List UInt8)}
      (htype : packetType header = .aggregate)
      (hunits : ∀ nal ∈ units, nal ≠ [] ∧ nal.length < 2 ^ 16) (hrest : Carry payloads nals) :
      Carry ((header :: aggregated units) :: payloads) (units ++ nals)
  | fuA {fragments payloads nals : List (List UInt8)} {nal : List UInt8}
      (hfragments : Fragmented fragments nal) (hrest : Carry payloads nals) :
      Carry (fragments ++ payloads) (nal :: nals)

/-- NAL units one after the other, each behind its length. -/
def framed (nals : List (List UInt8)) : List UInt8 :=
  nals.flatMap fun nal => be4 nal.length ++ nal

section Lemmas

variable {nals : List (List UInt8)}

theorem packetType_of_fuA {indicator : UInt8} (h : nalUnitType indicator = 28) :
    packetType indicator = .fragment := by
  simp [packetType, h]

theorem framed_append (xs ys : List (List UInt8)) : framed (xs ++ ys) = framed xs ++ framed ys :=
  List.flatMap_append

theorem framed_cons (nal : List UInt8) (nals : List (List UInt8)) :
    framed (nal :: nals) = be4 nal.length ++ nal ++ framed nals :=
  List.flatMap_cons

theorem framed_singleton (nal : List UInt8) : framed [nal] = be4 nal.length ++ nal := by
  rw [framed, List.flatMap_singleton]

theorem flatten_lengthPrefixed (nals : List (List UInt8)) :
    (nals.flatMap H264Depacketizer.lengthPrefixed).flatten = framed nals := by
  induction nals with
  | nil => rfl
  | cons nal nals ih =>
    rw [List.flatMap_cons, List.flatten_append, ih]
    simp [H264Depacketizer.lengthPrefixed, framed]

theorem aggregates_aggregated (h : ∀ nal ∈ nals, nal ≠ [] ∧ nal.length < 2 ^ 16) :
    H264Depacketizer.aggregates (aggregated nals) = some nals := by
  induction nals with
  | nil =>
    rw [H264Depacketizer.aggregates]
    intro high low first rest h
    cases h
  | cons nal nals ih =>
    rw [List.forall_mem_cons] at h
    obtain ⟨⟨hne, hlt⟩, hrest⟩ := h
    obtain ⟨first, rest, rfl⟩ := List.exists_cons_of_ne_nil hne
    have hbytes : aggregated ((first :: rest) :: nals) =
        UInt8.ofNat ((first :: rest).length / 2 ^ 8) :: UInt8.ofNat (first :: rest).length ::
          first :: (rest ++ aggregated nals) := by
      simp [aggregated, be2, be1]
    have hsize : (UInt8.ofNat ((first :: rest).length / 2 ^ 8)).toNat * 2 ^ 8 +
        (UInt8.ofNat (first :: rest).length).toNat = (first :: rest).length := by
      simp only [UInt8.toNat_ofNat']
      omega
    rw [hbytes, H264Depacketizer.aggregates]
    simp only [hsize]
    rw [← List.cons_append, slice_left, Option.bind_eq_bind, Option.bind_some,
      List.drop_left' rfl, ih hrest]
    rfl

/-! ## Nothing is missing -/

open H264Depacketizer

theorem ready_append_of_fragments {started : Prop} {fragments payloads : List (List UInt8)}
    {rest : List UInt8} (h : Fragments fragments rest) (hstarted : started)
    (hready : Ready started payloads) : Ready started (fragments ++ payloads) := by
  induction h with
  | last htype =>
    refine ⟨by simp [pieces, packetType_of_fuA htype], fun _ => hstarted, ?_⟩
    exact hready.mono .inl
  | more htype _ _ _ ih =>
    refine ⟨by simp [pieces, packetType_of_fuA htype], fun _ => hstarted, ?_⟩
    exact ih.mono .inl

theorem ready_of_carry {payloads : List (List UInt8)} (h : Carry payloads nals) (started : Prop) :
    Ready started payloads := by
  induction h generalizing started with
  | nil => trivial
  | @single header body _ _ htype _ ih =>
    refine ⟨by simp [pieces, htype], ?_, ih _⟩
    intro hends
    cases body <;> simp [EndsOnly, htype] at hends
  | @stapA header units _ _ htype hunits _ ih =>
    refine ⟨by simp [pieces, htype, aggregates_aggregated hunits], ?_, ih _⟩
    intro hends
    rcases haggregated : aggregated units with _ | ⟨first, rest⟩ <;>
      simp [EndsOnly, htype, haggregated] at hends
  | fuA hfragments _ ih =>
    cases hfragments with
    | whole htype hstart _ =>
      refine ⟨by simp [pieces, packetType_of_fuA htype], ?_, ih _⟩
      intro hends
      exact absurd hstart hends.2.2
    | split htype hstart hend hrest =>
      refine ⟨by simp [pieces, packetType_of_fuA htype], ?_, ?_⟩
      · intro hends
        exact absurd hstart hends.2.2
      · exact ready_append_of_fragments hrest (.inr ⟨packetType_of_fuA htype, hstart⟩) (ih _)

end Lemmas

end H264

open H264

namespace H264Depacketizer

/-- A packetization note gives a payload back: its prefix and a slice of the media. -/
def Sends (media : List UInt8) (note : RtpPacketization) (payload : List UInt8) : Prop :=
  note.pos + note.size ≤ media.length ∧
    note.prefixData ++ (media.drop note.pos).take note.size = payload

/-- The frame holds NAL units, and the notes give the payloads back that carried them. -/
structure Built (d : H264Depacketizer) (nals sent : List (List UInt8)) : Prop where
  inv : d.Inv
  media : d.frame.media = framed nals
  sends : List.Forall₂ (Sends d.frame.media) d.frame.rtpInfo sent

/-- The frame holds NAL units and the beginning of one whose size is not known yet; the notes give
the payloads back whatever the size will be. -/
structure Building (d : H264Depacketizer) (nals : List (List UInt8)) (nal : List UInt8)
    (sent : List (List UInt8)) : Prop where
  inv : d.Inv
  ini : d.iniFragNALU = some (framed nals).length
  media : ∃ size, size.length = 4 ∧ d.frame.media = framed nals ++ (size ++ nal)
  sends : ∀ size, size.length = 4 →
    List.Forall₂ (Sends (framed nals ++ (size ++ nal))) d.frame.rtpInfo sent

variable {note : RtpPacketization} {media : List UInt8}

section Lemmas

variable {d d' : H264Depacketizer} {nals sent : List (List UInt8)} {nal body : List UInt8}

theorem Sends.append {media payload : List UInt8}
    (h : Sends media note payload) (more : List UInt8) : Sends (media ++ more) note payload := by
  obtain ⟨hle, hpayload⟩ := h
  refine ⟨by rw [List.length_append]; omega, ?_⟩
  rw [List.drop_append_of_le_length (by omega),
    List.take_append_of_le_length (by rw [List.length_drop]; omega)]
  exact hpayload

theorem sends_append {notes : List RtpPacketization}
    (h : List.Forall₂ (Sends media) notes sent) (more : List UInt8) :
    List.Forall₂ (Sends (media ++ more)) notes sent :=
  h.imp fun _ _ hsends => hsends.append more

theorem sends_last (hpos : note.pos = media.length)
    (hsize : note.size = body.length) : Sends (media ++ body) note (note.prefixData ++ body) := by
  refine ⟨by rw [List.length_append]; omega, ?_⟩
  rw [hpos, hsize, List.drop_left' rfl, List.take_length]

theorem forall₂_concat {notes : List RtpPacketization} {payload : List UInt8}
    (h : List.Forall₂ (Sends media) notes sent) (hlast : Sends media note payload) :
    List.Forall₂ (Sends media) (notes ++ [note]) (sent ++ [payload]) :=
  List.rel_append h (.cons hlast .nil)

theorem Built.addSingle (h : Built d nals sent) {header : UInt8}
    (hlen : (header :: body).length < 2 ^ 31)
    (hadd : d.addSingle header (header :: body) = some d') :
    Built d' (nals ++ [header :: body]) (sent ++ [header :: body]) := by
  obtain ⟨hle, hinv, happended, -⟩ := addSingle_spec h.inv hlen hadd
  have hmedia : d'.frame.media =
      d.frame.media ++ be4 (header :: body).length ++ (header :: body) := by
    rw [happended.media, lengthPrefixed]
    simp
  have hpos : d.frame.length + 4 =
      (d.frame.media ++ be4 (header :: body).length).length := by
    rw [List.length_append, h.inv.frame.length_media, length_be4]
  refine ⟨hinv, ?_, ?_⟩
  · rw [hmedia, h.media, framed_append, framed_singleton, List.append_assoc]
  · rw [happended.rtpInfo]
    refine forall₂_concat ?_ ?_
    · rw [hmedia, List.append_assoc]
      exact sends_append h.sends _
    · rw [hmedia]
      exact sends_last hpos rfl

theorem Built.addStapA (h : Built d nals sent) {header : UInt8} {units : List (List UInt8)}
    (hunits : aggregates body = some units) (hadd : d.addStapA (header :: body) = some d') :
    Built d' (nals ++ units) (sent ++ [header :: body]) := by
  obtain ⟨units', hle, hunits', hinv, happended, -⟩ := addStapA_spec h.inv hadd
  obtain rfl := Option.some.inj (hunits.symm.trans hunits')
  have hmedia : d'.frame.media = d.frame.media ++ framed units := by
    rw [happended.media, flatten_lengthPrefixed]
  refine ⟨hinv, ?_, ?_⟩
  · rw [hmedia, h.media, framed_append]
  · rw [happended.rtpInfo]
    refine forall₂_concat ?_ ?_
    · rw [hmedia]
      exact sends_append h.sends _
    · refine ⟨Nat.zero_le _, ?_⟩
      rw [List.take_zero, List.append_nil]

theorem Building.endFragment (h : Building d nals nal sent) (hend : d.endFragment = some d') :
    Built d' (nals ++ [nal]) sent := by
  obtain ⟨hinv, hroom⟩ := inv_endFragment h.inv hend
  obtain ⟨ini, buffer, hini, hbuffer, rfl⟩ := endFragment_spec hend
  obtain rfl := Option.some.inj (h.ini.symm.trans hini)
  obtain ⟨size, hsize, hmedia⟩ := h.media
  have hlength : d.frame.length = (framed nals).length + (4 + nal.length) := by
    rw [← h.inv.frame.length_media, hmedia, List.length_append, List.length_append, hsize]
  have hlt : d.frame.length < 2 ^ 32 :=
    Nat.lt_of_le_of_lt h.inv.frame.length_le h.inv.frame.size_lt
  have hnalSize : dwordSub (dwordSub d.frame.length (framed nals).length) 4 = nal.length := by
    have hwritten : dwordSub d.frame.length (framed nals).length = 4 + nal.length := by
      rw [dwordSub, if_pos (by omega)]
      omega
    rw [hwritten, dwordSub, if_pos (by omega)]
    omega
  have hsplit : d.frame.buffer =
      framed nals ++ size ++ (nal ++ d.frame.buffer.drop d.frame.length) := by
    rw [← List.append_assoc, List.append_assoc (framed nals), ← hmedia]
    exact (List.take_append_drop _ _).symm
  rw [hnalSize, hsplit, putAt_over _ _ (by rw [hsize, length_be4])] at hbuffer
  obtain rfl := Option.some.inj hbuffer
  have hmedia' : (framed nals ++ be4 nal.length ++ (nal ++ d.frame.buffer.drop d.frame.length)).take
      d.frame.length = framed nals ++ (be4 nal.length ++ nal) := by
    rw [← List.append_assoc, List.append_assoc (framed nals)]
    refine List.take_left' ?_
    rw [hlength, List.length_append, List.length_append, length_be4]
  refine ⟨hinv, ?_, ?_⟩
  · rw [framed_append, framed_singleton]
    exact hmedia'
  · rw [VideoFrame.media]
    dsimp only
    rw [hmedia']
    exact h.sends _ (length_be4 _)

theorem Built.startFragment (h : Built d nals sent) {indicator fuHeader : UInt8}
    {d₁ : H264Depacketizer} {hle} (hstart : isStart fuHeader) (hinv : d₁.Inv)
    (happended : VideoFrame.Appended d.frame d₁.frame (startPieces indicator fuHeader ++ [body])
      [⟨d.frame.length + (startPieces indicator fuHeader).flatten.length, body.length,
          [indicator, fuHeader], hle⟩])
    (hini : d₁.iniFragNALU = some d.frame.length) :
    Building d₁ nals (reconstruct indicator fuHeader :: body)
      (sent ++ [indicator :: fuHeader :: body]) := by
  have hlength : (framed nals).length = d.frame.length := by
    rw [← h.media, h.inv.frame.length_media]
  have hmedia : d₁.frame.media =
      framed nals ++ (be4 1 ++ (reconstruct indicator fuHeader :: body)) := by
    rw [happended.media, h.media, startPieces, if_pos hstart]
    simp
  refine ⟨hinv, by rw [hini, hlength], ⟨be4 1, length_be4 1, hmedia⟩, ?_⟩
  intro size hsize
  rw [happended.rtpInfo]
  refine forall₂_concat ?_ ?_
  · have hsends := h.sends
    rw [h.media] at hsends
    exact sends_append hsends _
  · have hsplit : framed nals ++ (size ++ (reconstruct indicator fuHeader :: body)) =
        framed nals ++ size ++ [reconstruct indicator fuHeader] ++ body := by
      simp
    rw [hsplit]
    refine sends_last ?_ rfl
    simp [startPieces, hstart, hsize, hlength]

theorem Building.addFragment (h : Building d nals nal sent) {indicator fuHeader : UInt8}
    {d₁ : H264Depacketizer} {hle} (hstart : ¬ isStart fuHeader) (hinv : d₁.Inv)
    (happended : VideoFrame.Appended d.frame d₁.frame (startPieces indicator fuHeader ++ [body])
      [⟨d.frame.length + (startPieces indicator fuHeader).flatten.length, body.length,
          [indicator, fuHeader], hle⟩])
    (hini : d₁.iniFragNALU = d.iniFragNALU) :
    Building d₁ nals (nal ++ body) (sent ++ [indicator :: fuHeader :: body]) := by
  obtain ⟨size, hsize, hmedia⟩ := h.media
  have hlength : (framed nals ++ (size ++ nal)).length = d.frame.length := by
    rw [← hmedia, h.inv.frame.length_media]
  have hmedia' : d₁.frame.media = framed nals ++ (size ++ (nal ++ body)) := by
    rw [happended.media, hmedia, startPieces, if_neg hstart]
    simp
  refine ⟨hinv, by rw [hini, h.ini], ⟨size, hsize, hmedia'⟩, ?_⟩
  intro size' hsize'
  have hsplit : framed nals ++ (size' ++ (nal ++ body)) =
      framed nals ++ (size' ++ nal) ++ body := by
    simp
  rw [happended.rtpInfo, hsplit]
  refine forall₂_concat (sends_append (h.sends size' hsize') _) (sends_last ?_ rfl)
  rw [List.length_append, List.length_append] at hlength ⊢
  simp only [startPieces, if_neg hstart, List.flatten_nil, List.length_nil]
  omega

theorem Building.addPayloads (h : Building d nals nal sent) {fragments payloads : List (List UInt8)}
    {rest : List UInt8} (hfragments : Fragments fragments rest)
    (hlen : ∀ payload ∈ fragments, payload.length < 2 ^ 31)
    (hadd : d.addPayloads (fragments ++ payloads) = some d') :
    ∃ d₁, Built d₁ (nals ++ [nal ++ rest]) (sent ++ fragments) ∧
      d₁.addPayloads payloads = some d' := by
  induction hfragments generalizing d nal sent with
  | @last indicator fuHeader body htype hstart hend =>
    obtain ⟨d₁, r, hd₁, hrest⟩ := addPayloads_cons hadd
    rw [List.forall_mem_singleton, List.length_cons, List.length_cons] at hlen
    have hd₁ := addFragment_of_addPayload (packetType_of_fuA htype) hd₁
    obtain ⟨d₂, hle, hinv, happended, hini, hclose⟩ := addFragment_spec h.inv (by omega) hd₁
    rw [if_neg hstart] at hini
    rw [if_pos hend] at hclose
    exact ⟨d₁, (h.addFragment hstart hinv happended hini).endFragment hclose, hrest⟩
  | @more indicator fuHeader body rest fragments htype hstart hend hrest ih =>
    rw [List.forall_mem_cons, List.length_cons, List.length_cons] at hlen
    obtain ⟨d₁, r, hd₁, hadd⟩ := addPayloads_cons hadd
    have hd₁ := addFragment_of_addPayload (packetType_of_fuA htype) hd₁
    obtain ⟨d₂, hle, hinv, happended, hini, hclose⟩ := addFragment_spec h.inv (by omega) hd₁
    rw [if_neg hstart] at hini
    rw [if_neg hend] at hclose
    obtain rfl := Option.some.inj hclose
    obtain ⟨d₃, hbuilt, hd₃⟩ := ih (h.addFragment hstart hinv happended hini) hlen.2 hadd
    rw [List.append_assoc, List.append_assoc, List.singleton_append] at hbuilt
    exact ⟨d₃, hbuilt, hd₃⟩

theorem Built.addFragments (h : Built d nals sent) {fragments payloads : List (List UInt8)}
    (hfragments : Fragmented fragments nal)
    (hlen : ∀ payload ∈ fragments, payload.length < 2 ^ 31)
    (hadd : d.addPayloads (fragments ++ payloads) = some d') :
    ∃ d₁, Built d₁ (nals ++ [nal]) (sent ++ fragments) ∧
      d₁.addPayloads payloads = some d' := by
  cases hfragments with
  | @whole indicator fuHeader body htype hstart hend =>
    obtain ⟨d₁, r, hd₁, hrest⟩ := addPayloads_cons hadd
    rw [List.forall_mem_singleton, List.length_cons, List.length_cons] at hlen
    have hd₁ := addFragment_of_addPayload (packetType_of_fuA htype) hd₁
    obtain ⟨d₂, hle, hinv, happended, hini, hclose⟩ := addFragment_spec h.inv (by omega) hd₁
    rw [if_pos hstart] at hini
    rw [if_pos hend] at hclose
    exact ⟨d₁, (h.startFragment hstart hinv happended hini).endFragment hclose, hrest⟩
  | @split indicator fuHeader body rest fragments htype hstart hend hrest =>
    rw [List.forall_mem_cons, List.length_cons, List.length_cons] at hlen
    obtain ⟨d₁, r, hd₁, hadd⟩ := addPayloads_cons hadd
    have hd₁ := addFragment_of_addPayload (packetType_of_fuA htype) hd₁
    obtain ⟨d₂, hle, hinv, happended, hini, hclose⟩ := addFragment_spec h.inv (by omega) hd₁
    rw [if_pos hstart] at hini
    rw [if_neg hend] at hclose
    obtain rfl := Option.some.inj hclose
    obtain ⟨d₃, hbuilt, hd₃⟩ :=
      (h.startFragment hstart hinv happended hini).addPayloads hrest hlen.2 hadd
    rw [List.append_assoc, List.singleton_append] at hbuilt
    exact ⟨d₃, hbuilt, hd₃⟩

theorem Built.addPayloads {payloads nals' : List (List UInt8)} (hcarry : Carry payloads nals')
    (hlen : ∀ payload ∈ payloads, payload.length < 2 ^ 31) (h : Built d nals sent)
    (hadd : d.addPayloads payloads = some d') : Built d' (nals ++ nals') (sent ++ payloads) := by
  induction hcarry generalizing d nals sent with
  | nil =>
    obtain rfl := Option.some.inj hadd
    rw [List.append_nil, List.append_nil]
    exact h
  | @single header body payloads nals' htype _ ih =>
    rw [List.forall_mem_cons] at hlen
    obtain ⟨d₁, r, hd₁, hrest⟩ := addPayloads_cons hadd
    have hbuilt := ih hlen.2 (h.addSingle hlen.1 (addSingle_of_addPayload htype hd₁)) hrest
    rw [List.append_assoc, List.append_assoc] at hbuilt
    exact hbuilt
  | @stapA header units payloads nals' htype hunits _ ih =>
    rw [List.forall_mem_cons] at hlen
    obtain ⟨d₁, r, hd₁, hrest⟩ := addPayloads_cons hadd
    have hbuilt := ih hlen.2
      (h.addStapA (aggregates_aggregated hunits) (addStapA_of_addPayload htype hd₁)) hrest
    rw [List.append_assoc, List.append_assoc] at hbuilt
    exact hbuilt
  | @fuA fragments payloads nals' nal hfragments _ ih =>
    rw [List.forall_mem_append] at hlen
    obtain ⟨d₁, hbuilt, hrest⟩ := h.addFragments hfragments hlen.1 hadd
    have hbuilt := ih hlen.2 hbuilt hrest
    rw [List.append_assoc, List.append_assoc] at hbuilt
    exact hbuilt

theorem Built.resetFrame (h : d.Inv) : Built d.resetFrame [] [] :=
  ⟨h.resetFrame, List.take_zero, .nil⟩

section Frame

variable {payloads : List RTPPayload}

theorem length_lt_of_mem : ∀ payload ∈ payloads.map RTPPayload.data, payload.length < 2 ^ 31 := by
  intro payload hpayload
  obtain ⟨payload, -, rfl⟩ := List.mem_map.1 hpayload
  exact payload.length_lt

theorem isSome_addFrame (hd : d.Reachable) (hcarry : Carry (payloads.map RTPPayload.data) nals) :
    (d.resetFrame.addPayloads (payloads.map RTPPayload.data)).isSome ↔
      (∀ payload ∈ payloads, IsAggregate payload.data → payload.data.length ≤ 16) ∧
        VideoFrame.CanAppend d.frame.buffer.length 0 (allPieces (payloads.map RTPPayload.data)) := by
  have hsome := isSome_addPayloads hd.inv.resetFrame length_lt_of_mem (ready_of_carry hcarry _)
  have hroom : d.resetFrame.frame.buffer.length = d.frame.buffer.length := List.length_replicate
  rw [List.forall_mem_map, hroom] at hsome
  exact hsome

theorem built_of_addFrame (hd : d.Reachable) (hcarry : Carry (payloads.map RTPPayload.data) nals)
    (hadd : d.resetFrame.addPayloads (payloads.map RTPPayload.data) = some d') :
    Built d' nals (payloads.map RTPPayload.data) := by
  have hbuilt := (Built.resetFrame hd.inv).addPayloads hcarry length_lt_of_mem hadd
  rw [List.nil_append, List.nil_append] at hbuilt
  exact hbuilt

end Frame

end Lemmas

/-- A packet with a slice of an intra picture. -/
def idrSlice : RTPPayload := ⟨[0x65, 0x88, 0x84], by decide⟩

theorem carry_idrSlice : Carry [idrSlice.data] [idrSlice.data] :=
  .single (by decide) .nil

/-- An aggregate of a sequence and a picture parameter set. -/
def parameterSets : RTPPayload :=
  ⟨0x78 :: aggregated [[0x67, 0x42, 0xC0, 0x1E, 0xD9, 0x00, 0xA0, 0x47, 0xFE],
    [0x68, 0xCE, 0x3C, 0x80]], by decide⟩

theorem carry_parameterSets : Carry [parameterSets.data]
    [[0x67, 0x42, 0xC0, 0x1E, 0xD9, 0x00, 0xA0, 0x47, 0xFE], [0x68, 0xCE, 0x3C, 0x80]] :=
  .stapA (by decide) (by decide) .nil

end H264Depacketizer

end McuMediaServer
