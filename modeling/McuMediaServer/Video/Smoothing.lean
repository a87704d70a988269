import Mathlib.Algebra.Order.BigOperators.Group.List
import Mathlib.Algebra.Order.Ring.Nat
import McuMediaServer.Video.RTPSmoother

/-!
# The sending times of a frame

The two smoothers give the packets of a frame sending times that spread them over its duration: the
share of a packet in the time is that of the bytes up to it in all bytes of the frame's entries. All
of it is arithmetic of 32 bits. An entry that does not fit a packet is left out, also when it is the
one that would have had the mark.
-/

namespace McuMediaServer.Smoothing

open ByteSeq

/-- Reference: `media.h:53`. -/
inductive FrameType where
  | audio | video | text
  deriving DecidableEq, Repr

/-- Reference: `media.h:8`. -/
structure MediaFrame where
  type : FrameType
  timestamp : Nat
  data : List UInt8
  rtpInfo : List RtpPacketization

/-- A packet with its timestamp and the time after which it is sent. Reference: `rtp.h:399`. -/
structure RTPPacketSched extends McuMediaServer.RTPPacketSched where
  timestamp : Nat
  sendingTime : Nat

/-- The sum of the lengths of the entries. Reference: `RTPSmoother.cpp:113`. -/
def frameLength (info : List RtpPacketization) : Nat :=
  info.foldl (fun length rtp => (length + rtp.getTotalLength) % 2 ^ 32) 0

section Packets

variable (frame : MediaFrame) (rate duration length : Nat)

/-- The packets of the entries, behind those with so many bytes. There is no value when a byte is
read outside the frame or written outside the packet, and when the division is by zero. Reference:
`RTPSmoother.cpp:122`. -/
def packets : Nat → List RtpPacketization → Option (List RTPPacketSched)
  | _, [] => some []
  | current, rtp :: info =>
    if RTPSmoother.maxMediaLength < rtp.getTotalLength then packets current info
    else if RTPSmoother.maxMediaLength < rtp.prefixData.length + rtp.size then none
    else do
      let bytes ← slice frame.data rtp.pos rtp.size
      let current := (current + rtp.getTotalLength) % 2 ^ 32
      if length = 0 then none
      else do
        let rest ← packets current info
        return ⟨⟨rtp.prefixData ++ bytes, info.isEmpty⟩, frame.timestamp * rate % 2 ^ 32,
          current * duration % 2 ^ 32 / length⟩ :: rest

/-- What both smoothers do, with the clock rates of the media in kHz: a frame without entries and
one of text are errors. -/
def smooth (rate : FrameType → Nat) : Option (List RTPPacketSched) :=
  if frame.rtpInfo = [] ∨ frame.type = .text then some []
  else packets frame (rate frame.type) duration (frameLength frame.rtpInfo) 0 frame.rtpInfo

/-- Reference: `RTPSmoother.cpp:63`. -/
def sendFrame : Option (List RTPPacketSched) :=
  smooth frame duration fun
    | .audio => 8
    | .video => 90
    | .text => 1

/-- Reference: `RTPMultiplexerSmoother.cpp:59`. -/
def smoothFrame : Option (List RTPPacketSched) :=
  smooth frame duration fun
    | .video => 90
    | .audio => 8
    | .text => 1

end Packets

/-! ## What is asked of a smoother -/

/-- The length of an entry. -/
def entryLength (rtp : RtpPacketization) : Nat := rtp.prefixData.length + rtp.size

/-- Whether an entry fits a packet. -/
def fits (rtp : RtpPacketization) : Bool := entryLength rtp ≤ RTPSmoother.maxMediaLength

/-- The length of entries together. -/
def total (info : List RtpPacketization) : Nat := (info.map entryLength).sum

/-- The payload of an entry: its prefix and its slice of the frame. -/
def payload (frame : MediaFrame) (rtp : RtpPacketization) : List UInt8 :=
  rtp.prefixData ++ (frame.data.drop rtp.pos).take rtp.size

/-- Exactly the last one is marked. -/
def MarksLast (marks : List Bool) : Prop :=
  ∀ i, (h : i < marks.length) → (marks[i] = true ↔ i + 1 = marks.length)

/-- There are the packets of the entries that fit, in order, at nondecreasing times up to the
duration, and the last one is marked; the lengths and the products that the times are computed of
are numbers of 32 bits. -/
structure Smooth (frame : MediaFrame) (duration : Nat) (sent : List RTPPacketSched) : Prop where
  payloads : sent.map (·.mediaData) = (frame.rtpInfo.filter fits).map (payload frame)
  sorted : (sent.map (·.sendingTime)).Pairwise (· ≤ ·)
  within : ∀ packet ∈ sent, packet.sendingTime ≤ duration
  marks : MarksLast (sent.map (·.mark))
  exact : sent ≠ [] → total frame.rtpInfo < 2 ^ 32 ∧
    total (frame.rtpInfo.filter fits) * duration < 2 ^ 32

/-- No entry fits, or the last one does, and the frame is no text, its entries have any bytes, and
the lengths and products are numbers of 32 bits. An entry itself has a length of 32 bits. -/
def Schedulable (frame : MediaFrame) (duration : Nat) : Prop :=
  if frame.type = .text then frame.rtpInfo.filter fits = []
  else (∀ rtp ∈ frame.rtpInfo, entryLength rtp < 2 ^ 32) ∧
    (frame.rtpInfo.filter fits = [] ∨
      (∃ rtp ∈ frame.rtpInfo.getLast?, fits rtp = true) ∧ 0 < total frame.rtpInfo ∧
        total frame.rtpInfo < 2 ^ 32 ∧
        total (frame.rtpInfo.filter fits) * duration < 2 ^ 32)

/-! ## The packets -/

section Lemmas

variable {frame : MediaFrame} {rate duration length current : Nat} {info : List RtpPacketization}
  {rtp : RtpPacketization} {sent : List RTPPacketSched}

theorem getTotalLength_eq (h : entryLength rtp < 2 ^ 32) : rtp.getTotalLength = entryLength rtp := by
  rw [RtpPacketization.getTotalLength, Nat.add_comm]
  exact Nat.mod_eq_of_lt h

theorem total_cons : total (rtp :: info) = entryLength rtp + total info := by
  simp [total]

theorem total_filter_le : total (info.filter fits) ≤ total info :=
  (List.Sublist.map entryLength List.filter_sublist).sum_le_sum fun _ _ => Nat.zero_le _

theorem frameLength_eq (h : total info < 2 ^ 32) : frameLength info = total info := by
  have hfold : ∀ (info : List RtpPacketization) (start : Nat), start + total info < 2 ^ 32 →
      info.foldl (fun length rtp => (length + rtp.getTotalLength) % 2 ^ 32) start =
        start + total info := by
    intro info
    induction info with
    | nil =>
      intro start _
      rfl
    | cons rtp info ih =>
      intro start h
      rw [total_cons] at h ⊢
      rw [List.foldl_cons, getTotalLength_eq (by omega), Nat.mod_eq_of_lt (by omega),
        ih _ (by omega), Nat.add_assoc]
  rw [frameLength, hfold info 0 (by omega), Nat.zero_add]

/-- The packets with exact arithmetic. -/
def exactPackets (frame : MediaFrame) (rate duration length : Nat) :
    Nat → List RtpPacketization → List RTPPacketSched
  | _, [] => []
  | current, rtp :: info =>
    if fits rtp then
      ⟨⟨payload frame rtp, info.isEmpty⟩, frame.timestamp * rate % 2 ^ 32,
        (current + entryLength rtp) * duration / length⟩ ::
        exactPackets frame rate duration length (current + entryLength rtp) info
    else exactPackets frame rate duration length current info

attribute [local simp] packets exactPackets in
theorem packets_eq (hinside : ∀ rtp ∈ info, rtp.pos + rtp.size ≤ frame.data.length)
    (hentry : ∀ rtp ∈ info, entryLength rtp < 2 ^ 32) (hlength : length ≠ 0)
    (hsum : current + total (info.filter fits) < 2 ^ 32)
    (hproduct : (current + total (info.filter fits)) * duration < 2 ^ 32) :
    packets frame rate duration length current info =
      some (exactPackets frame rate duration length current info) := by
  induction info generalizing current with
  | nil => simp
  | cons rtp info ih =>
    rw [List.forall_mem_cons] at hinside hentry
    have htotal := getTotalLength_eq hentry.1
    rw [packets, exactPackets, htotal]
    cases hfits : fits rtp with
    | false =>
      have hbig : RTPSmoother.maxMediaLength < entryLength rtp := by
        simpa [fits] using hfits
      rw [List.filter_cons_of_neg (by simp [hfits])] at hsum hproduct
      rw [if_pos hbig, if_neg Bool.false_ne_true]
      exact ih hinside.2 hentry.2 hsum hproduct
    | true =>
      have hsmall : ¬RTPSmoother.maxMediaLength < entryLength rtp := by
        simpa [fits] using hfits
      rw [List.filter_cons_of_pos hfits, total_cons, ← Nat.add_assoc] at hsum hproduct
      have hcurrent : (current + entryLength rtp) % 2 ^ 32 = current + entryLength rtp :=
        Nat.mod_eq_of_lt (by omega)
      have htime : (current + entryLength rtp) * duration % 2 ^ 32 =
          (current + entryLength rtp) * duration := by
        refine Nat.mod_eq_of_lt (lt_of_le_of_lt ?_ hproduct)
        exact Nat.mul_le_mul_right _ (Nat.le_add_right _ _)
      have hslice : slice frame.data rtp.pos rtp.size =
          some ((frame.data.drop rtp.pos).take rtp.size) := by
        rw [slice, if_pos hinside.1]
      have hsmall' : ¬RTPSmoother.maxMediaLength < rtp.prefixData.length + rtp.size := hsmall
      rw [if_neg hsmall, if_neg hsmall', hslice, Option.bind_eq_bind, Option.bind_some, hcurrent,
        if_neg hlength, ih hinside.2 hentry.2 hsum hproduct, htime]
      rfl

theorem payloads_exactPackets :
    (exactPackets frame rate duration length current info).map (·.mediaData) =
      (info.filter fits).map (payload frame) := by
  induction info generalizing current with
  | nil => rfl
  | cons rtp info ih =>
    rw [exactPackets]
    cases hfits : fits rtp with
    | false =>
      rw [if_neg Bool.false_ne_true, List.filter_cons_of_neg (by simp [hfits])]
      exact ih
    | true =>
      rw [if_pos rfl, List.filter_cons_of_pos hfits, List.map_cons, List.map_cons, ih]

theorem times_exactPackets :
    ∀ packet ∈ exactPackets frame rate duration length current info,
      current * duration / length ≤ packet.sendingTime ∧
        packet.sendingTime ≤ (current + total (info.filter fits)) * duration / length := by
  induction info generalizing current with
  | nil =>
    intro packet hpacket
    cases hpacket
  | cons rtp info ih =>
    intro packet hpacket
    rw [exactPackets] at hpacket
    cases hfits : fits rtp with
    | false =>
      rw [hfits, if_neg Bool.false_ne_true] at hpacket
      rw [List.filter_cons_of_neg (by simp [hfits])]
      exact ih packet hpacket
    | true =>
      rw [hfits, if_pos rfl] at hpacket
      rw [List.filter_cons_of_pos hfits, total_cons, ← Nat.add_assoc]
      have hstart : current * duration / length ≤ (current + entryLength rtp) * duration / length :=
        Nat.div_le_div_right (Nat.mul_le_mul_right _ (Nat.le_add_right _ _))
      rcases List.mem_cons.1 hpacket with rfl | hpacket
      · exact ⟨hstart, Nat.div_le_div_right (Nat.mul_le_mul_right _ (Nat.le_add_right _ _))⟩
      · obtain ⟨hle, hle'⟩ := ih packet hpacket
        exact ⟨hstart.trans hle, hle'⟩

theorem sorted_exactPackets :
    ((exactPackets frame rate duration length current info).map (·.sendingTime)).Pairwise
      (· ≤ ·) := by
  induction info generalizing current with
  | nil => exact .nil
  | cons rtp info ih =>
    rw [exactPackets]
    split
    · rw [List.map_cons, List.pairwise_cons]
      refine ⟨?_, ih⟩
      intro time htime
      obtain ⟨packet, hpacket, rfl⟩ := List.mem_map.1 htime
      exact (times_exactPackets packet hpacket).1
    · exact ih

theorem marks_exactPackets :
    (exactPackets frame rate duration length current info).map (·.mark) =
      if ∃ rtp ∈ info.getLast?, fits rtp = true then
        List.replicate ((info.filter fits).length - 1) false ++ [true]
      else List.replicate (info.filter fits).length false := by
  induction info generalizing current with
  | nil => rfl
  | cons rtp info ih =>
    rw [exactPackets]
    cases hinfo : info with
    | nil => cases hfits : fits rtp <;> simp [exactPackets, hfits]
    | cons next rest =>
      have hlast : (rtp :: next :: rest).getLast? = info.getLast? := by
        rw [hinfo, List.getLast?_cons_cons]
      rw [hlast, ← hinfo]
      have hempty : info.isEmpty = false := by rw [hinfo]; rfl
      cases hfits : fits rtp with
      | false =>
        rw [if_neg Bool.false_ne_true, List.filter_cons_of_neg (by simp [hfits])]
        exact ih
      | true =>
        rw [if_pos rfl, List.filter_cons_of_pos hfits, List.map_cons, ih, hempty]
        split
        · rename_i hex
          obtain ⟨last, hmem, hlastfits⟩ := hex
          have hpos : 0 < (info.filter fits).length := by
            refine List.length_pos_of_mem (a := last) ?_
            exact List.mem_filter.2 ⟨List.mem_of_getLast? hmem, hlastfits⟩
          obtain ⟨n, hn⟩ := Nat.exists_eq_succ_of_ne_zero hpos.ne'
          simp [hn, List.replicate_succ]
        · simp [List.replicate_succ]

theorem marksLast_last (n : Nat) : MarksLast (List.replicate n false ++ [true]) := by
  intro i h
  rw [List.length_append, List.length_replicate, List.length_singleton] at h ⊢
  by_cases hi : i < n
  · rw [List.getElem_append_left (by simpa using hi), List.getElem_replicate]
    simp
    omega
  · rw [List.getElem_append_right (by simpa using hi)]
    simp
    omega

theorem marksLast_replicate {n : Nat} : MarksLast (List.replicate n false) ↔ n = 0 := by
  constructor
  · intro h
    by_contra hn
    have hlast := (h (n - 1) (by rw [List.length_replicate]; omega)).2
      (by rw [List.length_replicate]; omega)
    simp at hlast
  · rintro rfl i h
    cases h

theorem marksLast_exactPackets :
    MarksLast ((exactPackets frame rate duration length current info).map (·.mark)) ↔
      info.filter fits = [] ∨ ∃ rtp ∈ info.getLast?, fits rtp = true := by
  rw [marks_exactPackets]
  split
  · rename_i h
    exact iff_of_true (marksLast_last _) (.inr h)
  · rename_i h
    rw [marksLast_replicate, List.length_eq_zero_iff]
    exact (or_iff_left h).symm

theorem packets_of_none (hentry : ∀ rtp ∈ info, entryLength rtp < 2 ^ 32)
    (h : info.filter fits = []) :
    packets frame rate duration length current info = some [] := by
  induction info with
  | nil => rfl
  | cons rtp info ih =>
    rw [List.forall_mem_cons] at hentry
    rw [List.filter_eq_nil_iff, List.forall_mem_cons] at h
    have hbig : RTPSmoother.maxMediaLength < rtp.getTotalLength := by
      rw [getTotalLength_eq hentry.1]
      simpa [fits] using h.1
    rw [packets, if_pos hbig]
    exact ih hentry.2 (List.filter_eq_nil_iff.2 h.2)

theorem length_ne_zero (hentry : ∀ rtp ∈ info, entryLength rtp < 2 ^ 32)
    (h : (packets frame rate duration 0 current info).isSome) : info.filter fits = [] := by
  induction info generalizing current with
  | nil => rfl
  | cons rtp info ih =>
    rw [List.forall_mem_cons] at hentry
    rw [packets, getTotalLength_eq hentry.1] at h
    cases hfits : fits rtp with
    | false =>
      have hbig : RTPSmoother.maxMediaLength < entryLength rtp := by
        simpa [fits] using hfits
      rw [if_pos hbig] at h
      rw [List.filter_cons_of_neg (by simp [hfits])]
      exact ih hentry.2 h
    | true =>
      have hsmall : ¬RTPSmoother.maxMediaLength < entryLength rtp := by
        simpa [fits] using hfits
      have hsmall' : ¬RTPSmoother.maxMediaLength < rtp.prefixData.length + rtp.size := hsmall
      rw [if_neg hsmall, if_neg hsmall'] at h
      cases hslice : slice frame.data rtp.pos rtp.size with
      | none =>
        rw [hslice] at h
        cases h
      | some bytes =>
        rw [hslice] at h
        cases h

theorem entryLength_lt (hinside : ∀ rtp ∈ info, rtp.size < 2 ^ 32)
    (h : (packets frame rate duration length current info).isSome) :
    ∀ rtp ∈ info, entryLength rtp < 2 ^ 32 := by
  induction info generalizing current with
  | nil =>
    intro rtp hrtp
    cases hrtp
  | cons rtp info ih =>
    rw [List.forall_mem_cons] at hinside ⊢
    have hprefix := rtp.prefixLen_le
    have hsize := hinside.1
    rw [packets] at h
    split at h
    · rename_i hbig
      refine ⟨?_, ih hinside.2 h⟩
      rw [RtpPacketization.getTotalLength, RTPSmoother.maxMediaLength] at hbig
      rw [entryLength]
      omega
    · split at h
      · cases h
      · rename_i hsmall
        rw [RTPSmoother.maxMediaLength] at hsmall
        refine ⟨by rw [entryLength]; omega, ?_⟩
        cases hslice : slice frame.data rtp.pos rtp.size with
        | none =>
          rw [hslice] at h
          cases h
        | some bytes =>
          rw [hslice, Option.bind_eq_bind, Option.bind_some] at h
          split at h
          · cases h
          · refine @ih ((current + rtp.getTotalLength) % 2 ^ 32) hinside.2 ?_
            exact ByteSeq.isSome_of_bind h

theorem smooth_nil (h : frame.rtpInfo.filter fits = []) : Smooth frame duration [] where
  payloads := by rw [h]; rfl
  sorted := .nil
  within := by simp
  marks := by
    intro i hi
    cases hi
  exact h := absurd rfl h

theorem smooth_exactPackets (hsum : total frame.rtpInfo < 2 ^ 32)
    (hproduct : total (frame.rtpInfo.filter fits) * duration < 2 ^ 32)
    (hlast : ∃ rtp ∈ frame.rtpInfo.getLast?, fits rtp = true) :
    Smooth frame duration
      (exactPackets frame rate duration (total frame.rtpInfo) 0 frame.rtpInfo) where
  payloads := payloads_exactPackets
  sorted := sorted_exactPackets
  within := by
    intro packet hpacket
    refine (times_exactPackets packet hpacket).2.trans ?_
    refine Nat.div_le_of_le_mul ?_
    rw [Nat.zero_add]
    exact Nat.mul_le_mul_right _ total_filter_le
  marks := marksLast_exactPackets.2 (.inr hlast)
  exact _ := ⟨hsum, hproduct⟩

theorem smooth_iff_schedulable {rate : FrameType → Nat} (hdata : frame.data.length < 2 ^ 32)
    (hinside : ∀ rtp ∈ frame.rtpInfo, rtp.pos + rtp.size ≤ frame.data.length) :
    (∃ sent, smooth frame duration rate = some sent ∧ Smooth frame duration sent) ↔
      Schedulable frame duration := by
  unfold Schedulable
  by_cases htext : frame.type = .text
  · rw [if_pos htext, smooth, if_pos (.inr htext)]
    constructor
    · rintro ⟨sent, hsent, hsmooth⟩
      cases hsent
      exact List.map_eq_nil_iff.1 hsmooth.payloads.symm
    · exact fun h => ⟨[], rfl, smooth_nil h⟩
  rw [if_neg htext]
  by_cases hinfo : frame.rtpInfo = []
  · rw [smooth, if_pos (.inl hinfo), hinfo]
    refine iff_of_true ⟨[], rfl, smooth_nil (by rw [hinfo]; rfl)⟩ ⟨by simp, .inl rfl⟩
  have hsmooth : smooth frame duration rate = packets frame (rate frame.type) duration
      (frameLength frame.rtpInfo) 0 frame.rtpInfo := by
    rw [smooth, if_neg (by rw [not_or]; exact ⟨hinfo, htext⟩)]
  rw [hsmooth]
  have hsize : ∀ rtp ∈ frame.rtpInfo, rtp.size < 2 ^ 32 := by
    intro rtp hrtp
    have := hinside rtp hrtp
    omega
  constructor
  · rintro ⟨sent, hsent, hlaw⟩
    have hentry := entryLength_lt hsize (by rw [hsent]; rfl)
    refine ⟨hentry, ?_⟩
    by_cases hnone : frame.rtpInfo.filter fits = []
    · exact .inl hnone
    have hsome : sent ≠ [] := by
      rintro rfl
      exact hnone (List.map_eq_nil_iff.1 hlaw.payloads.symm)
    obtain ⟨hsum, hproduct⟩ := hlaw.exact hsome
    rw [frameLength_eq hsum] at hsent
    have hpos : total frame.rtpInfo ≠ 0 := by
      intro hzero
      rw [hzero] at hsent
      exact hnone (length_ne_zero hentry (by rw [hsent]; rfl))
    rw [packets_eq hinside hentry hpos
      (by rw [Nat.zero_add]; exact lt_of_le_of_lt total_filter_le hsum)
      (by rwa [Nat.zero_add])] at hsent
    cases hsent
    have hlast := (marksLast_exactPackets.1 hlaw.marks).resolve_left hnone
    exact .inr ⟨hlast, Nat.pos_of_ne_zero hpos, hsum, hproduct⟩
  · rintro ⟨hentry, hnone | ⟨hlast, hpos, hsum, hproduct⟩⟩
    · exact ⟨[], packets_of_none hentry hnone, smooth_nil hnone⟩
    · refine ⟨_, ?_, @smooth_exactPackets frame (rate frame.type) duration hsum hproduct hlast⟩
      rw [frameLength_eq hsum]
      exact packets_eq hinside hentry hpos.ne'
        (by rw [Nat.zero_add]; exact lt_of_le_of_lt total_filter_le hsum)
        (by rwa [Nat.zero_add])

end Lemmas

/-- Both smoothers send a frame as they should if and only if it is schedulable. -/
theorem smoothers_iff {frame : MediaFrame} {duration : Nat} (hdata : frame.data.length < 2 ^ 32)
    (hinside : ∀ rtp ∈ frame.rtpInfo, rtp.pos + rtp.size ≤ frame.data.length) :
    ((∃ sent, sendFrame frame duration = some sent ∧ Smooth frame duration sent) ↔
        Schedulable frame duration) ∧
      ((∃ sent, smoothFrame frame duration = some sent ∧ Smooth frame duration sent) ↔
        Schedulable frame duration) :=
  ⟨smooth_iff_schedulable hdata hinside, smooth_iff_schedulable hdata hinside⟩

/-- A frame of two packets. -/
def twoPackets : MediaFrame :=
  ⟨.video, 40, [1, 2, 3],
    [⟨0, 2, [], Nat.zero_le 16⟩, ⟨2, 1, [9], Nat.le_add_left 1 15⟩]⟩

theorem twoPackets_smooth :
    ∃ sent, sendFrame twoPackets 40 = some sent ∧ Smooth twoPackets 40 sent := by
  have hinside : ∀ rtp ∈ twoPackets.rtpInfo, rtp.pos + rtp.size ≤ twoPackets.data.length := by
    decide
  refine (smoothers_iff (by decide) hinside).1.2 ⟨by decide, .inr ⟨?_, by decide⟩⟩
  exact ⟨_, rfl, by decide⟩

/-- A frame whose only entry is empty. -/
def emptyEntry : MediaFrame := ⟨.video, 40, [], [⟨0, 0, [], Nat.zero_le 16⟩]⟩

/-- The share of nothing in nothing is divided by zero. -/
theorem not_smooth_empty :
    ¬∃ sent, sendFrame emptyEntry 40 = some sent ∧ Smooth emptyEntry 40 sent := by
  rintro ⟨sent, hsent, -⟩
  cases hsent

end McuMediaServer.Smoothing
