import McuMediaServer.Base.Run
import McuMediaServer.Video.AVCFrame
import McuMediaServer.Rtmp.Media

/-!
# The AVC video of an RTMP participant

A configuration says how many bytes the size in front of a NAL unit has, and a message of NAL units is
chopped by these sizes and given to the decoder unit by unit. Until a configuration has been read the
sizes have no bytes, and the loop over a message that is not empty does not end. A size is believed
when it is longer than the message. A unit without bytes at the end of a message is not seen: what is
left is not longer than a size, and not shorter, so that nothing is marked as the last packet either.
-/

namespace McuMediaServer

open ByteSeq

/-- Reference: `rtmpmessage.h:63`. -/
def RTMPVideoFrame.AVCNALU : UInt8 := 1

namespace RTMPParticipant

/-- An AVC frame in the queue, with a size that is a `DWORD`. It has been cloned, so that its buffer
is as large as its media. Reference: `rtmpparticipant.cpp:1226` and `rtmpmessage.cpp:995`. -/
structure Message where
  avcType : UInt8
  media : List UInt8
  length_lt : media.length < 2 ^ 32

/-- What the decoder is given: a packet and whether it is the last one of its frame, or a full
frame. -/
inductive Given where
  | packet (nal : List UInt8) (last : Bool)
  | frame (data : List UInt8)
  deriving DecidableEq

/-- How a size of so many bytes is read. Reference: `rtmpparticipant.cpp:971`. -/
def sizeReader : Nat → Option (List UInt8 → Nat → Option Nat)
  | 4 => some get4
  | 3 => some get3
  | 2 => some get2
  | 1 => some get1
  | _ => none

/-- The packets that a message is chopped into from a position on. There is no value when a byte
outside the message is read or given to the decoder, and as long as the loop has not ended.
Reference: `rtmpparticipant.cpp:967`. -/
def chop (nalUnitLength : Nat) (data : List UInt8) : (fuel pos size : Nat) → Option (List Given)
  | 0, _, _ => none
  | fuel + 1, pos, size =>
    if nalUnitLength < size then
      match sizeReader nalUnitLength with
      | some read => do
        let nalSize ← read data pos
        let nal ← slice data (pos + nalUnitLength) nalSize
        let skip := (nalUnitLength + nalSize) % 2 ^ 32
        let size := (size + 2 ^ 32 - skip) % 2 ^ 32
        let given ← chop nalUnitLength data fuel (pos + skip) size
        return .packet nal (decide (size < nalUnitLength)) :: given
      | none => chop nalUnitLength data fuel pos size
    else
      some []

/-- Reference: `avcdescriptor.cpp:16`. -/
def newDescriptor : AVCDescriptor := ⟨0, 0, 0, 0, 0, .clear, .clear⟩

/-- The parameter sets of one kind. Reference: `rtmpparticipant.cpp:950`. -/
def parameterSets (sets : ParameterSets) : List Given :=
  (sets.sets.take sets.num).map fun set => .packet set false

/-- The length of sizes behind a message, and what the decoder is given. Reference:
`rtmpparticipant.cpp:928`. -/
def handle (fuel nalUnitLength : Nat) (video : Message) : Option (Nat × List Given) :=
  if video.avcType = RTMPVideoFrame.AVCHEADER then do
    let (ok, desc) ← newDescriptor.parse video.media
    if ok then
      some (desc.nalUnitLength.toNat + 1, parameterSets desc.sps ++ parameterSets desc.pps)
    else
      some (nalUnitLength, [])
  else if video.avcType = RTMPVideoFrame.AVCNALU then
    (chop nalUnitLength video.media fuel 0 video.media.length).map fun given => (nalUnitLength, given)
  else
    some (nalUnitLength, [.frame video.media])

/-- The length of sizes behind a sequence of messages. Reference: `rtmpparticipant.cpp:859`. -/
def recVideo (fuel : Nat) (videos : List Message) : Option Nat :=
  videos.foldlM (fun nalUnitLength video => (handle fuel nalUnitLength video).map Prod.fst) 0

/-! ## What is asked of it -/

/-- A size in so many bytes. -/
def sizeBytes : Nat → Nat → List UInt8
  | 4 => be4
  | 3 => be3
  | 2 => be2
  | 1 => be1
  | _ => fun _ => []

/-- NAL units, each behind its size. -/
def delimited (nalUnitLength : Nat) (nals : List (List UInt8)) : List UInt8 :=
  nals.flatMap fun nal => sizeBytes nalUnitLength nal.length ++ nal

/-- A message is these NAL units, each behind its size. -/
def Delimits (nalUnitLength : Nat) (nals : List (List UInt8)) (media : List UInt8) : Prop :=
  (∀ nal ∈ nals, nal.length < 2 ^ (8 * nalUnitLength)) ∧ media = delimited nalUnitLength nals

/-- NAL units as packets of one frame. -/
def packets : List (List UInt8) → List Given
  | [] => []
  | [nal] => [.packet nal true]
  | nal :: next :: nals => .packet nal false :: packets (next :: nals)

/-- What is asked of what the decoder is given of a message. -/
def Served (nalUnitLength : Nat) (video : Message) (given : List Given) : Prop :=
  video.avcType = RTMPVideoFrame.AVCNALU → 0 < nalUnitLength → ∀ nals,
    Delimits nalUnitLength nals video.media → given = packets nals

/-- Every message is handled to its end, and what the decoder is given is as it should be. -/
def Serves (videos : List Message) : Prop :=
  ∀ before video, before ++ [video] <+: videos → ∃ fuel nalUnitLength next given,
    recVideo fuel before = some nalUnitLength ∧
      handle fuel nalUnitLength video = some (next, given) ∧ Served nalUnitLength video given

/-- The length of sizes that is configured behind a message. -/
def configured (nalUnitLength : Nat) (video : Message) : Nat :=
  if video.avcType = RTMPVideoFrame.AVCHEADER then
    match newDescriptor.parse video.media with
    | some (true, desc) => desc.nalUnitLength.toNat + 1
    | _ => nalUnitLength
  else
    nalUnitLength

/-- The size that is in front of a message. -/
def nalSizeOf (nalUnitLength : Nat) (media : List UInt8) : Nat :=
  ((sizeReader nalUnitLength).bind fun read => read media 0).getD 0

/-- The sizes are inside the message: none is longer than what is behind it. -/
def Inside (nalUnitLength : Nat) (media : List UInt8) : Prop :=
  if media.length ≤ nalUnitLength then True
  else if nalUnitLength = 0 then False
  else
    nalUnitLength + nalSizeOf nalUnitLength media ≤ media.length ∧
      Inside nalUnitLength (media.drop (nalUnitLength + nalSizeOf nalUnitLength media))
termination_by media.length
decreasing_by
  rw [List.length_drop]
  omega

/-- A message that can be chopped: the sizes are inside of it (no message but the empty one is
chopped before a configuration has been read), and it is not NAL units of which the last one is
empty. -/
def Choppable (nalUnitLength : Nat) (video : Message) : Prop :=
  video.avcType = RTMPVideoFrame.AVCNALU → Inside nalUnitLength video.media ∧
    ¬∃ nals, 0 < nalUnitLength ∧ Delimits nalUnitLength (nals ++ [[]]) video.media

/-! ## Sizes -/

section Sizes

variable {nalUnitLength : Nat} {data rest : List UInt8} {pos n : Nat}
  {read : List UInt8 → Nat → Option Nat}

theorem exists_sizeReader (hpos : 0 < nalUnitLength) (hle : nalUnitLength ≤ 4) :
    ∃ read, sizeReader nalUnitLength = some read := by
  obtain rfl | rfl | rfl | rfl : nalUnitLength = 1 ∨ nalUnitLength = 2 ∨ nalUnitLength = 3 ∨
    nalUnitLength = 4 := by omega
  · exact ⟨get1, rfl⟩
  · exact ⟨get2, rfl⟩
  · exact ⟨get3, rfl⟩
  · exact ⟨get4, rfl⟩

/-- What is asked of a reader of `nalUnitLength` bytes. -/
structure Reads (nalUnitLength : Nat) (read : List UInt8 → Nat → Option Nat) : Prop where
  isSome : ∀ data pos, (read data pos).isSome ↔ pos + nalUnitLength ≤ data.length
  drop : ∀ data pos, read data pos = read (data.drop pos) 0
  lt : ∀ {data pos v}, read data pos = some v → v < 2 ^ 32
  sizeBytes : ∀ rest v, v < 2 ^ (8 * nalUnitLength) →
    read (sizeBytes nalUnitLength v ++ rest) 0 = some v

theorem reads_get1 : Reads 1 get1 where
  isSome data pos := isSome_get1 data pos
  drop data pos := by simp [get1]
  lt h := by
    have := get1_lt h
    omega
  sizeBytes rest v h := by rw [sizeBytes, get1_be1, Nat.mod_eq_of_lt h]

theorem reads_get2 : Reads 2 get2 where
  isSome data pos := isSome_get2 data pos
  drop data pos := by simp [get2, get1]
  lt h := by
    have := get2_lt h
    omega
  sizeBytes rest v h := by rw [sizeBytes, get2_be2, Nat.mod_eq_of_lt h]

theorem reads_get3 : Reads 3 get3 where
  isSome data pos := isSome_get3 data pos
  drop data pos := by simp [get3, get2, get1]
  lt h := by
    have := get3_lt h
    omega
  sizeBytes rest v h := by rw [sizeBytes, get3_be3, Nat.mod_eq_of_lt h]

theorem reads_get4 : Reads 4 get4 where
  isSome data pos := isSome_get4 data pos
  drop data pos := by simp [get4, get2, get1]
  lt h := get4_lt h
  sizeBytes rest v h := by rw [sizeBytes, get4_be4, Nat.mod_eq_of_lt h]

theorem reads_of_sizeReader (h : sizeReader nalUnitLength = some read) :
    Reads nalUnitLength read := by
  unfold sizeReader at h
  split at h <;> cases h
  · exact reads_get4
  · exact reads_get3
  · exact reads_get2
  · exact reads_get1

theorem length_sizeBytes (hpos : 0 < nalUnitLength) (hle : nalUnitLength ≤ 4) :
    (sizeBytes nalUnitLength n).length = nalUnitLength := by
  obtain rfl | rfl | rfl | rfl : nalUnitLength = 1 ∨ nalUnitLength = 2 ∨ nalUnitLength = 3 ∨
    nalUnitLength = 4 := by omega
  · exact length_be1 n
  · exact length_be2 n
  · exact length_be3 n
  · exact length_be4 n

theorem read_eq (hread : sizeReader nalUnitLength = some read)
    (h : pos + nalUnitLength ≤ data.length) :
    read data pos = some (nalSizeOf nalUnitLength (data.drop pos)) := by
  have hreads := reads_of_sizeReader hread
  obtain ⟨v, hv⟩ := Option.isSome_iff_exists.1 ((hreads.isSome data pos).2 h)
  rw [nalSizeOf, hread, Option.bind_some, ← hreads.drop, hv]
  rfl

theorem nalSizeOf_sizeBytes (hpos : 0 < nalUnitLength) (hle : nalUnitLength ≤ 4)
    (hn : n < 2 ^ (8 * nalUnitLength)) :
    nalSizeOf nalUnitLength (sizeBytes nalUnitLength n ++ rest) = n := by
  obtain ⟨read, hread⟩ := exists_sizeReader hpos hle
  rw [nalSizeOf, hread, Option.bind_some, (reads_of_sizeReader hread).sizeBytes rest n hn]
  rfl

end Sizes

/-! ## Chopping without positions -/

/-- What a message is chopped into. -/
def chopped (nalUnitLength : Nat) (media : List UInt8) : Option (List Given) :=
  if media.length ≤ nalUnitLength then some []
  else if nalUnitLength = 0 then none
  else if nalUnitLength + nalSizeOf nalUnitLength media ≤ media.length then
    (chopped nalUnitLength (media.drop (nalUnitLength + nalSizeOf nalUnitLength media))).map
      fun given => .packet ((media.drop nalUnitLength).take (nalSizeOf nalUnitLength media))
        (decide (media.length - (nalUnitLength + nalSizeOf nalUnitLength media) < nalUnitLength)) ::
          given
  else none
termination_by media.length
decreasing_by
  rw [List.length_drop]
  omega

section Chop

variable {nalUnitLength fuel pos : Nat} {data : List UInt8} {given : List Given}

attribute [local simp] chop in
theorem chop_zero {size : Nat} (hsize : 0 < size) : chop 0 data fuel pos size = none := by
  induction fuel with
  | zero => rfl
  | succ fuel ih => simp [hsize, sizeReader, ih]

theorem chop_inside (hdata : data.length < 2 ^ 32) (hpos : 0 < nalUnitLength)
    (hle : nalUnitLength ≤ 4) (h : pos + nalUnitLength < data.length)
    (hinside : nalUnitLength + nalSizeOf nalUnitLength (data.drop pos) ≤ (data.drop pos).length) :
    chop nalUnitLength data (fuel + 1) pos (data.length - pos) =
      (chop nalUnitLength data fuel (pos + (nalUnitLength + nalSizeOf nalUnitLength (data.drop pos)))
        (data.length - (pos + (nalUnitLength + nalSizeOf nalUnitLength (data.drop pos))))).map
          fun given =>
            .packet (((data.drop pos).drop nalUnitLength).take
              (nalSizeOf nalUnitLength (data.drop pos)))
              (decide ((data.drop pos).length -
                (nalUnitLength + nalSizeOf nalUnitLength (data.drop pos)) < nalUnitLength)) ::
              given := by
  obtain ⟨read, hread⟩ := exists_sizeReader hpos hle
  rw [chop, if_pos (by omega), hread]
  dsimp only
  rw [read_eq hread (by omega), Option.bind_eq_bind, Option.bind_some]
  rw [List.length_drop] at hinside ⊢
  generalize nalSizeOf nalUnitLength (data.drop pos) = nalSize at hinside ⊢
  have hsize : (data.length - pos + 2 ^ 32 - (nalUnitLength + nalSize)) % 2 ^ 32 =
      data.length - (pos + (nalUnitLength + nalSize)) := by
    rw [show data.length - pos + 2 ^ 32 - (nalUnitLength + nalSize) =
      data.length - (pos + (nalUnitLength + nalSize)) + 2 ^ 32 by omega, Nat.add_mod_right]
    exact Nat.mod_eq_of_lt (by omega)
  rw [slice, if_pos (by omega), Option.bind_eq_bind, Option.bind_some,
    Nat.mod_eq_of_lt (show nalUnitLength + nalSize < 2 ^ 32 by omega), hsize, List.drop_drop,
    show data.length - pos - (nalUnitLength + nalSize) =
      data.length - (pos + (nalUnitLength + nalSize)) by omega]
  cases chop nalUnitLength data fuel (pos + (nalUnitLength + nalSize))
    (data.length - (pos + (nalUnitLength + nalSize))) with
  | none => rfl
  | some given => rfl

theorem chop_tooLong (hpos : 0 < nalUnitLength) (hle : nalUnitLength ≤ 4)
    (h : pos + nalUnitLength < data.length)
    (houtside : (data.drop pos).length < nalUnitLength + nalSizeOf nalUnitLength (data.drop pos)) :
    chop nalUnitLength data (fuel + 1) pos (data.length - pos) = none := by
  obtain ⟨read, hread⟩ := exists_sizeReader hpos hle
  rw [List.length_drop] at houtside
  rw [chop, if_pos (by omega), hread]
  dsimp only
  rw [read_eq hread (by omega), Option.bind_eq_bind, Option.bind_some, slice, if_neg (by omega)]
  rfl

theorem chop_iff (hdata : data.length < 2 ^ 32) (hle : nalUnitLength ≤ 4) (hp : pos ≤ data.length) :
    (∃ fuel, chop nalUnitLength data fuel pos (data.length - pos) = some given) ↔
      chopped nalUnitLength (data.drop pos) = some given := by
  have hlength : (data.drop pos).length = data.length - pos := List.length_drop
  constructor
  · rintro ⟨fuel, hchop⟩
    induction fuel generalizing pos given with
    | zero => cases hchop
    | succ fuel ih =>
      rw [chopped]
      by_cases hend : data.length - pos ≤ nalUnitLength
      · rw [chop, if_neg (by omega)] at hchop
        rw [if_pos (by omega), hchop]
      · rw [if_neg (by omega)]
        by_cases hzero : nalUnitLength = 0
        · subst hzero
          rw [chop_zero (by omega)] at hchop
          cases hchop
        · rw [if_neg hzero]
          by_cases hinside :
              nalUnitLength + nalSizeOf nalUnitLength (data.drop pos) ≤ (data.drop pos).length
          · rw [chop_inside hdata (by omega) hle (by omega) hinside] at hchop
            obtain ⟨rest, hrest, rfl⟩ := Option.map_eq_some_iff.1 hchop
            have hrest' := ih (by omega) List.length_drop hrest
            rw [← List.drop_drop] at hrest'
            rw [if_pos hinside, hrest']
            rfl
          · rw [chop_tooLong (by omega) hle (by omega) (by omega)] at hchop
            cases hchop
  · induction hn : data.length - pos using Nat.strong_induction_on generalizing pos given with
    | h n ih =>
      subst hn
      intro hchopped
      rw [chopped] at hchopped
      by_cases hend : data.length - pos ≤ nalUnitLength
      · rw [if_pos (by omega)] at hchopped
        exact ⟨1, by rw [chop, if_neg (by omega), hchopped]⟩
      · rw [if_neg (by omega)] at hchopped
        by_cases hzero : nalUnitLength = 0
        · rw [if_pos hzero] at hchopped
          cases hchopped
        · rw [if_neg hzero] at hchopped
          split at hchopped
          · rename_i hinside
            obtain ⟨rest, hrest, rfl⟩ := Option.map_eq_some_iff.1 hchopped
            rw [List.drop_drop] at hrest
            obtain ⟨fuel, hfuel⟩ := ih _ (by omega) (by omega) List.length_drop rfl hrest
            refine ⟨fuel + 1, ?_⟩
            rw [chop_inside hdata (by omega) hle (by omega) hinside, hfuel]
            rfl
          · cases hchopped

theorem chop_mono {size : Nat} (h : chop nalUnitLength data fuel pos size = some given)
    {fuel' : Nat} (hfuel : fuel ≤ fuel') : chop nalUnitLength data fuel' pos size = some given := by
  induction fuel generalizing pos size given fuel' with
  | zero => cases h
  | succ fuel ih =>
    obtain ⟨fuel', rfl⟩ : ∃ n, fuel' = n + 1 := ⟨fuel' - 1, by omega⟩
    rw [chop] at h ⊢
    by_cases hend : nalUnitLength < size
    · rw [if_pos hend] at h ⊢
      cases hread : sizeReader nalUnitLength with
      | none =>
        rw [hread] at h
        exact ih h (by omega)
      | some read =>
        rw [hread] at h
        dsimp only at h ⊢
        obtain ⟨nalSize, hsize, h⟩ := Option.bind_eq_some_iff.1 h
        obtain ⟨nal, hnal, h⟩ := Option.bind_eq_some_iff.1 h
        obtain ⟨given', hgiven, h⟩ := Option.bind_eq_some_iff.1 h
        rw [hsize, Option.bind_eq_bind, Option.bind_some, hnal, Option.bind_eq_bind,
          Option.bind_some, ih hgiven (by omega)]
        exact h
    · rw [if_neg hend] at h ⊢
      exact h

end Chop

section Units

variable {nalUnitLength : Nat} {media nal rest : List UInt8} {nals : List (List UInt8)}
  {given : List Given}

theorem isSome_chopped (nalUnitLength : Nat) (media : List UInt8) :
    (chopped nalUnitLength media).isSome ↔ Inside nalUnitLength media := by
  induction hn : media.length using Nat.strong_induction_on generalizing media with
  | h n ih =>
    subst hn
    rw [chopped, Inside]
    by_cases hend : media.length ≤ nalUnitLength
    · rw [if_pos hend, if_pos hend]
      exact iff_of_true rfl trivial
    · rw [if_neg hend, if_neg hend]
      by_cases hzero : nalUnitLength = 0
      · rw [if_pos hzero, if_pos hzero]
        simp
      · rw [if_neg hzero, if_neg hzero]
        by_cases hinside : nalUnitLength + nalSizeOf nalUnitLength media ≤ media.length
        · rw [if_pos hinside, and_iff_right hinside, Option.isSome_map]
          exact ih _ (by rw [List.length_drop]; omega) _ rfl
        · rw [if_neg hinside]
          simp [hinside]

theorem delimited_cons : delimited nalUnitLength (nal :: nals) =
    sizeBytes nalUnitLength nal.length ++ (nal ++ delimited nalUnitLength nals) := by
  rw [delimited, List.flatMap_cons, ← delimited, List.append_assoc]

theorem chopped_cons (hpos : 0 < nalUnitLength) (hle : nalUnitLength ≤ 4)
    (hnal : nal.length < 2 ^ (8 * nalUnitLength)) (hmore : 0 < (nal ++ rest).length) :
    chopped nalUnitLength (sizeBytes nalUnitLength nal.length ++ (nal ++ rest)) =
      (chopped nalUnitLength rest).map fun given =>
        .packet nal (decide (rest.length < nalUnitLength)) :: given := by
  have hsize := @length_sizeBytes nalUnitLength nal.length hpos hle
  have hlength : (sizeBytes nalUnitLength nal.length ++ (nal ++ rest)).length =
      nalUnitLength + (nal.length + rest.length) := by
    rw [List.length_append, hsize, List.length_append]
  rw [List.length_append] at hmore
  rw [chopped, if_neg (by omega), if_neg (by omega), nalSizeOf_sizeBytes hpos hle hnal,
    if_pos (by omega), hlength, ← List.drop_drop, List.drop_left' hsize, List.drop_left' rfl,
    List.take_left' rfl,
    show nalUnitLength + (nal.length + rest.length) - (nalUnitLength + nal.length) =
      rest.length by omega]

theorem chopped_delimited (hpos : 0 < nalUnitLength) (hle : nalUnitLength ≤ 4)
    (hnals : ∀ nal ∈ nals, nal.length < 2 ^ (8 * nalUnitLength)) (hlast : nals.getLast? ≠ some []) :
    chopped nalUnitLength (delimited nalUnitLength nals) = some (packets nals) := by
  have hnil : chopped nalUnitLength [] = some [] := by
    rw [chopped, if_pos (show ([] : List UInt8).length ≤ _ from Nat.zero_le _)]
  induction nals using packets.induct with
  | case1 => exact hnil
  | case2 nal =>
    have hne : 0 < nal.length := List.length_pos_iff.2 fun h => hlast (by rw [h]; rfl)
    rw [delimited_cons, chopped_cons hpos hle (hnals nal List.mem_cons_self)
      (by rw [List.length_append]; omega)]
    show (chopped nalUnitLength []).map _ = _
    rw [hnil, packets, Option.map_some,
      decide_eq_true (show (delimited nalUnitLength []).length < _ from hpos)]
  | case3 nal next nals ih =>
    have hrest : nalUnitLength ≤ (delimited nalUnitLength (next :: nals)).length := by
      rw [delimited_cons, List.length_append, length_sizeBytes hpos hle]
      omega
    rw [List.forall_mem_cons] at hnals
    rw [delimited_cons, chopped_cons hpos hle hnals.1 (by rw [List.length_append]; omega),
      ih hnals.2 (by rwa [List.getLast?_cons_cons] at hlast), packets, Option.map_some,
      decide_eq_false (by omega)]

theorem length_of_chopped (hpos : 0 < nalUnitLength) (hle : nalUnitLength ≤ 4)
    (hnals : ∀ nal ∈ nals, nal.length < 2 ^ (8 * nalUnitLength))
    (h : chopped nalUnitLength (delimited nalUnitLength (nals ++ [[]])) = some given) :
    given.length ≤ nals.length := by
  induction nals generalizing given with
  | nil =>
    have hlength : (delimited nalUnitLength ([] ++ [[]])).length = nalUnitLength := by
      rw [List.nil_append, delimited_cons, List.length_append, length_sizeBytes hpos hle]
      rfl
    rw [chopped, if_pos (by omega)] at h
    cases h
    exact Nat.le_refl 0
  | cons nal nals ih =>
    rw [List.forall_mem_cons] at hnals
    have hrest : nalUnitLength ≤ (delimited nalUnitLength (nals ++ [[]])).length := by
      rw [delimited, List.flatMap_append, List.length_append, List.flatMap_singleton,
        List.length_append, length_sizeBytes hpos hle]
      omega
    rw [List.cons_append, delimited_cons, chopped_cons hpos hle hnals.1
      (by rw [List.length_append]; omega)] at h
    obtain ⟨given', hgiven, rfl⟩ := Option.map_eq_some_iff.1 h
    exact Nat.succ_le_succ (ih hnals.2 hgiven)

theorem length_packets (nals : List (List UInt8)) : (packets nals).length = nals.length := by
  induction nals using packets.induct with
  | case1 => rfl
  | case2 nal => rfl
  | case3 nal next nals ih => rw [packets, List.length_cons, ih, ← List.length_cons]

theorem exists_chopped_iff (hle : nalUnitLength ≤ 4) :
    (∃ given, chopped nalUnitLength media = some given ∧ (0 < nalUnitLength → ∀ nals,
      Delimits nalUnitLength nals media → given = packets nals)) ↔
        Inside nalUnitLength media ∧
          ¬∃ nals, 0 < nalUnitLength ∧ Delimits nalUnitLength (nals ++ [[]]) media := by
  rw [← isSome_chopped]
  constructor
  · rintro ⟨given, hgiven, hserved⟩
    refine ⟨by rw [hgiven]; rfl, ?_⟩
    rintro ⟨nals, hpos, hdelimits⟩
    obtain ⟨hnals, rfl⟩ := id hdelimits
    have hfew := length_of_chopped hpos hle
      (fun nal hnal => hnals nal (List.mem_append_left _ hnal)) hgiven
    rw [hserved hpos _ hdelimits, length_packets, List.length_append, List.length_singleton] at hfew
    omega
  · rintro ⟨hsome, hno⟩
    obtain ⟨given, hgiven⟩ := Option.isSome_iff_exists.1 hsome
    refine ⟨given, hgiven, ?_⟩
    rintro hpos nals ⟨hnals, rfl⟩
    refine Option.some.inj (hgiven.symm.trans (chopped_delimited hpos hle hnals ?_))
    intro hlast
    obtain ⟨before, rfl⟩ := List.getLast?_eq_some_iff.1 hlast
    exact hno ⟨before, hpos, hnals, rfl⟩

end Units

/-! ## Messages -/

section Messages

variable {fuel nalUnitLength next : Nat} {video : Message} {given : List Given}

theorem nalUnitLength_of_parse {d desc : AVCDescriptor} {buffer : List UInt8}
    (h : d.parse buffer = some (true, desc)) : desc.nalUnitLength.toNat < 4 := by
  have hmask (b : UInt8) : (b &&& 3).toNat < 4 := by
    rw [UInt8.toNat_and]
    exact Nat.lt_succ_of_le Nat.and_le_right
  rw [AVCDescriptor.parse] at h
  split at h
  · cases h
  · simp only [Option.bind_eq_bind, Option.bind_eq_some_iff] at h
    obtain ⟨b0, -, b1, -, b2, -, b3, -, b4, -, b5, -, ⟨ok, pos, sps⟩, -, h⟩ := h
    dsimp only at h
    split at h
    · split at h
      · cases h
      · obtain ⟨num, -, h⟩ := Option.bind_eq_some_iff.1 h
        obtain ⟨⟨ok', pos', pps⟩, -, h⟩ := Option.bind_eq_some_iff.1 h
        cases h
        exact hmask b4
    · cases h

theorem configured_le (hle : nalUnitLength ≤ 4) (video : Message) :
    configured nalUnitLength video ≤ 4 := by
  rw [configured]
  split
  · split
    · rename_i desc hparse
      exact nalUnitLength_of_parse hparse
    · exact hle
  · exact hle

theorem next_of_handle (h : handle fuel nalUnitLength video = some (next, given)) :
    next = configured nalUnitLength video := by
  rw [handle] at h
  rw [configured]
  split at h
  · rename_i htype
    rw [if_pos htype]
    obtain ⟨⟨ok, desc⟩, hparse, h⟩ := Option.bind_eq_some_iff.1 h
    rw [hparse]
    cases ok <;> cases h <;> rfl
  · rename_i htype
    rw [if_neg htype]
    split at h
    · obtain ⟨given', -, h⟩ := Option.map_eq_some_iff.1 h
      cases h
      rfl
    · cases h
      rfl

theorem exists_handle_iff (hle : nalUnitLength ≤ 4) :
    (∃ fuel next given, handle fuel nalUnitLength video = some (next, given) ∧
      Served nalUnitLength video given) ↔ Choppable nalUnitLength video := by
  by_cases hheader : video.avcType = RTMPVideoFrame.AVCHEADER
  · have hnot : video.avcType ≠ RTMPVideoFrame.AVCNALU := by
      rw [hheader]
      decide
    refine iff_of_true ?_ fun h => absurd h hnot
    obtain ⟨ok, desc, hparse, -⟩ := AVCDescriptor.parse_spec newDescriptor video.media
    have hhandle (fuel : Nat) : ∃ next given, handle fuel nalUnitLength video = some (next, given) := by
      rw [handle, if_pos hheader, hparse]
      cases ok
      · exact ⟨_, _, rfl⟩
      · exact ⟨_, _, rfl⟩
    obtain ⟨next, given, h⟩ := hhandle 0
    exact ⟨0, next, given, h, fun h => absurd h hnot⟩
  · by_cases hnalu : video.avcType = RTMPVideoFrame.AVCNALU
    · rw [Choppable, imp_iff_right hnalu, ← exists_chopped_iff hle]
      have hchop (given : List Given) := @chop_iff nalUnitLength 0 video.media given video.length_lt
        hle (Nat.zero_le _)
      constructor
      · rintro ⟨fuel, next, given, h, hserved⟩
        rw [handle, if_neg hheader, if_pos hnalu] at h
        obtain ⟨given', hgiven, h⟩ := Option.map_eq_some_iff.1 h
        cases h
        exact ⟨given, (hchop given).1 ⟨fuel, hgiven⟩, hserved hnalu⟩
      · rintro ⟨given, hgiven, hserved⟩
        obtain ⟨fuel, hfuel⟩ := (hchop given).2 hgiven
        refine ⟨fuel, nalUnitLength, given, ?_, fun _ => hserved⟩
        rw [handle, if_neg hheader, if_pos hnalu, show video.media.length = video.media.length - 0 from
          rfl, hfuel]
        rfl
    · refine iff_of_true ⟨0, nalUnitLength, [.frame video.media], ?_, fun h => absurd h hnalu⟩
        fun h => absurd h hnalu
      rw [handle, if_neg hheader, if_neg hnalu]

theorem handle_mono (h : handle fuel nalUnitLength video = some (next, given)) {fuel' : Nat}
    (hfuel : fuel ≤ fuel') : handle fuel' nalUnitLength video = some (next, given) := by
  rw [handle] at h ⊢
  split at h
  · rename_i htype
    rw [if_pos htype]
    exact h
  · rename_i htype
    rw [if_neg htype]
    split at h
    · rename_i hnalu
      rw [if_pos hnalu]
      obtain ⟨given', hgiven, h⟩ := Option.map_eq_some_iff.1 h
      rw [chop_mono hgiven hfuel]
      exact congrArg some h
    · rename_i hnalu
      rw [if_neg hnalu]
      exact h

end Messages

/-! ## Runs -/

section Runs

variable {fuel nalUnitLength : Nat} {videos : List Message} {video : Message}

theorem recVideo_concat (fuel : Nat) (videos : List Message) (video : Message) :
    recVideo fuel (videos ++ [video]) = (recVideo fuel videos).bind fun nalUnitLength =>
      (handle fuel nalUnitLength video).map Prod.fst := by
  rw [recVideo, List.foldlM_append, recVideo, Option.bind_eq_bind]
  refine congrArg _ (funext fun nalUnitLength => ?_)
  rw [List.foldlM_cons]
  simp

theorem recVideo_mono (h : recVideo fuel videos = some nalUnitLength) {fuel' : Nat}
    (hfuel : fuel ≤ fuel') : recVideo fuel' videos = some nalUnitLength := by
  induction videos using List.reverseRecOn generalizing nalUnitLength with
  | nil => exact h
  | append_singleton videos video ih =>
    rw [recVideo_concat] at h ⊢
    obtain ⟨earlier, hearlier, h⟩ := Option.bind_eq_some_iff.1 h
    obtain ⟨⟨next, given⟩, hhandle, rfl⟩ := Option.map_eq_some_iff.1 h
    rw [ih hearlier, Option.bind_some, handle_mono hhandle hfuel]
    rfl

/-- The length of sizes along a run. -/
def configuredAll (videos : List Message) : Nat := StepRun.run configured 0 videos

theorem configuredAll_concat (videos : List Message) (video : Message) :
    configuredAll (videos ++ [video]) = configured (configuredAll videos) video :=
  StepRun.run_concat ..

theorem configuredAll_le (videos : List Message) : configuredAll videos ≤ 4 := by
  induction videos using List.reverseRecOn with
  | nil => exact Nat.zero_le 4
  | append_singleton videos video ih =>
    rw [configuredAll_concat]
    exact configured_le ih video

theorem eq_of_recVideo (h : recVideo fuel videos = some nalUnitLength) :
    nalUnitLength = configuredAll videos := by
  induction videos using List.reverseRecOn generalizing nalUnitLength with
  | nil => exact (Option.some.inj h).symm
  | append_singleton videos video ih =>
    rw [recVideo_concat] at h
    obtain ⟨earlier, hearlier, h⟩ := Option.bind_eq_some_iff.1 h
    obtain ⟨⟨next, given⟩, hhandle, rfl⟩ := Option.map_eq_some_iff.1 h
    rw [configuredAll_concat, ← ih hearlier]
    exact next_of_handle hhandle

theorem choppable_of_serves (h : Serves videos) {before : List Message}
    (hbefore : before ++ [video] <+: videos) : Choppable (configuredAll before) video := by
  obtain ⟨fuel, nalUnitLength, next, given, hrun, hhandle, hserved⟩ := h before video hbefore
  obtain rfl := eq_of_recVideo hrun
  exact (exists_handle_iff (configuredAll_le before)).1 ⟨fuel, next, given, hhandle, hserved⟩

theorem exists_recVideo (h : ∀ before video, before ++ [video] <+: videos →
    Choppable (configuredAll before) video) :
    ∃ fuel, recVideo fuel videos = some (configuredAll videos) := by
  induction videos using List.reverseRecOn with
  | nil => exact ⟨0, rfl⟩
  | append_singleton videos video ih =>
    obtain ⟨fuel, hfuel⟩ := ih fun before video' hbefore =>
      h before video' (hbefore.trans (List.prefix_append _ _))
    obtain ⟨fuel', next, given, hhandle, -⟩ := (exists_handle_iff (configuredAll_le videos)).2
      (h videos video (List.prefix_refl _))
    refine ⟨max fuel fuel', ?_⟩
    rw [recVideo_concat, recVideo_mono hfuel (Nat.le_max_left ..), Option.bind_some,
      handle_mono hhandle (Nat.le_max_right ..), configuredAll_concat, next_of_handle hhandle]
    rfl

end Runs

/-- The messages of a run are handled to their ends, without a read outside of them, and what the
decoder is given of each is its NAL units, if and only if every message can be chopped with the
length of sizes that is configured in front of it. -/
theorem serves_iff (videos : List Message) :
    Serves videos ↔
      ∀ before video, before ++ [video] <+: videos → Choppable (configuredAll before) video := by
  constructor
  · intro h before video hbefore
    exact choppable_of_serves h hbefore
  · intro h before video hbefore
    obtain ⟨fuel, hfuel⟩ := exists_recVideo fun before' video' hbefore' =>
      h before' video' (hbefore'.trans ((List.prefix_append _ _).trans hbefore))
    obtain ⟨fuel', next, given, hhandle, hserved⟩ :=
      (exists_handle_iff (configuredAll_le before)).2 (h before video hbefore)
    exact ⟨max fuel fuel', configuredAll before, next, given,
      recVideo_mono hfuel (Nat.le_max_left ..), handle_mono hhandle (Nat.le_max_right ..), hserved⟩

/-- A configuration without parameter sets whose sizes have one byte. -/
def oneByteSizes : Message := ⟨0, [1, 66, 0, 30, 0xFC, 0xE0, 0], by decide⟩

/-- An empty NAL unit. -/
def emptyUnit : Message := ⟨1, [0], by decide⟩

/-- A size of two bytes in front of one. -/
def tooLong : Message := ⟨1, [2, 0x65], by decide⟩

/-- In front of the configuration the message is chopped without end, behind it the decoder is not
given the empty unit, and it is given a byte that is not in the message. -/
theorem not_serves : ¬Serves [emptyUnit] ∧ ¬Serves [oneByteSizes, emptyUnit] ∧
    ¬Serves [oneByteSizes, tooLong] := by
  refine ⟨?_, ?_, ?_⟩
  · intro h
    have hinside := (@choppable_of_serves _ _ h [] (List.prefix_refl _) rfl).1
    rw [Inside] at hinside
    exact hinside
  · intro h
    refine (@choppable_of_serves _ _ h [oneByteSizes] (List.prefix_refl _) rfl).2 ⟨[], ?_⟩
    exact ⟨by decide, by decide, by decide⟩
  · intro h
    have hinside := (@choppable_of_serves _ _ h [oneByteSizes] (List.prefix_refl _) rfl).1
    rw [Inside] at hinside
    exact absurd hinside.1 (by decide)

end RTMPParticipant

end McuMediaServer
