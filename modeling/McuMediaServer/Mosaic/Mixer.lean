import McuMediaServer.Base.Run
import McuMediaServer.Mosaic.Participants

/-!
# The mosaics of a video mixer

A mixer has video sources, each of which is sent one of its mosaics or none, and mosaics, in each of
which some participants are shown. What a client can ask of it, and a round of its mixing thread, are
steps here, and what holds of every reachable mixer (`Reachable.inv`) is that its mosaics are settled
and that no participant is fixed to two slots.
-/

namespace McuMediaServer

open StepRun

/-- Reference: `videomixer.h:16`. -/
inductive VideoMixer.VADMode where
  | noVAD | basicVAD | fullVAD
  deriving DecidableEq

/-- Of a video source there is the address of the mosaic it is sent. Reference: `videomixer.h:71`.
-/
structure VideoMixer.VideoSource where
  mosaic : Option Nat := none

/-- Reference: `videomixer.h:93`. The addresses below `allocated` have been given to mosaics. -/
structure VideoMixer where
  lstVideos : List (Int × VideoMixer.VideoSource) := []
  mosaics : List (Int × VideoMixer.Mosaic) := []
  maxMosaics : Int := 0
  defaultMosaic : Option Nat := none
  mixingVideo : Bool
  ini : UInt64
  proxy : Bool := false
  vadMode : VideoMixer.VADMode := .noVAD
  vadDefaultChangePeriod : UInt32 := 5000
  allocated : Nat := 0

namespace VideoMixer

/-- The time at which a round asks whether another participant may become the active speaker, and
those it takes for the blocking and for the score. -/
structure Clock where
  asked : UInt64
  changed : UInt64
  scored : UInt64

variable (s : VideoMixer)

/-- The participants of a new mosaic: those of the old one, as far as they are video sources.
Reference: `videomixer.cpp:973`. -/
def copyParticipants (old : Mosaic) (lstVideos : List (Int × VideoSource)) (m : Mosaic) : Mosaic :=
  lstVideos.foldl (fun m video =>
    if old.hasParticipant video.1 then m.addParticipant video.1 (old.getScore video.1) else m) m

/-- What a new mosaic takes over from the old one. The active speaker is asked of the new mosaic.
Reference: `videomixer.cpp:972`. -/
def takeOver (oldMosaic mosaic : Mosaic) : Mosaic :=
  let mosaic := copyParticipants oldMosaic s.lstVideos mosaic
  let mosaic := mosaic.setSlots oldMosaic.mosaicSlots
  mosaic.setVADParticipant mosaic.vadParticipant (s.vadMode = .fullVAD) mosaic.vadBlockingTime

/-- Who uses the old mosaic uses the new one. Reference: `videomixer.cpp:983`. -/
def redirect (old new : Nat) (address : Option Nat) : Option Nat :=
  if address = some old then some new else address

/-- Reference: `videomixer.cpp:984`. -/
def VideoSource.redirect (old new : Nat) (video : VideoSource) : VideoSource :=
  { video with mosaic := VideoMixer.redirect old new video.mosaic }

/-- Reference: `videomixer.cpp:951`. -/
def setCompositionType (mosaicId : Int) (comp : MosaicType) (size : Int) : VideoMixer :=
  let mosaic := Mosaic.new s.allocated comp size
  match SortedMap.get? mosaicId s.mosaics with
  | none =>
    { s with
      mosaics := SortedMap.set mosaicId mosaic.calculatePositions s.mosaics
      allocated := s.allocated + 1 }
  | some oldMosaic =>
    { s with
      lstVideos := s.lstVideos.map fun e => (e.1, e.2.redirect oldMosaic.address mosaic.address)
      mosaics :=
        SortedMap.set mosaicId (s.takeOver oldMosaic mosaic).calculatePositions s.mosaics
      defaultMosaic := redirect oldMosaic.address mosaic.address s.defaultMosaic
      allocated := s.allocated + 1 }

/-- Reference: `videomixer.cpp:313`. -/
def createMosaic (comp : MosaicType) (size : Int) : Int × VideoMixer :=
  (s.maxMosaics, { s with maxMosaics := s.maxMosaics + 1 }.setCompositionType s.maxMosaics comp size)

/-- Reference: `videomixer.cpp:448`. -/
def init (comp : MosaicType) (size : Int) (now : UInt64) : VideoMixer :=
  let created := s.createMosaic comp size
  { created.2 with
    defaultMosaic := (SortedMap.get? created.1 created.2.mosaics).map Mosaic.address
    mixingVideo := true
    ini := now }

/-- Reference: `videomixer.cpp:486`. -/
def terminate : VideoMixer :=
  { s with mixingVideo := false, lstVideos := [], mosaics := [] }

/-- Reference: `videomixer.cpp:550`. -/
def createMixer (id : Int) : Option VideoMixer :=
  if (SortedMap.get? id s.lstVideos).isSome then none
  else some { s with lstVideos := SortedMap.set id {} s.lstVideos }

/-- Reference: `videomixer.cpp:591`. -/
def initMixer (id mosaicId : Int) : Option VideoMixer :=
  match SortedMap.get? id s.lstVideos with
  | none => none
  | some video =>
    match SortedMap.get? mosaicId s.mosaics with
    | none => some s
    | some mosaic =>
      let video := { video with mosaic := some mosaic.address }
      some { s with lstVideos := SortedMap.set id video s.lstVideos }

/-- Reference: `videomixer.cpp:644`. -/
def setMixerMosaic (id mosaicId : Int) : Option VideoMixer :=
  match SortedMap.get? id s.lstVideos with
  | none => none
  | some video =>
    let video :=
      { video with mosaic := (SortedMap.get? mosaicId s.mosaics).map Mosaic.address }
    some { s with lstVideos := SortedMap.set id video s.lstVideos }

/-- Whether there is a video source of the participant is not asked. Reference:
`videomixer.cpp:701`. -/
def addMosaicParticipant (mosaicId partId : Int) : Option VideoMixer :=
  match SortedMap.get? mosaicId s.mosaics with
  | none => none
  | some mosaic =>
    let mosaic := mosaic.addParticipant partId (s.ini - UInt64.ofInt partId)
    some { s with mosaics := SortedMap.set mosaicId mosaic.calculatePositions s.mosaics }

/-- Reference: `videomixer.cpp:743`. -/
def removeMosaicParticipant (mosaicId partId : Int) : Option VideoMixer :=
  match SortedMap.get? mosaicId s.mosaics with
  | none => none
  | some mosaic =>
    let mosaic := mosaic.removeParticipant partId
    some { s with mosaics := SortedMap.set mosaicId mosaic.calculatePositions s.mosaics }

/-- Reference: `videomixer.cpp:785`. -/
def endMixer (id : Int) : Option VideoMixer :=
  match SortedMap.get? id s.lstVideos with
  | none => none
  | some video =>
    some { s with
      lstVideos := SortedMap.set id { video with mosaic := none } s.lstVideos
      mosaics :=
        if s.mixingVideo then
          s.mosaics.map fun e =>
            (e.1, if e.2.hasParticipant id then (e.2.removeParticipant id).calculatePositions
              else e.2)
        else s.mosaics }

/-- Reference: `videomixer.cpp:857`. -/
def deleteMixer (id : Int) : Option VideoMixer :=
  match SortedMap.get? id s.lstVideos with
  | none => none
  | some _ => some { s with lstVideos := s.lstVideos.filter fun e => e.1 ≠ id }

/-- Free the slot a participant is fixed to. Reference: `videomixer.cpp:1050`. -/
def freeOld (mosaic : Mosaic) (id : Int) : Mosaic :=
  if 0 < id then
    match mosaic.getParticipantSlot id with
    | none => mosaic
    | some old => mosaic.setSlot old slotFree
  else mosaic

/-- Reference: `videomixer.cpp:1024`. -/
def setSlot (mosaicId num id : Int) : Option VideoMixer :=
  match SortedMap.get? mosaicId s.mosaics with
  | none => none
  | some mosaic =>
    -- the old slot is freed before it is known that there is the new one
    let mosaic := (freeOld mosaic id).setSlot num id
    some { s with mosaics := SortedMap.set mosaicId mosaic.calculatePositions s.mosaics }

/-- The default mosaic is not forgotten. Reference: `videomixer.cpp:1077`. -/
def deleteMosaic (mosaicId : Int) : Option VideoMixer :=
  match SortedMap.get? mosaicId s.mosaics with
  | none => none
  | some mosaic =>
    some { s with
      lstVideos := s.lstVideos.map fun e =>
        (e.1, if e.2.mosaic = some mosaic.address then { e.2 with mosaic := none } else e.2)
      mosaics := s.mosaics.filter fun e => e.1 ≠ mosaicId }

/-- The participant of the highest level, the active speaker when nobody has any. Reference:
`videomixer.cpp:174`. -/
def loudest (mosaic : Mosaic) (level : Int → UInt32) : Int :=
  (s.lstVideos.foldl (fun (best : UInt32 × Int) video =>
    if mosaic.hasParticipant video.1 ∧ (best.1 < level video.1 ∨ best.2 = 0) then
      (level video.1, video.1)
    else best) (0, mosaic.vadParticipant)).2

/-- Reference: `videomixer.cpp:172`. -/
def changeVAD (level : Int → UInt32) (clock : Clock) (mosaic : Mosaic) : Mosaic :=
  let oldVad := mosaic.vadParticipant
  let vadId := s.loudest mosaic level
  if s.vadMode ≠ .noVAD ∧ s.proxy ∧ mosaic.isVADShown ∧
      (oldVad = 0 ∨ mosaic.vadBlockingTime ≤ clock.asked) ∧ oldVad ≠ vadId then
    let hide := s.vadMode = .fullVAD
    let mosaic := mosaic.setVADParticipant vadId hide
      (clock.changed + (s.vadDefaultChangePeriod * 1000).toUInt64)
    let mosaic := if oldVad ≠ 0 ∧ hide then mosaic.setScore oldVad clock.scored else mosaic
    mosaic.calculatePositions
  else mosaic

/-- A round of the mixing thread, with the levels and the times it is told for each mosaic.
Reference: `videomixer.cpp:147`. -/
def mixVideo (levels : Int → Int → UInt32) (clocks : Int → Clock) : VideoMixer :=
  { s with mosaics := s.mosaics.map fun e => (e.1, s.changeVAD (levels e.1) (clocks e.1) e.2) }

/-- What a client can ask of the mixer, and a round of its thread. -/
inductive Action where
  | init (comp : MosaicType) (size : Int) (now : UInt64)
  | terminate
  | setVADMode (vadMode : VADMode)
  | setVADProxy (proxy : Bool)
  | setVADDefaultChangePeriod (ms : UInt32)
  | createMosaic (comp : MosaicType) (size : Int)
  | setCompositionType (mosaicId : Int) (comp : MosaicType) (size : Int)
  | setSlot (mosaicId num id : Int)
  | addMosaicParticipant (mosaicId partId : Int)
  | removeMosaicParticipant (mosaicId partId : Int)
  | deleteMosaic (mosaicId : Int)
  | createMixer (id : Int)
  | initMixer (id mosaicId : Int)
  | setMixerMosaic (id mosaicId : Int)
  | endMixer (id : Int)
  | deleteMixer (id : Int)
  | mixVideo (levels : Int → Int → UInt32) (clocks : Int → Clock)

/-- A call that is refused changes nothing. -/
def step : Action → VideoMixer
  | .init comp size now => s.init comp size now
  | .terminate => s.terminate
  | .setVADMode vadMode => { s with vadMode }
  | .setVADProxy proxy => { s with proxy }
  | .setVADDefaultChangePeriod ms => { s with vadDefaultChangePeriod := ms }
  | .createMosaic comp size => (s.createMosaic comp size).2
  | .setCompositionType mosaicId comp size => s.setCompositionType mosaicId comp size
  | .setSlot mosaicId num id => (s.setSlot mosaicId num id).getD s
  | .addMosaicParticipant mosaicId partId => (s.addMosaicParticipant mosaicId partId).getD s
  | .removeMosaicParticipant mosaicId partId => (s.removeMosaicParticipant mosaicId partId).getD s
  | .deleteMosaic mosaicId => (s.deleteMosaic mosaicId).getD s
  | .createMixer id => (s.createMixer id).getD s
  | .initMixer id mosaicId => (s.initMixer id mosaicId).getD s
  | .setMixerMosaic id mosaicId => (s.setMixerMosaic id mosaicId).getD s
  | .endMixer id => (s.endMixer id).getD s
  | .deleteMixer id => (s.deleteMixer id).getD s
  | .mixVideo levels clocks => if s.mixingVideo then s.mixVideo levels clocks else s

/-- What a mixer can come to, from one that was built: the constructor sets neither whether it mixes
nor when it began. Reference: `videomixer.cpp:28`. -/
def Reachable : Prop :=
  ∃ (mixingVideo : Bool) (ini : UInt64) (actions : List Action),
    run step { mixingVideo, ini } actions = s

/-! ## Reachable mixers -/

variable {m : Mosaic}

section Reachable

variable {s}

theorem freeOld_spec (h : m.FixedOnce) (id : Int) : (∀ i : Nat, (freeOld m id).mosaicSlots[i]? =
      if 0 < id ∧ m.mosaicSlots[i]? = some id then some slotFree else m.mosaicSlots[i]?) ∧
    (freeOld m id).mosaicType = m.mosaicType ∧
    ∀ k, (freeOld m id).hasParticipant k = m.hasParticipant k := by
  rw [freeOld]
  split
  case isFalse hneg =>
    refine ⟨fun i => ?_, rfl, fun _ => rfl⟩
    rw [if_neg fun hi => hneg hi.1]
  case isTrue hpos =>
    cases hold : m.getParticipantSlot id with
    | none =>
      refine ⟨fun i => ?_, rfl, fun _ => rfl⟩
      have hnot : id ∉ m.mosaicSlots := List.idxOf?_eq_none_iff.1 hold
      rw [if_neg fun hi => hnot (List.mem_of_getElem? hi.2)]
    | some old =>
      obtain ⟨hlt, hslot, -⟩ := List.idxOf?_eq_some_iff.1 hold
      have hget : m.mosaicSlots[old]? = some id := by
        rw [List.getElem?_eq_getElem hlt, hslot]
      have hnum : old < m.numSlots := hlt.trans_eq m.length_mosaicSlots
      refine ⟨fun i => ?_, Mosaic.mosaicType_setSlot _ _, fun k =>
        Mosaic.hasParticipant_of_score (Mosaic.score_setSlot _ _ _)⟩
      dsimp only
      rw [Mosaic.mosaicSlots_setSlot hnum, List.getElem?_set, if_pos hlt]
      rcases eq_or_ne old i with rfl | hne
      · rw [if_pos rfl, if_pos ⟨hpos, hget⟩]
      · rw [if_neg hne, if_neg fun hi => hne (h id old i hpos hget hi.2)]

theorem fixedOnce_freeOld (h : m.FixedOnce) (id : Int) : (freeOld m id).FixedOnce := by
  refine h.of_imp fun k i hk hi => ?_
  rw [(freeOld_spec h id).1] at hi
  split at hi
  case isTrue =>
    rw [slotFree, Option.some.injEq] at hi
    omega
  case isFalse => exact hi

theorem mosaicSlots_setSlot (h : m.FixedOnce) {num : Nat} (hnum : num < m.numSlots)
    (id : Int) (i : Nat) :
    ((freeOld m id).setSlot num id).mosaicSlots[i]? =
      if num = i then some id
      else if 0 < id ∧ m.mosaicSlots[i]? = some id then some slotFree
      else m.mosaicSlots[i]? := by
  obtain ⟨hslots, htype, -⟩ := freeOld_spec h id
  have hnum' : num < (freeOld m id).numSlots := by rwa [Mosaic.numSlots, htype]
  rw [Mosaic.mosaicSlots_setSlot hnum', List.getElem?_set,
    if_pos (hnum'.trans_eq (freeOld m id).length_mosaicSlots.symm), hslots]

theorem fixedOnce_setSlot (h : m.FixedOnce) (num id : Int) :
    ((freeOld m id).setSlot num id).FixedOnce := by
  by_cases hnum : 0 ≤ num ∧ num < m.numSlots
  · obtain ⟨n, rfl⟩ := Int.eq_ofNat_of_zero_le hnum.1
    have hslots := mosaicSlots_setSlot h (Int.ofNat_lt.1 hnum.2) id
    intro k i j hk hi hj
    rw [hslots] at hi hj
    have hother : ∀ l : Nat, n ≠ l →
        (if 0 < id ∧ m.mosaicSlots[l]? = some id then some slotFree else m.mosaicSlots[l]?) =
          some k → k ≠ id ∧ m.mosaicSlots[l]? = some k := by
      intro l _ hl
      split at hl
      case isTrue =>
        rw [slotFree, Option.some.injEq] at hl
        omega
      case isFalse hnot =>
        refine ⟨?_, hl⟩
        rintro rfl
        exact hnot ⟨hk, hl⟩
    rcases eq_or_ne n i with hni | hni
    · rcases eq_or_ne n j with hnj | hnj
      · rw [← hni, hnj]
      · rw [if_pos hni, Option.some.injEq] at hi
        rw [if_neg hnj] at hj
        exact absurd hi.symm (hother j hnj hj).1
    · rw [if_neg hni] at hi
      rcases eq_or_ne n j with hnj | hnj
      · rw [if_pos hnj, Option.some.injEq] at hj
        exact absurd hj.symm (hother i hni hi).1
      · rw [if_neg hnj] at hj
        exact h k i j hk (hother i hni hi).2 (hother j hnj hj).2
  · have htype := (freeOld_spec h id).2.1
    rw [Mosaic.setSlot_of_not (by rwa [Mosaic.numSlots, htype])]
    exact fixedOnce_freeOld h id

theorem getElem?_setSlots (slots : List Int) (i : Nat) : (m.setSlots slots).mosaicSlots[i]? =
      if i < m.numSlots then some (slots[i]?.getD slotFree) else none := by
  have hlength : (m.setSlots slots).mosaicSlots.length = m.numSlots :=
    (m.setSlots slots).length_mosaicSlots
  split
  case isTrue hi =>
    rw [Mosaic.setSlots]
    dsimp only
    by_cases hlt : i < slots.length
    · rw [List.getElem?_append_left (by rw [List.length_take]; omega), List.getElem?_take_of_lt hi,
        List.getElem?_eq_getElem hlt]
      rfl
    · rw [List.getElem?_append_right (by rw [List.length_take]; omega), List.getElem?_replicate,
        List.length_take, if_pos (by omega), List.getElem?_eq_none (by omega)]
      rfl
  case isFalse hi => exact List.getElem?_eq_none (by omega)

theorem fixedOnce_setSlots {m old : Mosaic} (h : old.FixedOnce) :
    (m.setSlots old.mosaicSlots).FixedOnce := by
  refine h.of_imp fun id i hid hi => ?_
  rw [getElem?_setSlots] at hi
  split at hi
  case isTrue =>
    cases hslot : old.mosaicSlots[i]? with
    | none =>
      rw [hslot, Option.getD_none, slotFree, Option.some.injEq] at hi
      omega
    | some slot => rwa [hslot, Option.getD_some] at hi
  case isFalse => cases hi

theorem fixedOnce_new (address : Nat) (comp : MosaicType) (size : Int) :
    (Mosaic.new address comp size).FixedOnce := by
  intro id i j hid hi
  rw [Mosaic.new, List.getElem?_replicate] at hi
  split at hi
  case isTrue =>
    rw [Option.some.injEq] at hi
    omega
  case isFalse => cases hi

theorem fixedOnce_removeParticipant (h : m.FixedOnce) (id : Int) :
    (m.removeParticipant id).FixedOnce := by
  rw [Mosaic.removeParticipant]
  cases SortedMap.get? id m.participants with
  | none => exact h
  | some info =>
    refine h.of_map (fun slot => ?_) rfl
    split
    · exact .inr rfl
    · exact .inl rfl

theorem fixedOnce_addParticipant (h : m.FixedOnce) (id : Int) (score : UInt64) :
    (m.addParticipant id score).FixedOnce := by
  rw [Mosaic.addParticipant]
  split <;> exact h

theorem fixedOnce_setScore (h : m.FixedOnce) (id : Int) (score : UInt64) :
    (m.setScore id score).FixedOnce := by
  rw [Mosaic.setScore]
  cases SortedMap.get? id m.participants <;> exact h

/-- Every mosaic of the mixer is settled, and fixes nobody to two slots. -/
def Inv (s : VideoMixer) : Prop := ∀ e ∈ s.mosaics, e.2.Inv

theorem Inv.get? (h : s.Inv) {mosaicId : Int}
    (hget : SortedMap.get? mosaicId s.mosaics = some m) : m.Inv :=
  h _ (SortedMap.mem_of_get? hget)

theorem Inv.set (h : s.Inv) (hm : m.FixedOnce) (mosaicId : Int) :
    ∀ e ∈ SortedMap.set mosaicId m.calculatePositions s.mosaics, e.2.Inv := by
  intro e he
  rcases SortedMap.mem_set he with rfl | he
  · exact hm.inv
  · exact h e he

theorem fixedOnce_setVADParticipant (h : m.FixedOnce) (id : Int) (hide : Bool)
    (blockedUntil : UInt64) : (m.setVADParticipant id hide blockedUntil).FixedOnce := h

theorem fixedOnce_takeOver {m old : Mosaic} (h : old.FixedOnce) : (s.takeOver old m).FixedOnce :=
  fixedOnce_setVADParticipant (fixedOnce_setSlots h) _ _ _

theorem inv_setCompositionType (h : s.Inv) (mosaicId : Int) (comp : MosaicType) (size : Int) :
    (s.setCompositionType mosaicId comp size).Inv := by
  rw [setCompositionType]
  cases hget : SortedMap.get? mosaicId s.mosaics with
  | none => exact h.set (fixedOnce_new _ _ _) mosaicId
  | some old => exact h.set (fixedOnce_takeOver (h.get? hget).fixedOnce) mosaicId

theorem inv_changeVAD (h : m.Inv) (level : Int → UInt32) (clock : Clock) :
    (s.changeVAD level clock m).Inv := by
  rw [changeVAD]
  dsimp only
  split
  case isTrue =>
    refine Mosaic.FixedOnce.inv ?_
    have hset := fixedOnce_setVADParticipant h.fixedOnce
    split
    · exact fixedOnce_setScore (hset _ _ _) _ _
    · exact hset _ _ _
  case isFalse => exact h

theorem inv_addMosaicParticipant (h : s.Inv) (mosaicId partId : Int) :
    ((s.addMosaicParticipant mosaicId partId).getD s).Inv := by
  rw [addMosaicParticipant]
  cases hget : SortedMap.get? mosaicId s.mosaics with
  | none => exact h
  | some m => exact h.set (fixedOnce_addParticipant (h.get? hget).fixedOnce _ _) mosaicId

theorem inv_removeMosaicParticipant (h : s.Inv) (mosaicId partId : Int) :
    ((s.removeMosaicParticipant mosaicId partId).getD s).Inv := by
  rw [removeMosaicParticipant]
  cases hget : SortedMap.get? mosaicId s.mosaics with
  | none => exact h
  | some m => exact h.set (fixedOnce_removeParticipant (h.get? hget).fixedOnce _) mosaicId

theorem inv_setSlot (h : s.Inv) (mosaicId num id : Int) :
    ((s.setSlot mosaicId num id).getD s).Inv := by
  rw [setSlot]
  cases hget : SortedMap.get? mosaicId s.mosaics with
  | none => exact h
  | some m => exact h.set (fixedOnce_setSlot (h.get? hget).fixedOnce _ _) mosaicId

theorem inv_deleteMosaic (h : s.Inv) (mosaicId : Int) :
    ((s.deleteMosaic mosaicId).getD s).Inv := by
  rw [deleteMosaic]
  cases SortedMap.get? mosaicId s.mosaics with
  | none => exact h
  | some m => exact fun e he => h e (List.mem_of_mem_filter he)

theorem inv_endMixer (h : s.Inv) (id : Int) : ((s.endMixer id).getD s).Inv := by
  rw [endMixer]
  cases SortedMap.get? id s.lstVideos with
  | none => exact h
  | some video =>
    intro e he
    dsimp only [Option.getD_some] at he
    split at he
    case isTrue =>
      obtain ⟨e, hmem, rfl⟩ := List.mem_map.1 he
      dsimp only
      split
      · exact (fixedOnce_removeParticipant (h e hmem).fixedOnce id).inv
      · exact h e hmem
    case isFalse => exact h e he

theorem mosaics_createMixer (id : Int) : ((s.createMixer id).getD s).mosaics = s.mosaics := by
  rw [createMixer]
  split <;> rfl

theorem mosaics_initMixer (id mosaicId : Int) :
    ((s.initMixer id mosaicId).getD s).mosaics = s.mosaics := by
  rw [initMixer]
  cases SortedMap.get? id s.lstVideos with
  | none => rfl
  | some video => cases SortedMap.get? mosaicId s.mosaics <;> rfl

theorem mosaics_setMixerMosaic (id mosaicId : Int) :
    ((s.setMixerMosaic id mosaicId).getD s).mosaics = s.mosaics := by
  rw [setMixerMosaic]
  cases SortedMap.get? id s.lstVideos <;> rfl

theorem mosaics_deleteMixer (id : Int) : ((s.deleteMixer id).getD s).mosaics = s.mosaics := by
  rw [deleteMixer]
  cases SortedMap.get? id s.lstVideos <;> rfl

theorem Inv.of_mosaics {t : VideoMixer} (h : s.Inv) (hmosaics : t.mosaics = s.mosaics) : t.Inv :=
  fun e he => h e (hmosaics ▸ he)

theorem inv_createMosaic (h : s.Inv) (comp : MosaicType) (size : Int) :
    (s.createMosaic comp size).2.Inv :=
  @inv_setCompositionType { s with maxMosaics := s.maxMosaics + 1 } (h.of_mosaics rfl) _ _ _

theorem inv_step (h : s.Inv) (a : Action) : (s.step a).Inv := by
  cases a with
  | init comp size now => exact (inv_createMosaic h comp size).of_mosaics rfl
  | terminate => exact fun e he => absurd he List.not_mem_nil
  | setVADMode vadMode => exact h.of_mosaics rfl
  | setVADProxy proxy => exact h.of_mosaics rfl
  | setVADDefaultChangePeriod ms => exact h.of_mosaics rfl
  | createMosaic comp size => exact inv_createMosaic h comp size
  | setCompositionType mosaicId comp size => exact inv_setCompositionType h mosaicId comp size
  | setSlot mosaicId num id => exact inv_setSlot h mosaicId num id
  | addMosaicParticipant mosaicId partId => exact inv_addMosaicParticipant h mosaicId partId
  | removeMosaicParticipant mosaicId partId => exact inv_removeMosaicParticipant h mosaicId partId
  | deleteMosaic mosaicId => exact inv_deleteMosaic h mosaicId
  | createMixer id => exact h.of_mosaics (mosaics_createMixer id)
  | initMixer id mosaicId => exact h.of_mosaics (mosaics_initMixer id mosaicId)
  | setMixerMosaic id mosaicId => exact h.of_mosaics (mosaics_setMixerMosaic id mosaicId)
  | endMixer id => exact inv_endMixer h id
  | deleteMixer id => exact h.of_mosaics (mosaics_deleteMixer id)
  | mixVideo levels clocks =>
    rw [step]
    split
    case isTrue =>
      intro e he
      obtain ⟨e, hmem, rfl⟩ := List.mem_map.1 he
      exact inv_changeVAD (h e hmem) _ _
    case isFalse => exact h

theorem Reachable.inv (h : s.Reachable) : s.Inv := by
  obtain ⟨mixingVideo, ini, actions, rfl⟩ := h
  refine invariant_of_meets (C := fun _ _ => True) (I := fun _ (t : VideoMixer) => t.Inv) ?_ ?_ actions
    (meets_of_forall (fun _ _ => trivial) actions)
  · exact fun e he => absurd he List.not_mem_nil
  · exact fun _ a hinv _ => inv_step hinv a

end Reachable

end VideoMixer

end McuMediaServer
