import McuMediaServer.Mosaic.Composition

/-!
# The slots an application server keeps

A conference of the application server keeps the slots of the default mosaic, which it is asked for
by its clients, and changes its copy after each call of the media server that sets a slot or the
composition. The two do not always change alike: the mosaic that a call names is not asked for, what
the media server does to other slots than the one that is set is not followed, nor is it known that
the slot of a participant is freed when it leaves. `MirroredConference.mirrors_iff` says which steps
keep the copy equal.
-/

namespace McuMediaServer

open StepRun VideoMixer

namespace Web

/-- The first slots, and free ones behind them. -/
def resize (slots : List Int) (n : Nat) : List Int :=
  slots.take n ++ List.replicate (n - slots.length) slotFree

theorem length_resize (slots : List Int) (n : Nat) : (resize slots n).length = n := by
  rw [resize, List.length_append, List.length_take, List.length_replicate]
  omega

theorem resize_length (slots : List Int) : resize slots slots.length = slots := by
  rw [resize, List.take_length, Nat.sub_self, List.replicate_zero, List.append_nil]

/-- What a conference keeps of the default mosaic. Reference: `Conference.java:123`. -/
structure ConferenceSlots where
  compType : MosaicType
  slots : List Int
  length_slots : slots.length = compType.numSlots

namespace ConferenceSlots

theorem length_free (compType : MosaicType) :
    (List.replicate compType.numSlots (0 : Int)).length = compType.numSlots :=
  List.length_replicate

/-- Reference: `Conference.java:161`. -/
def new (compType : MosaicType) : ConferenceSlots where
  compType
  slots := List.replicate compType.numSlots 0
  length_slots := length_free compType

variable (conf : ConferenceSlots)

/-- Reference: `Conference.setCompType` (`Conference.java:295`). -/
def setCompType (compType : MosaicType) : ConferenceSlots where
  compType
  slots := resize conf.slots compType.numSlots
  length_slots := length_resize _ _

/-- Setting a slot that the array does not have throws. Reference: `Conference.java:423`. -/
def setSlot (num partId : Int) : ConferenceSlots :=
  if 0 ≤ num ∧ num < conf.slots.length then
    { conf with
      slots := conf.slots.set num.toNat partId
      length_slots := List.length_set.trans conf.length_slots }
  else conf

end ConferenceSlots

/-- Reference: `XmlRpcMcuClient.DefaultMosaic`. -/
def defaultMosaic : Int := 0

/-- Reference: `multiconf.h:29`. -/
def appMixerId : Int := 1

/-- A conference of the application server, and that of the media server it makes its calls to. Of
this one there are the mixer, the participants and the next of their ids. -/
structure MirroredConference where
  conf : ConferenceSlots
  videoMixer : VideoMixer
  inited : Bool := false
  participants : List Int := []
  maxId : Int := 500

variable {mixer : VideoMixer}

namespace MirroredConference

variable (c : MirroredConference)

/-- Reference: `Conference.setCompositionType` (`Conference.java:634`). -/
def setCompositionType (mosaicId : Int) (compType : MosaicType) (size : Int) :
    MirroredConference :=
  { c with
    videoMixer := c.videoMixer.setCompositionType mosaicId compType size
    conf := c.conf.setCompType compType }

/-- Whether the media server refused is not asked. Reference: `Conference.setMosaicSlot`
(`Conference.java:417`). -/
def setMosaicSlot (mosaicId num partId : Int) : MirroredConference :=
  { c with
    videoMixer := (c.videoMixer.setSlot mosaicId num partId).getD c.videoMixer
    conf := c.conf.setSlot num partId }

/-- A conference that was made and not yet initialized. Whether the mixer of the media server mixes
and when it began is not set before. Reference: `Conference.java:139`. -/
def new (compType : MosaicType) (size : Int) (vad : VADMode) (mixingVideo : Bool) (ini : UInt64) :
    MirroredConference :=
  let c : MirroredConference :=
    { conf := .new compType
      videoMixer :=
        { mixingVideo, ini : VideoMixer }.setCompositionType defaultMosaic compType size }
  if vad ≠ .noVAD ∧ (compType = .mosaic1p7 ∨ compType = .mosaic1p5) then
    c.setMosaicSlot defaultMosaic 0 slotVAD
  else c

/-- A video source is made and shown a mosaic. -/
def addSource (mixer : VideoMixer) (id mosaicId : Int) : Option VideoMixer :=
  (mixer.createMixer id).map fun mixer => (mixer.initMixer id mosaicId).getD mixer

/-- The composition is that of the properties, and not that of the conference. Reference:
`Conference.init` (`Conference.java:223`), `MultiConf::Init` (`multiconf.cpp:84`). -/
def init (vad : VADMode) (comp : MosaicType) (size : Int) (now : UInt64) : MirroredConference :=
  let mixer :=
    if vad ≠ .noVAD then { c.videoMixer with vadMode := vad, proxy := true } else c.videoMixer
  let mixer := mixer.init comp size now
  { c with
    videoMixer := (addSource mixer appMixerId (-1)).getD mixer
    inited := true
    maxId := c.maxId + 1 }

/-- Nobody is let in before the conference is initialized. Reference: `Conference.createParticipant`
(`Conference.java:455`), `MultiConf::CreateParticipant` (`multiconf.cpp:598`). -/
def createParticipant (mosaicId : Int) : MirroredConference :=
  if !c.inited then c
  else match addSource c.videoMixer c.maxId mosaicId with
  | none => { c with maxId := c.maxId + 1 }
  | some mixer =>
    { c with
      videoMixer := mixer
      participants := c.participants ++ [c.maxId]
      maxId := c.maxId + 1 }

/-- Reference: `Conference.addMosaicParticipant` (`Conference.java:429`). -/
def addMosaicParticipant (mosaicId partId : Int) : MirroredConference :=
  { c with videoMixer := (c.videoMixer.addMosaicParticipant mosaicId partId).getD c.videoMixer }

/-- Reference: `Conference.joinParticipant` (`Conference.java:565`). -/
def joinParticipant (partId : Int) : MirroredConference :=
  c.addMosaicParticipant defaultMosaic partId

/-- Reference: `Conference.removeMosaicParticipant` (`Conference.java:438`). -/
def removeMosaicParticipant (mosaicId partId : Int) : MirroredConference :=
  { c with videoMixer := (c.videoMixer.removeMosaicParticipant mosaicId partId).getD c.videoMixer }

/-- A participant leaves. Reference: `RTPParticipant.destroy` (`RTPParticipant.java:2479`),
`MultiConf::DeleteParticipant` (`multiconf.cpp:710`). -/
def deleteParticipant (partId : Int) : MirroredConference :=
  if partId ∈ c.participants then
    let mixer := (c.videoMixer.endMixer partId).getD c.videoMixer
    { c with
      videoMixer := (mixer.deleteMixer partId).getD mixer
      participants := c.participants.filter fun id => id ≠ partId }
  else c

/-- What a conference is asked for, and a round of the mixing thread of the media server. -/
inductive Action where
  | init (vad : VADMode) (comp : MosaicType) (size : Int) (now : UInt64)
  | setCompositionType (mosaicId : Int) (compType : MosaicType) (size : Int)
  | setMosaicSlot (mosaicId num partId : Int)
  | createMosaic (compType : MosaicType) (size : Int)
  | deleteMosaic (mosaicId : Int)
  | addMosaicParticipant (mosaicId partId : Int)
  | removeMosaicParticipant (mosaicId partId : Int)
  | createParticipant (mosaicId : Int)
  | acceptParticipant (partId mosaicId : Int)
  | joinParticipant (partId : Int)
  | deleteParticipant (partId : Int)
  | mixVideo (levels : Int → Int → UInt32) (clocks : Int → Clock)

def step : Action → MirroredConference
  | .init vad comp size now => c.init vad comp size now
  | .setCompositionType mosaicId compType size => c.setCompositionType mosaicId compType size
  | .setMosaicSlot mosaicId num partId => c.setMosaicSlot mosaicId num partId
  | .createMosaic compType size =>
    { c with videoMixer := (c.videoMixer.createMosaic compType size).2 }
  | .deleteMosaic mosaicId =>
    { c with videoMixer := (c.videoMixer.deleteMosaic mosaicId).getD c.videoMixer }
  | .addMosaicParticipant mosaicId partId => c.addMosaicParticipant mosaicId partId
  | .removeMosaicParticipant mosaicId partId => c.removeMosaicParticipant mosaicId partId
  | .createParticipant mosaicId => c.createParticipant mosaicId
  | .acceptParticipant partId mosaicId =>
    { c with videoMixer := (c.videoMixer.setMixerMosaic partId mosaicId).getD c.videoMixer }
  | .joinParticipant partId => c.joinParticipant partId
  | .deleteParticipant partId => c.deleteParticipant partId
  | .mixVideo levels clocks =>
    { c with videoMixer := c.videoMixer.step (.mixVideo levels clocks) }

/-! ## The copy -/

/-- The slots of the default mosaic of a mixer. -/
def defaultSlots (videoMixer : VideoMixer) : Option (List Int) :=
  (SortedMap.get? defaultMosaic videoMixer.mosaics).map VideoMixer.Mosaic.mosaicSlots

/-- The conference keeps the slots that the default mosaic has. -/
def Mirrors : Prop := defaultSlots c.videoMixer = some c.conf.slots

instance decidableMirrors : Decidable c.Mirrors :=
  inferInstanceAs (Decidable (_ = _))

/-- Whether a participant is in the default mosaic. -/
def hasParticipant (partId : Int) : Bool :=
  ((SortedMap.get? defaultMosaic c.videoMixer.mosaics).map
    fun m => m.hasParticipant partId).getD false

/-- The participants that are fixed to the slots which a composition has are video sources. -/
def Movable (compType : MosaicType) : Prop :=
  ∀ slot ∈ c.conf.slots.take compType.numSlots,
    Setting slot ∨ (SortedMap.get? slot c.videoMixer.lstVideos).isSome

/-- A new mosaic of the next id: it takes the place of the default mosaic when no mosaic was
numbered before. -/
def Creates (compType : MosaicType) : Prop :=
  c.videoMixer.maxMosaics = defaultMosaic →
    compType.numSlots = c.conf.slots.length ∧ c.Movable compType

/-- A participant of the default mosaic is fixed in it. -/
def Fixed (partId : Int) : Prop :=
  c.hasParticipant partId = true ∧ partId ≠ slotFree ∧ partId ∈ c.conf.slots

/-- The default mosaic has the slot, and may show there what it is given without changing another;
or it does not have the slot, and there is none to free. -/
def Assignable (num partId : Int) : Prop :=
  if 0 ≤ num ∧ num < c.conf.slots.length then
    (Setting partId ∨ c.hasParticipant partId = true) ∧
      (0 < partId → ∀ i : Nat, num ≠ i → c.conf.slots[i]? ≠ some partId)
  else ¬(0 < partId ∧ partId ∈ c.conf.slots)

/-- The step is a change of the default mosaic that both sides make, or of another one that leaves
the copy as it is. -/
def Agrees : Action → Prop
  | .init _ comp _ _ => c.Creates comp
  | .setCompositionType mosaicId compType _ =>
    if mosaicId = defaultMosaic then c.Movable compType
    else compType.numSlots = c.conf.slots.length
  | .setMosaicSlot mosaicId num partId =>
    if mosaicId = defaultMosaic then c.Assignable num partId
    else 0 ≤ num ∧ num < c.conf.slots.length → c.conf.slots[num.toNat]? = some partId
  | .createMosaic compType _ => c.Creates compType
  | .deleteMosaic mosaicId => mosaicId ≠ defaultMosaic
  | .removeMosaicParticipant mosaicId partId => mosaicId = defaultMosaic → ¬c.Fixed partId
  | .deleteParticipant partId =>
    partId ∈ c.participants ∧ c.videoMixer.mixingVideo ∧
      (SortedMap.get? partId c.videoMixer.lstVideos).isSome → ¬c.Fixed partId
  | _ => True

/-! ## What the steps do to the slots -/

section Steps

variable {c} {m : VideoMixer.Mosaic}

theorem hasParticipant_of_get?
    (hget : SortedMap.get? defaultMosaic c.videoMixer.mosaics = some m) (partId : Int) :
    c.hasParticipant partId = m.hasParticipant partId := by
  rw [hasParticipant, hget, Option.map_some, Option.getD_some]

theorem Mirrors.get? (h : c.Mirrors) :
    ∃ m, SortedMap.get? defaultMosaic c.videoMixer.mosaics = some m ∧
      m.mosaicSlots = c.conf.slots :=
  Option.map_eq_some_iff.1 h

theorem kept_eq_iff (has : Int → Bool) (slot : Int) :
    VideoMixer.Mosaic.kept has slot = slot ↔ Setting slot ∨ has slot = true := by
  rw [VideoMixer.Mosaic.kept]
  split
  case isTrue h => exact iff_of_true rfl h
  case isFalse h => exact iff_of_false (fun heq => h (.inl (.inl heq.symm))) h

theorem map_kept_eq_iff (has : Int → Bool) (slots : List Int) :
    slots.map (VideoMixer.Mosaic.kept has) = slots ↔
      ∀ slot ∈ slots, Setting slot ∨ has slot = true := by
  induction slots with
  | nil => exact iff_of_true rfl fun _ h => absurd h List.not_mem_nil
  | cons slot slots ih =>
    rw [List.map_cons, List.cons.injEq, ih, kept_eq_iff, List.forall_mem_cons]

theorem mosaicSlots_takeOver (mixer : VideoMixer) (address : Nat)
    (compType : MosaicType) (size : Int) :
    (mixer.takeOver m (VideoMixer.Mosaic.new address compType size)).calculatePositions.mosaicSlots =
      (resize m.mosaicSlots compType.numSlots).map
        (VideoMixer.Mosaic.kept (mixer.takeOver m
          (VideoMixer.Mosaic.new address compType size)).hasParticipant) := by
  rw [VideoMixer.Mosaic.mosaicSlots_calculatePositions]
  refine congrArg _ ?_
  have hnum : (copyParticipants m mixer.lstVideos
      (VideoMixer.Mosaic.new address compType size)).numSlots = compType.numSlots :=
    congrArg MosaicType.numSlots (copyParticipants_frame m mixer.lstVideos _).1
  rw [← hnum]
  rfl

theorem hasParticipant_takeOver (mixer : VideoMixer) (address : Nat) (compType : MosaicType)
    (size k : Int) :
    (mixer.takeOver m (VideoMixer.Mosaic.new address compType size)).hasParticipant k =
      ((SortedMap.get? k mixer.lstVideos).isSome && m.hasParticipant k) := by
  have hscore := congrArg Option.isSome
    (score_takeOver (m := m) (s := mixer) address compType size k)
  rw [Option.isSome_map] at hscore
  rw [VideoMixer.Mosaic.hasParticipant, hscore]
  split
  case isTrue h => rw [h, Bool.true_and, Option.isSome_map, VideoMixer.Mosaic.hasParticipant]
  case isFalse h => rw [Bool.eq_false_iff.2 h, Bool.false_and, Option.isSome_none]

theorem takeOver_iff (hm : m.Inv) (hslots : m.mosaicSlots = c.conf.slots) (address : Nat)
    (compType : MosaicType) (size : Int) :
    (c.videoMixer.takeOver m
      (VideoMixer.Mosaic.new address compType size)).calculatePositions.mosaicSlots =
      resize c.conf.slots compType.numSlots ↔ c.Movable compType := by
  rw [mosaicSlots_takeOver, hslots, map_kept_eq_iff, Movable]
  constructor
  · intro h slot hslot
    refine (h slot (List.mem_append_left _ hslot)).imp_right fun hhas => ?_
    rw [hasParticipant_takeOver, Bool.and_eq_true] at hhas
    exact hhas.1
  · intro h slot hslot
    rcases List.mem_append.1 hslot with hcopied | hfree
    · refine (h slot hcopied).elim .inl fun hsource => ?_
      have hin : slot ∈ m.mosaicSlots := hslots ▸ List.mem_of_mem_take hcopied
      refine ((kept_eq_iff _ _).1 (hm.settled.kept_eq hin)).imp_right fun hhas => ?_
      rw [hasParticipant_takeOver, hsource, hhas, Bool.and_true]
    · exact .inl (.inl (List.eq_of_mem_replicate hfree))

theorem defaultSlots_set {mixer videoMixer : VideoMixer} {mosaicId : Int}
    {mosaic : VideoMixer.Mosaic}
    (hmosaics : videoMixer.mosaics = SortedMap.set mosaicId mosaic mixer.mosaics) :
    defaultSlots videoMixer =
      if defaultMosaic = mosaicId then some mosaic.mosaicSlots else defaultSlots mixer := by
  rw [defaultSlots, hmosaics, SortedMap.get?_set]
  split <;> rfl

theorem defaultSlots_congr {mixer videoMixer : VideoMixer}
    (hmosaics : videoMixer.mosaics = mixer.mosaics) :
    defaultSlots videoMixer = defaultSlots mixer := by
  rw [defaultSlots, hmosaics, defaultSlots]

theorem defaultSlots_setCompositionType
    (hget : SortedMap.get? defaultMosaic mixer.mosaics = some m) (mosaicId : Int)
    (compType : MosaicType) (size : Int) :
    defaultSlots (mixer.setCompositionType mosaicId compType size) =
      some (if mosaicId = defaultMosaic then
        (mixer.takeOver m
          (VideoMixer.Mosaic.new mixer.allocated compType size)).calculatePositions.mosaicSlots
      else m.mosaicSlots) := by
  split
  case isTrue h =>
    subst h
    rw [defaultSlots, (setCompositionType_eq hget compType size).2.2, Option.map_some]
  case isFalse h =>
    have hsame : defaultSlots mixer = some m.mosaicSlots := by
      rw [defaultSlots, hget, Option.map_some]
    rw [VideoMixer.setCompositionType]
    cases SortedMap.get? mosaicId mixer.mosaics with
    | none => exact (defaultSlots_set rfl).trans ((if_neg (Ne.symm h)).trans hsame)
    | some old => exact (defaultSlots_set rfl).trans ((if_neg (Ne.symm h)).trans hsame)

theorem map_kept_of_settled (hm : m.Inv) {has : Int → Bool}
    (hhas : ∀ slot, m.hasParticipant slot = true → has slot = true) :
    m.mosaicSlots.map (VideoMixer.Mosaic.kept has) = m.mosaicSlots := by
  rw [map_kept_eq_iff]
  intro slot hslot
  exact ((kept_eq_iff _ _).1 (hm.settled.kept_eq hslot)).imp_right (hhas slot)

theorem hasParticipant_removeParticipant (id k : Int) (hne : k ≠ id) :
    (m.removeParticipant id).hasParticipant k = m.hasParticipant k := by
  rw [VideoMixer.Mosaic.removeParticipant]
  cases SortedMap.get? id m.participants with
  | none => rfl
  | some info =>
    have hget : SortedMap.get? k (m.participants.filter fun e => e.1 ≠ id) =
        SortedMap.get? k m.participants :=
      (SortedMap.get?_filter (fun i => decide (i ≠ id)) k m.participants).trans
        (if_pos (decide_eq_true hne))
    exact congrArg Option.isSome hget

theorem removeParticipant_iff (hm : m.Inv) (id : Int) :
    (m.removeParticipant id).calculatePositions.mosaicSlots = m.mosaicSlots ↔
      ¬(m.hasParticipant id = true ∧ id ≠ slotFree ∧ id ∈ m.mosaicSlots) := by
  rw [VideoMixer.Mosaic.mosaicSlots_calculatePositions]
  cases hin : SortedMap.get? id m.participants with
  | none =>
    have hsame : m.removeParticipant id = m := by rw [VideoMixer.Mosaic.removeParticipant, hin]
    rw [hsame, VideoMixer.Mosaic.hasParticipant, hin]
    exact iff_of_true (map_kept_of_settled hm fun _ h => h) fun h => Bool.false_ne_true h.1
  | some info =>
    have hslots : (m.removeParticipant id).mosaicSlots =
        m.mosaicSlots.map fun slot => if slot = id then slotFree else slot := by
      rw [VideoMixer.Mosaic.removeParticipant, hin]
    have hhas : m.hasParticipant id = true := by
      rw [VideoMixer.Mosaic.hasParticipant, hin, Option.isSome_some]
    rw [hslots, List.map_map, hhas]
    constructor
    · rintro h ⟨-, hne, hmem⟩
      have := List.map_inj_left.1 (h.trans (List.map_id _).symm) id hmem
      rw [Function.comp_apply, if_pos rfl, (kept_eq_iff _ _).2 (.inl (.inl rfl)), id_eq] at this
      exact hne this.symm
    · intro h
      refine (List.map_congr_left fun slot hslot => ?_).trans (List.map_id _)
      rw [Function.comp_apply, id_eq]
      by_cases heq : slot = id
      · have hfree : id = slotFree := by
          by_contra hne
          exact h ⟨rfl, hne, heq ▸ hslot⟩
        rw [if_pos heq, heq, hfree, (kept_eq_iff _ _).2 (.inl (.inl rfl))]
      · rw [if_neg heq, kept_eq_iff, hasParticipant_removeParticipant _ _ heq]
        exact (kept_eq_iff _ _).1 (hm.settled.kept_eq hslot)

theorem setSlot_iff (hm : m.Inv) (num id : Int) :
    ((freeOld m id).setSlot num id).calculatePositions.mosaicSlots =
        (if 0 ≤ num ∧ num < m.mosaicSlots.length then m.mosaicSlots.set num.toNat id
        else m.mosaicSlots) ↔
      if 0 ≤ num ∧ num < m.mosaicSlots.length then
        (Setting id ∨ m.hasParticipant id = true) ∧
          (0 < id → ∀ i : Nat, num ≠ i → m.mosaicSlots[i]? ≠ some id)
      else ¬(0 < id ∧ id ∈ m.mosaicSlots) := by
  obtain ⟨hfreed, htype, hhas⟩ := freeOld_spec hm.fixedOnce id
  have hhas' : ((freeOld m id).setSlot num id).hasParticipant = m.hasParticipant :=
    funext fun k =>
      (VideoMixer.Mosaic.hasParticipant_of_score (VideoMixer.Mosaic.score_setSlot _ _ _)).trans
        (hhas k)
  rw [VideoMixer.Mosaic.mosaicSlots_calculatePositions, hhas']
  have hkept : ∀ i : Nat, (m.mosaicSlots[i]?).map (VideoMixer.Mosaic.kept m.hasParticipant) =
      m.mosaicSlots[i]? := by
    intro i
    cases hi : m.mosaicSlots[i]? with
    | none => rfl
    | some slot => exact congrArg some (hm.settled.kept_eq (List.mem_of_getElem? hi))
  have hfree : VideoMixer.Mosaic.kept m.hasParticipant slotFree = slotFree :=
    (kept_eq_iff _ _).2 (.inl (.inl rfl))
  rw [m.length_mosaicSlots]
  split
  case isTrue hnum =>
    obtain ⟨n, rfl⟩ := Int.eq_ofNat_of_zero_le hnum.1
    have hn : n < m.numSlots := Int.ofNat_lt.1 hnum.2
    have hlt : n < m.mosaicSlots.length := hn.trans_eq m.length_mosaicSlots.symm
    have hslots := mosaicSlots_setSlot hm.fixedOnce hn id
    rw [List.ext_getElem?_iff, Int.toNat_natCast]
    constructor
    · intro h
      refine ⟨?_, fun hpos i hne hi => ?_⟩
      · have hself := h n
        rw [List.getElem?_map, hslots, if_pos rfl, List.getElem?_set, if_pos rfl, if_pos hlt,
          Option.map_some, Option.some.injEq] at hself
        exact (kept_eq_iff _ _).1 hself
      · have hother := h i
        have hni : n ≠ i := fun heq => hne (congrArg Int.ofNat heq)
        rw [List.getElem?_map, hslots, if_neg hni, if_pos ⟨hpos, hi⟩, List.getElem?_set,
          if_neg hni, hi, Option.map_some, hfree, Option.some.injEq] at hother
        rw [← hother, slotFree] at hpos
        omega
    · rintro ⟨hshown, hnowhere⟩ i
      rw [List.getElem?_map, hslots, List.getElem?_set]
      by_cases hni : n = i
      · rw [if_pos hni, if_pos hni, if_pos hlt, Option.map_some, (kept_eq_iff _ _).2 hshown]
      · have hne : (n : Int) ≠ i := fun heq => hni (Int.ofNat_inj.1 heq)
        rw [if_neg hni, if_neg hni, if_neg fun h => hnowhere h.1 i hne h.2, hkept]
  case isFalse hnum =>
    rw [VideoMixer.Mosaic.setSlot_of_not (by rwa [VideoMixer.Mosaic.numSlots, htype]),
      List.ext_getElem?_iff]
    constructor
    · rintro h ⟨hpos, hmem⟩
      obtain ⟨i, hi⟩ := List.mem_iff_getElem?.1 hmem
      have hthere := h i
      rw [List.getElem?_map, hfreed, if_pos ⟨hpos, hi⟩, hi, Option.map_some, hfree,
        Option.some.injEq] at hthere
      rw [← hthere, slotFree] at hpos
      omega
    · intro h i
      rw [List.getElem?_map, hfreed, if_neg fun hi => h ⟨hi.1, List.mem_of_getElem? hi.2⟩, hkept]

end Steps

/-! ## Which steps keep the copy -/

section Mirrors

variable {c}

theorem mirrors_of_eq (h : c.Mirrors) {d : MirroredConference} (hconf : d.conf = c.conf)
    (hslots : defaultSlots d.videoMixer = defaultSlots c.videoMixer) : d.Mirrors := by
  rw [Mirrors, hconf, hslots]
  exact h

theorem mirrors_setCompositionType_iff (hinv : c.videoMixer.Inv) (h : c.Mirrors) (mosaicId : Int)
    (compType : MosaicType) (size : Int) :
    (c.setCompositionType mosaicId compType size).Mirrors ↔
      if mosaicId = defaultMosaic then c.Movable compType
      else compType.numSlots = c.conf.slots.length := by
  obtain ⟨m, hget, hslots⟩ := h.get?
  rw [Mirrors, setCompositionType]
  dsimp only
  rw [defaultSlots_setCompositionType hget, Option.some.injEq, ConferenceSlots.setCompType]
  dsimp only
  split
  case isTrue => exact takeOver_iff (hinv.get? hget) hslots _ _ _
  case isFalse =>
    rw [hslots]
    constructor
    · intro heq
      rw [heq, length_resize]
    · intro heq
      rw [heq, resize_length]

theorem defaultSlots_createMosaic_iff (hinv : c.videoMixer.Inv) (h : c.Mirrors)
    (hmosaics : mixer.mosaics = c.videoMixer.mosaics)
    (hvideos : mixer.lstVideos = c.videoMixer.lstVideos)
    (hmax : mixer.maxMosaics = c.videoMixer.maxMosaics) (compType : MosaicType) (size : Int) :
    defaultSlots (mixer.createMosaic compType size).2 = some c.conf.slots ↔ c.Creates compType := by
  obtain ⟨m, hget, hslots⟩ := h.get?
  let c' : MirroredConference :=
    { c with videoMixer := { mixer with maxMosaics := mixer.maxMosaics + 1 } }
  have hget' : SortedMap.get? defaultMosaic c'.videoMixer.mosaics = some m := by
    rwa [← hmosaics] at hget
  have hmovable : c'.Movable compType ↔ c.Movable compType := by
    rw [Movable, Movable, ← hvideos]
  have hiff := takeOver_iff (c := c') (hinv.get? hget) hslots c'.videoMixer.allocated compType size
  have hlength : (c'.videoMixer.takeOver m (VideoMixer.Mosaic.new c'.videoMixer.allocated compType
      size)).calculatePositions.mosaicSlots.length = compType.numSlots := by
    rw [mosaicSlots_takeOver, List.length_map, length_resize]
  refine (congrArg (· = some c.conf.slots) (defaultSlots_setCompositionType hget' mixer.maxMosaics
    compType size)).to_iff.trans ?_
  rw [Option.some.injEq, Creates, hmax]
  split
  case isTrue hzero =>
    rw [← hmovable, ← hiff]
    constructor
    · intro heq _
      have hnum : compType.numSlots = c.conf.slots.length := by rw [← hlength, heq]
      exact ⟨hnum, by rw [heq, hnum, resize_length]⟩
    · intro heq
      obtain ⟨hnum, hmoved⟩ := heq hzero
      rw [hmoved, hnum, resize_length]
  case isFalse hnot => exact iff_of_true hslots fun hzero => absurd hzero hnot

theorem mirrors_setMosaicSlot_iff (hinv : c.videoMixer.Inv) (h : c.Mirrors)
    (mosaicId num partId : Int) :
    (c.setMosaicSlot mosaicId num partId).Mirrors ↔
      if mosaicId = defaultMosaic then c.Assignable num partId
      else 0 ≤ num ∧ num < c.conf.slots.length → c.conf.slots[num.toNat]? = some partId := by
  obtain ⟨m, hget, hslots⟩ := h.get?
  have hconf : (c.conf.setSlot num partId).slots =
      if 0 ≤ num ∧ num < c.conf.slots.length then c.conf.slots.set num.toNat partId
      else c.conf.slots := by
    rw [ConferenceSlots.setSlot]
    split <;> rfl
  rw [Mirrors, setMosaicSlot]
  dsimp only
  rw [hconf]
  rcases eq_or_ne mosaicId defaultMosaic with rfl | hne
  · rw [if_pos rfl, setSlot_eq hget, Option.getD_some, defaultSlots_set rfl, if_pos rfl,
      Option.some.injEq, Assignable, hasParticipant_of_get? hget, ← hslots]
    exact setSlot_iff (hinv.get? hget) num partId
  · rw [if_neg hne]
    have hserver : defaultSlots ((c.videoMixer.setSlot mosaicId num partId).getD c.videoMixer) =
        some c.conf.slots := by
      rw [VideoMixer.setSlot]
      cases SortedMap.get? mosaicId c.videoMixer.mosaics with
      | none => exact h
      | some old => exact (defaultSlots_set rfl).trans ((if_neg (Ne.symm hne)).trans h)
    rw [hserver, Option.some.injEq]
    split
    case isTrue hnum =>
      obtain ⟨n, rfl⟩ := Int.eq_ofNat_of_zero_le hnum.1
      rw [Int.toNat_natCast]
      have hlt : n < c.conf.slots.length := Int.ofNat_lt.1 hnum.2
      constructor
      · intro heq _
        rw [heq, List.getElem?_set_self hlt]
      · intro heq
        refine List.ext_getElem?_iff.2 fun i => ?_
        rw [List.getElem?_set]
        split
        case isTrue hi => rw [← hi, heq hnum]
        case isFalse => rfl
    case isFalse hnum => exact iff_of_true rfl fun hin => absurd hin hnum

theorem mirrors_removeMosaicParticipant_iff (hinv : c.videoMixer.Inv) (h : c.Mirrors)
    (mosaicId partId : Int) :
    (c.removeMosaicParticipant mosaicId partId).Mirrors ↔
      (mosaicId = defaultMosaic → ¬c.Fixed partId) := by
  obtain ⟨m, hget, hslots⟩ := h.get?
  rw [Mirrors, removeMosaicParticipant, VideoMixer.removeMosaicParticipant]
  dsimp only
  rcases eq_or_ne mosaicId defaultMosaic with rfl | hne
  · rw [hget, Option.getD_some, defaultSlots_set rfl, if_pos rfl, Option.some.injEq, ← hslots,
      removeParticipant_iff (hinv.get? hget), Fixed, hasParticipant_of_get? hget, ← hslots]
    exact ⟨fun hout _ => hout, fun hout => hout rfl⟩
  · refine iff_of_true ?_ fun heq => absurd heq hne
    cases SortedMap.get? mosaicId c.videoMixer.mosaics with
    | none => exact h
    | some old => exact (defaultSlots_set rfl).trans ((if_neg (Ne.symm hne)).trans h)

theorem mirrors_deleteParticipant_iff (hinv : c.videoMixer.Inv) (h : c.Mirrors) (partId : Int) :
    (c.deleteParticipant partId).Mirrors ↔
      (partId ∈ c.participants ∧ c.videoMixer.mixingVideo ∧
        (SortedMap.get? partId c.videoMixer.lstVideos).isSome → ¬c.Fixed partId) := by
  obtain ⟨m, hget, hslots⟩ := h.get?
  rw [deleteParticipant]
  split
  case isFalse hnot => exact iff_of_true h fun hin => absurd hin.1 hnot
  case isTrue hin =>
    rw [Mirrors]
    dsimp only
    rw [defaultSlots_congr (mosaics_deleteMixer partId), endMixer]
    cases hvideo : SortedMap.get? partId c.videoMixer.lstVideos with
    | none => exact iff_of_true h fun hsome => Bool.false_ne_true hsome.2.2 |>.elim
    | some video =>
      dsimp only
      rw [Option.getD_some, defaultSlots]
      dsimp only
      split
      case isFalse hnot => exact iff_of_true h fun hsome => absurd hsome.2.1 hnot
      case isTrue hmixing =>
        have hended := SortedMap.get?_map (fun mosaic : VideoMixer.Mosaic =>
          if mosaic.hasParticipant partId then (mosaic.removeParticipant partId).calculatePositions
          else mosaic) defaultMosaic c.videoMixer.mosaics
        rw [hended, hget, Option.map_some, Option.map_some, Option.some.injEq, Fixed,
          hasParticipant_of_get? hget, ← hslots]
        split
        case isTrue hhas =>
          rw [removeParticipant_iff (hinv.get? hget)]
          exact ⟨fun hout _ => hout, fun hout => hout ⟨hin, hmixing, rfl⟩⟩
        case isFalse hhas => exact iff_of_true rfl fun _ hfixed => hhas hfixed.1

theorem mirrors_deleteMosaic_iff (h : c.Mirrors) (mosaicId : Int) :
    (c.step (.deleteMosaic mosaicId)).Mirrors ↔ mosaicId ≠ defaultMosaic := by
  obtain ⟨m, hget, -⟩ := h.get?
  have hfilter : SortedMap.get? defaultMosaic (c.videoMixer.mosaics.filter
      fun e => e.1 ≠ mosaicId) = if defaultMosaic ≠ mosaicId then some m else none := by
    rw [← hget, SortedMap.get?_filter fun i => decide (i ≠ mosaicId)]
    simp only [decide_eq_true_eq]
  rw [step, Mirrors, VideoMixer.deleteMosaic]
  cases hmosaic : SortedMap.get? mosaicId c.videoMixer.mosaics with
  | none =>
    refine iff_of_true h ?_
    rintro rfl
    rw [hget] at hmosaic
    cases hmosaic
  | some mosaic =>
    dsimp only
    rw [Option.getD_some, defaultSlots]
    dsimp only
    rw [hfilter]
    split
    case isTrue hne =>
      have hslots : m.mosaicSlots = c.conf.slots := by
        rwa [Mirrors, defaultSlots, hget, Option.map_some, Option.some.injEq] at h
      exact iff_of_true (congrArg some hslots) (Ne.symm hne)
    case isFalse hne => exact iff_of_false (fun hnone => by cases hnone) fun heq => hne heq.symm

theorem defaultSlots_addMosaicParticipant (hinv : mixer.Inv) (mosaicId partId : Int) :
    defaultSlots ((mixer.addMosaicParticipant mosaicId partId).getD mixer) =
      defaultSlots mixer := by
  rw [VideoMixer.addMosaicParticipant]
  cases hget : SortedMap.get? mosaicId mixer.mosaics with
  | none => rfl
  | some m =>
    refine (defaultSlots_set rfl).trans ?_
    split
    case isFalse => rfl
    case isTrue heq =>
      have hhas : ∀ slot, m.hasParticipant slot = true →
          (m.addParticipant partId (mixer.ini - UInt64.ofInt partId)).hasParticipant slot =
            true := by
        intro slot hslot
        rw [VideoMixer.Mosaic.addParticipant]
        split
        case isTrue => exact hslot
        case isFalse =>
          rw [VideoMixer.Mosaic.hasParticipant, SortedMap.get?_set]
          split
          case isTrue => rfl
          case isFalse => exact hslot
      have hslots : (m.addParticipant partId (mixer.ini - UInt64.ofInt partId)).mosaicSlots =
          m.mosaicSlots := by
        rw [VideoMixer.Mosaic.addParticipant]
        split <;> rfl
      rw [VideoMixer.Mosaic.mosaicSlots_calculatePositions, hslots,
        map_kept_of_settled (hinv.get? hget) hhas, defaultSlots, heq, hget, Option.map_some]

theorem setScore_frame (m : VideoMixer.Mosaic) (id : Int) (score : UInt64) :
    (m.setScore id score).mosaicSlots = m.mosaicSlots ∧
      ∀ k, (m.setScore id score).hasParticipant k = m.hasParticipant k := by
  rw [VideoMixer.Mosaic.setScore]
  cases hid : SortedMap.get? id m.participants with
  | none => exact ⟨rfl, fun _ => rfl⟩
  | some info =>
    refine ⟨rfl, fun k => ?_⟩
    rw [VideoMixer.Mosaic.hasParticipant, SortedMap.get?_set]
    split
    case isTrue hk => rw [hk, VideoMixer.Mosaic.hasParticipant, hid]; rfl
    case isFalse => rfl

theorem mosaicSlots_changeVAD {m : VideoMixer.Mosaic} (hm : m.Inv) (mixer : VideoMixer)
    (level : Int → UInt32) (clock : Clock) :
    (mixer.changeVAD level clock m).mosaicSlots = m.mosaicSlots := by
  rw [changeVAD]
  dsimp only
  split
  case isFalse => rfl
  case isTrue =>
    rw [VideoMixer.Mosaic.mosaicSlots_calculatePositions]
    split
    case isTrue =>
      obtain ⟨hslots, hhas⟩ := setScore_frame (m.setVADParticipant (mixer.loudest m level)
        (mixer.vadMode = .fullVAD) (clock.changed + (mixer.vadDefaultChangePeriod * 1000).toUInt64))
        m.vadParticipant clock.scored
      rw [hslots]
      exact map_kept_of_settled hm fun slot hslot => (hhas slot).trans hslot
    case isFalse => exact map_kept_of_settled hm fun _ hslot => hslot

theorem defaultSlots_mixVideo (hinv : mixer.Inv)
    (levels : Int → Int → UInt32) (clocks : Int → Clock) :
    defaultSlots (mixer.mixVideo levels clocks) = defaultSlots mixer := by
  have hmixed := SortedMap.get?_mapWithKey
    (fun k mosaic => mixer.changeVAD (levels k) (clocks k) mosaic) defaultMosaic mixer.mosaics
  rw [defaultSlots, VideoMixer.mixVideo]
  dsimp only
  rw [hmixed, defaultSlots]
  cases hget : SortedMap.get? defaultMosaic mixer.mosaics with
  | none => rfl
  | some m =>
    rw [Option.map_some, Option.map_some, Option.map_some,
      mosaicSlots_changeVAD (hinv.get? hget)]

theorem mosaics_addSource {mixer source : VideoMixer} {id mosaicId : Int}
    (h : addSource mixer id mosaicId = some source) : source.mosaics = mixer.mosaics := by
  obtain ⟨created, hcreated, rfl⟩ := Option.map_eq_some_iff.1 h
  rw [mosaics_initMixer]
  have := mosaics_createMixer (s := mixer) id
  rwa [hcreated, Option.getD_some] at this

theorem videoMixer_init (vad : VADMode) (comp : MosaicType) (size : Int) (now : UInt64) :
    ∃ mixer : VideoMixer, mixer.mosaics = c.videoMixer.mosaics ∧
      mixer.lstVideos = c.videoMixer.lstVideos ∧ mixer.maxMosaics = c.videoMixer.maxMosaics ∧
      (c.init vad comp size now).videoMixer.mosaics = (mixer.createMosaic comp size).2.mosaics := by
  let mixer : VideoMixer :=
    if vad ≠ .noVAD then { c.videoMixer with vadMode := vad, proxy := true } else c.videoMixer
  have hmixer : mixer.mosaics = c.videoMixer.mosaics ∧
      mixer.lstVideos = c.videoMixer.lstVideos ∧ mixer.maxMosaics = c.videoMixer.maxMosaics := by
    dsimp only [mixer]
    split <;> exact ⟨rfl, rfl, rfl⟩
  refine ⟨mixer, hmixer.1, hmixer.2.1, hmixer.2.2, ?_⟩
  have hinit : (c.init vad comp size now).videoMixer =
      (addSource (mixer.init comp size now) appMixerId (-1)).getD (mixer.init comp size now) := rfl
  rw [hinit]
  cases hadded : addSource (mixer.init comp size now) appMixerId (-1) with
  | none => rfl
  | some source =>
    have hsame := mosaics_addSource hadded
    exact hsame

theorem inv_step (hinv : c.videoMixer.Inv) (a : Action) : (c.step a).videoMixer.Inv := by
  cases a with
  | init vad comp size now =>
    obtain ⟨mixer, hmosaics, -, -, hcreated⟩ := c.videoMixer_init vad comp size now
    exact (inv_createMosaic (hinv.of_mosaics hmosaics) comp size).of_mosaics hcreated
  | setCompositionType mosaicId compType size =>
    exact inv_setCompositionType hinv mosaicId compType size
  | setMosaicSlot mosaicId num partId => exact inv_setSlot hinv mosaicId num partId
  | createMosaic compType size => exact inv_createMosaic hinv compType size
  | deleteMosaic mosaicId => exact inv_deleteMosaic hinv mosaicId
  | addMosaicParticipant mosaicId partId => exact inv_addMosaicParticipant hinv mosaicId partId
  | removeMosaicParticipant mosaicId partId =>
    exact inv_removeMosaicParticipant hinv mosaicId partId
  | createParticipant mosaicId =>
    rw [step, createParticipant]
    split
    case isTrue => exact hinv
    case isFalse =>
      cases hadded : addSource c.videoMixer c.maxId mosaicId with
      | none => exact hinv
      | some mixer => exact hinv.of_mosaics (mosaics_addSource hadded)
  | acceptParticipant partId mosaicId =>
    exact hinv.of_mosaics (mosaics_setMixerMosaic partId mosaicId)
  | joinParticipant partId => exact inv_addMosaicParticipant hinv defaultMosaic partId
  | deleteParticipant partId =>
    rw [step, deleteParticipant]
    split
    case isTrue => exact (inv_endMixer hinv partId).of_mosaics (mosaics_deleteMixer partId)
    case isFalse => exact hinv
  | mixVideo levels clocks => exact VideoMixer.inv_step hinv (.mixVideo levels clocks)

/-- **One step.** The copy is equal after it exactly when both sides agree on what it changes. -/
theorem mirrors_step_iff (hinv : c.videoMixer.Inv) (h : c.Mirrors) (a : Action) :
    (c.step a).Mirrors ↔ c.Agrees a := by
  cases a with
  | init vad comp size now =>
    obtain ⟨mixer, hmosaics, hvideos, hmax, hcreated⟩ := c.videoMixer_init vad comp size now
    rw [step, Mirrors, defaultSlots_congr hcreated]
    exact defaultSlots_createMosaic_iff hinv h hmosaics hvideos hmax comp size
  | setCompositionType mosaicId compType size =>
    exact mirrors_setCompositionType_iff hinv h mosaicId compType size
  | setMosaicSlot mosaicId num partId => exact mirrors_setMosaicSlot_iff hinv h mosaicId num partId
  | createMosaic compType size =>
    exact defaultSlots_createMosaic_iff hinv h rfl rfl rfl compType size
  | deleteMosaic mosaicId => exact mirrors_deleteMosaic_iff h mosaicId
  | addMosaicParticipant mosaicId partId =>
    exact iff_of_true
      (mirrors_of_eq h rfl (defaultSlots_addMosaicParticipant hinv mosaicId partId)) trivial
  | removeMosaicParticipant mosaicId partId =>
    exact mirrors_removeMosaicParticipant_iff hinv h mosaicId partId
  | createParticipant mosaicId =>
    refine iff_of_true ?_ trivial
    rw [step, createParticipant]
    split
    case isTrue => exact h
    case isFalse =>
      cases hadded : addSource c.videoMixer c.maxId mosaicId with
      | none => exact h
      | some mixer => exact mirrors_of_eq h rfl (defaultSlots_congr (mosaics_addSource hadded))
  | acceptParticipant partId mosaicId =>
    exact iff_of_true
      (mirrors_of_eq h rfl (defaultSlots_congr (mosaics_setMixerMosaic partId mosaicId))) trivial
  | joinParticipant partId =>
    exact iff_of_true
      (mirrors_of_eq h rfl (defaultSlots_addMosaicParticipant hinv defaultMosaic partId)) trivial
  | deleteParticipant partId => exact mirrors_deleteParticipant_iff hinv h partId
  | mixVideo levels clocks =>
    refine iff_of_true (mirrors_of_eq h rfl ?_) trivial
    rw [step, VideoMixer.step]
    split
    case isTrue => exact defaultSlots_mixVideo hinv levels clocks
    case isFalse => rfl

theorem mirrors_new (compType : MosaicType) (size : Int) (vad : VADMode) (mixingVideo : Bool)
    (ini : UInt64) :
    (new compType size vad mixingVideo ini).videoMixer.Inv ∧
      (new compType size vad mixingVideo ini).Mirrors := by
  let made : MirroredConference :=
    { conf := .new compType
      videoMixer :=
        { mixingVideo, ini : VideoMixer }.setCompositionType defaultMosaic compType size }
  have hinv : made.videoMixer.Inv :=
    inv_setCompositionType (fun e he => absurd he List.not_mem_nil) defaultMosaic compType size
  have hmirrors : made.Mirrors := by
    refine (@defaultSlots_set { mixingVideo, ini } _ _ _ rfl).trans ?_
    rw [if_pos rfl, VideoMixer.Mosaic.mosaicSlots_calculatePositions]
    exact congrArg some ((map_kept_eq_iff _ _).2 fun slot hslot =>
      .inl (.inl (List.eq_of_mem_replicate hslot)))
  rw [new]
  split
  case isTrue hvad =>
    refine ⟨inv_setSlot hinv _ _ _, (mirrors_setMosaicSlot_iff hinv hmirrors _ _ _).2 ?_⟩
    have hlength : 0 < made.conf.slots.length := by
      rw [made.conf.length_slots]
      rcases hvad.2 with h | h <;> rw [show made.conf.compType = compType from rfl, h] <;> decide
    rw [if_pos rfl, Assignable, if_pos ⟨le_rfl, Int.ofNat_lt.2 hlength⟩]
    exact ⟨.inl (.inr (.inr rfl)), fun hpos => absurd hpos (by decide)⟩
  case isFalse => exact ⟨hinv, hmirrors⟩

end Mirrors

/-- **The slots an application server keeps** are those of the default mosaic in every state of a
run, exactly when both sides agree on every step: the steps for other mosaics leave the copy as it
is, participants are fixed to one slot at most and only while they are in the default mosaic, and no
slot is set that there is not. -/
theorem mirrors_iff (compType : MosaicType) (size : Int) (vad : VADMode) (mixingVideo : Bool)
    (ini : UInt64) (actions : List Action) :
    (∀ done, done <+: actions →
        (run step (new compType size vad mixingVideo ini) done).Mirrors) ↔
      Meets step Agrees (new compType size vad mixingVideo ini) actions := by
  obtain ⟨hinv, hmirrors⟩ := mirrors_new compType size vad mixingVideo ini
  exact forall_prefix_iff_meets (I := fun _ (c : MirroredConference) => c.videoMixer.Inv)
    (P := fun _ (c : MirroredConference) => c.Mirrors) hinv
    hmirrors (fun _ a hinv _ _ => inv_step hinv a)
    (fun _ a hinv hmirrors => mirrors_step_iff hinv hmirrors a) actions

/-- A slot of another mosaic is locked, and the copy has it in the default one. -/
theorem not_mirrors_other :
    ¬∀ (compType : MosaicType) (size : Int) (vad : VADMode) (mixingVideo : Bool) (ini : UInt64)
      (actions : List Action),
      (run step (new compType size vad mixingVideo ini) actions).Mirrors := by
  intro h
  have := h .mosaic2x2 0 .noVAD false 0
    [.init .noVAD .mosaic2x2 0 1000, .createMosaic .mosaic1x1 0, .setMosaicSlot 1 0 slotLocked]
  revert this
  decide

end MirroredConference

end Web

end McuMediaServer
