import McuMediaServer.Mosaic.Mixer

/-!
# Changing a slot, and changing the composition

A slot is set in two steps. The one that frees the participant's old slot does not ask whether there
is the new one, so that a participant that is fixed somewhere loses its slot when it is asked to be
shown in one the mosaic does not have (`VideoMixer.assignsOrKeeps_iff`).

A mosaic of another type is a new object that takes over what the old one had, except the active
speaker: that one and the time until which it is kept are read from the new object, which has none
(`VideoMixer.keepsMosaic_iff`).
-/

namespace McuMediaServer

open StepRun

namespace VideoMixer

/-! ## Setting a slot -/

/-- The slots, how often participants are fixed, the active speaker and the positions are the
same. -/
structure Mosaic.Same (m m' : Mosaic) : Prop where
  slots : m'.mosaicSlots = m.mosaicSlots
  isFixed : ∀ id, (SortedMap.get? id m'.participants).map PartInfo.isFixed =
    (SortedMap.get? id m.participants).map PartInfo.isFixed
  vad : m'.vadParticipant = m.vadParticipant
  pos : m'.mosaicPos = m.mosaicPos

/-- Both mixers have the same mosaics, and each is as it was. -/
def Keeps (s t : VideoMixer) : Prop :=
  ∀ k, Option.Rel Mosaic.Same (SortedMap.get? k s.mosaics) (SortedMap.get? k t.mosaics)

/-- The slot has what it was given, a participant has left the others, and these have what they had,
as have those of other mosaics. -/
structure Assigns (s t : VideoMixer) (mosaicId num id : Int) (m : Mosaic) : Prop where
  assigned : ∃ m', SortedMap.get? mosaicId t.mosaics = some m' ∧
    ∀ i : Nat, m'.mosaicSlots[i]? =
      if num = i then some id
      else if ¬Setting id ∧ m.mosaicSlots[i]? = some id then some slotFree
      else m.mosaicSlots[i]?
  others : ∀ k, k ≠ mosaicId → SortedMap.get? k t.mosaics = SortedMap.get? k s.mosaics

/-- Setting a slot that there is sets it, and setting one that there is not changes nothing. -/
def AssignsOrKeeps (s : VideoMixer) (mosaicId num id : Int) : Prop :=
  let t := (s.setSlot mosaicId num id).getD s
  match SortedMap.get? mosaicId s.mosaics with
  | none => Keeps s t
  | some m => if 0 ≤ num ∧ num < m.numSlots then Assigns s t mosaicId num id m else Keeps s t

/-- What a slot can be given, and where: a setting or a participant of the mosaic in a slot that
there is, and what no slot has in one that there is not. Participants have positive ids; one with
another id is not taken from the slot it had. -/
def Assignable (s : VideoMixer) (mosaicId num id : Int) : Prop :=
  ∀ m, SortedMap.get? mosaicId s.mosaics = some m →
    if 0 ≤ num ∧ num < m.numSlots then
      Setting id ∨ m.hasParticipant id = true ∧
        (0 < id ∨ ∀ i : Nat, num ≠ i → m.mosaicSlots[i]? ≠ some id)
    else
      ¬(0 < id ∧ id ∈ m.mosaicSlots)

section SetSlot

variable {s : VideoMixer} {mosaicId num id : Int} {m : Mosaic}

theorem setSlot_eq (hget : SortedMap.get? mosaicId s.mosaics = some m) :
    s.setSlot mosaicId num id =
      some { s with
        mosaics := SortedMap.set mosaicId ((freeOld m id).setSlot num id).calculatePositions
          s.mosaics } := by
  rw [setSlot, hget]

theorem not_pos_of_setting (h : Setting id) : ¬0 < id := by
  rcases h with rfl | rfl | rfl <;> decide

theorem assigns_iff (hm : m.Inv) (hget : SortedMap.get? mosaicId s.mosaics = some m)
    (hnum : 0 ≤ num ∧ num < m.numSlots) :
    Assigns s ((s.setSlot mosaicId num id).getD s) mosaicId num id m ↔
      Setting id ∨ m.hasParticipant id = true ∧
        (0 < id ∨ ∀ i : Nat, num ≠ i → m.mosaicSlots[i]? ≠ some id) := by
  obtain ⟨n, rfl⟩ := Int.eq_ofNat_of_zero_le hnum.1
  have hn : n < m.numSlots := Int.ofNat_lt.1 hnum.2
  have hhas : ((freeOld m id).setSlot n id).hasParticipant = m.hasParticipant := by
    funext k
    exact (Mosaic.hasParticipant_of_score (Mosaic.score_setSlot _ _ _)).trans
      ((freeOld_spec hm.fixedOnce id).2.2 k)
  -- what the slots are once the positions are calculated
  have hslots : ∀ i : Nat, ((freeOld m id).setSlot n id).calculatePositions.mosaicSlots[i]? =
      if n = i then some (Mosaic.kept m.hasParticipant id)
      else if 0 < id ∧ m.mosaicSlots[i]? = some id then some slotFree
      else m.mosaicSlots[i]? := by
    intro i
    rw [Mosaic.mosaicSlots_calculatePositions, List.getElem?_map, hhas,
      mosaicSlots_setSlot hm.fixedOnce hn]
    split
    case isTrue => rfl
    case isFalse =>
      split
      case isTrue => exact congrArg some (if_pos (.inl (.inl rfl)))
      case isFalse =>
        cases hi : m.mosaicSlots[i]? with
        | none => rfl
        | some slot => exact congrArg some (hm.settled.kept_eq (List.mem_of_getElem? hi))
  rw [setSlot_eq hget, Option.getD_some]
  constructor
  · rintro ⟨⟨m', hm', hassigned⟩, -⟩
    rw [SortedMap.get?_set, if_pos rfl, Option.some.injEq] at hm'
    subst hm'
    have hself := hassigned n
    rw [hslots, if_pos rfl, if_pos rfl, Option.some.injEq, Mosaic.kept] at hself
    by_cases hsetting : Setting id
    · exact .inl hsetting
    · have hin : m.hasParticipant id = true := by
        by_contra hnot
        rw [if_neg (not_or.2 ⟨hsetting, hnot⟩)] at hself
        exact hsetting (.inl hself.symm)
      refine .inr ⟨hin, ?_⟩
      by_contra hnot
      obtain ⟨hneg, hex⟩ := not_or.1 hnot
      push Not at hex
      obtain ⟨i, hi, hslot⟩ := hex
      have hother := hassigned i
      rw [hslots, if_neg (fun h => hi (congrArg _ h)), if_neg (fun h => hneg h.1), if_neg hi,
        if_pos ⟨hsetting, hslot⟩, hslot, Option.some.injEq] at hother
      exact hsetting (.inl hother)
  · intro h
    refine ⟨⟨_, (SortedMap.get?_set _ _ _ _).trans (if_pos rfl), fun i => ?_⟩, fun k hk =>
      (SortedMap.get?_set _ _ _ _).trans (if_neg hk)⟩
    rw [hslots]
    rcases eq_or_ne n i with rfl | hne
    · rw [if_pos rfl, if_pos rfl, Mosaic.kept, if_pos (h.imp_right And.left)]
    · rw [if_neg hne, if_neg (fun h => hne (Int.ofNat_inj.1 h))]
      rcases h with hsetting | ⟨hin, hpos⟩
      · rw [if_neg fun h => not_pos_of_setting hsetting h.1, if_neg fun h => h.1 hsetting]
      · rcases hpos with hpos | hnone
        · exact if_congr (and_congr_left fun _ => iff_of_true hpos fun h =>
            not_pos_of_setting h hpos) rfl rfl
        · have hi := hnone i fun h => hne (Int.ofNat_inj.1 h)
          rw [if_neg fun h => hi h.2, if_neg fun h => hi h.2]

theorem keeps_refl : Keeps s s := by
  intro k
  cases SortedMap.get? k s.mosaics with
  | none => exact .none
  | some m => exact .some ⟨rfl, fun _ => rfl, rfl, rfl⟩

theorem keeps_iff (hm : m.Inv) (hget : SortedMap.get? mosaicId s.mosaics = some m)
    (hnum : ¬(0 ≤ num ∧ num < m.numSlots)) :
    Keeps s ((s.setSlot mosaicId num id).getD s) ↔ ¬(0 < id ∧ id ∈ m.mosaicSlots) := by
  obtain ⟨hslots, htype, -⟩ := freeOld_spec hm.fixedOnce id
  have hsame : (freeOld m id).setSlot num id = freeOld m id :=
    Mosaic.setSlot_of_not (by rwa [Mosaic.numSlots, htype])
  rw [setSlot_eq hget, Option.getD_some, hsame]
  constructor
  · rintro h ⟨hpos, hmem⟩
    obtain ⟨i, hi⟩ := List.getElem?_of_mem hmem
    have hrel := h mosaicId
    rw [hget, SortedMap.get?_set, if_pos rfl] at hrel
    obtain ⟨hkept⟩ := hrel
    have hfreed := congrArg (·[i]?) hkept.slots
    rw [Mosaic.mosaicSlots_calculatePositions, List.getElem?_map, hslots, if_pos ⟨hpos, hi⟩, hi,
      Option.map_some, Option.some.injEq, Mosaic.kept, if_pos (.inl (.inl rfl)), slotFree] at hfreed
    omega
  · intro h
    have hfree : freeOld m id = m := by
      rw [freeOld]
      split
      case isFalse => rfl
      case isTrue hpos =>
        rw [Mosaic.getParticipantSlot, List.idxOf?_eq_none_iff.2 fun hmem => h ⟨hpos, hmem⟩]
    rw [hfree, hm.settled]
    intro k
    dsimp only
    rw [SortedMap.get?_set]
    split
    case isTrue hk =>
      rw [hk, hget]
      exact .some ⟨rfl, fun _ => rfl, rfl, rfl⟩
    case isFalse => exact keeps_refl k

end SetSlot

/-- **Setting a slot.** It sets the slot or leaves the mosaics as they were, exactly when a
participant that is fixed to a slot is not asked to be shown in one that there is not, and what a
slot is given is a setting or a participant of the mosaic. -/
theorem assignsOrKeeps_iff (s : VideoMixer) (h : s.Reachable) (mosaicId num id : Int) :
    s.AssignsOrKeeps mosaicId num id ↔ s.Assignable mosaicId num id := by
  unfold AssignsOrKeeps Assignable
  cases hget : SortedMap.get? mosaicId s.mosaics with
  | none =>
    refine iff_of_true ?_ fun m hm => by cases hm
    rw [setSlot, hget]
    exact keeps_refl
  | some m =>
    have hm := h.inv.get? hget
    have hforall : ∀ P : Mosaic → Prop, (∀ m', some m = some m' → P m') ↔ P m :=
      fun P => ⟨fun h => h m rfl, fun h m' hm' => Option.some.inj hm' ▸ h⟩
    dsimp only
    rw [hforall]
    split
    case isTrue hnum => exact assigns_iff hm hget hnum
    case isFalse hnum => exact keeps_iff hm hget hnum

/-- A mixer with a mosaic of four slots that shows participant 7, in the first one. -/
def fixedMixer : VideoMixer :=
  run step { mixingVideo := false, ini := 0 }
    [.init .mosaic2x2 0 1000, .createMixer 7, .addMosaicParticipant 0 7, .setSlot 0 0 7]

theorem fixedMixer_reachable : fixedMixer.Reachable := ⟨_, _, _, rfl⟩

theorem fixedMixer_mosaic :
    (SortedMap.get? 0 fixedMixer.mosaics).map
      (fun m => (m.numSlots, m.hasParticipant 7, m.mosaicSlots)) = some (4, true, [7, 0, 0, 0]) := by
  decide

/-- The participant moves to the third slot. -/
theorem fixedMixer_moves : fixedMixer.AssignsOrKeeps 0 2 7 := by
  refine (assignsOrKeeps_iff fixedMixer fixedMixer_reachable 0 2 7).2 fun m hm => ?_
  have hmosaic := fixedMixer_mosaic
  rw [hm, Option.map_some, Option.some.injEq, Prod.mk.injEq, Prod.mk.injEq] at hmosaic
  rw [hmosaic.1, if_pos (by decide)]
  exact .inr ⟨hmosaic.2.1, .inl (by decide)⟩

theorem slots_of_assignsOrKeeps {s : VideoMixer} {mosaicId num id : Int} {m : Mosaic}
    (h : s.AssignsOrKeeps mosaicId num id) (hget : SortedMap.get? mosaicId s.mosaics = some m)
    (hnum : ¬(0 ≤ num ∧ num < m.numSlots)) :
    (SortedMap.get? mosaicId ((s.setSlot mosaicId num id).getD s).mosaics).map Mosaic.mosaicSlots =
      some m.mosaicSlots := by
  rw [AssignsOrKeeps, hget] at h
  dsimp only at h
  rw [if_neg hnum] at h
  have hrel := h mosaicId
  rw [hget] at hrel
  cases hm' : SortedMap.get? mosaicId ((s.setSlot mosaicId num id).getD s).mosaics with
  | none =>
    rw [hm'] at hrel
    cases hrel
  | some m' =>
    rw [hm'] at hrel
    obtain ⟨hsame⟩ := hrel
    exact congrArg some hsame.slots

/-- It is asked to be shown in a tenth slot, and is shown in none. -/
theorem not_assignsOrKeeps_fixedMixer :
    fixedMixer.Reachable ∧ ¬fixedMixer.AssignsOrKeeps 0 9 7 := by
  refine ⟨fixedMixer_reachable, fun h => ?_⟩
  obtain ⟨m, hm, hvalues⟩ := Option.map_eq_some_iff.1 fixedMixer_mosaic
  rw [Prod.mk.injEq, Prod.mk.injEq] at hvalues
  have hslots := slots_of_assignsOrKeeps h hm (by rw [hvalues.1]; decide)
  rw [hvalues.2.2] at hslots
  revert hslots
  decide

/-! ## Changing the composition -/

/-- The new mosaic of a mixer has what the old one had, and is used where that one was. -/
structure TakenOver (s t : VideoMixer) (m m' : Mosaic) : Prop where
  scores : ∀ id, (SortedMap.get? id m'.participants).map PartInfo.score =
    (SortedMap.get? id m.participants).map PartInfo.score
  slots : ∀ i : Nat, i < m.numSlots → i < m'.numSlots → m'.mosaicSlots[i]? = m.mosaicSlots[i]?
  vadParticipant : m'.vadParticipant = m.vadParticipant
  vadBlockingTime : m'.vadBlockingTime = m.vadBlockingTime
  videos : ∀ id video, SortedMap.get? id s.lstVideos = some video → video.mosaic = some m.address →
    (SortedMap.get? id t.lstVideos).map VideoSource.mosaic = some (some m'.address)
  default : s.defaultMosaic = some m.address → t.defaultMosaic = some m'.address

/-- A mosaic that there is gets the new type, and keeps what it has. -/
def KeepsMosaic (s : VideoMixer) (mosaicId : Int) (comp : MosaicType) (size : Int) : Prop :=
  ∀ m, SortedMap.get? mosaicId s.mosaics = some m →
    let t := s.setCompositionType mosaicId comp size
    ∃ m', SortedMap.get? mosaicId t.mosaics = some m' ∧ m'.mosaicType = comp ∧ m'.size = size ∧
      TakenOver s t m m'

/-- All participants of the mosaic are video sources, and there is no active speaker to lose. -/
def Movable (s : VideoMixer) (mosaicId : Int) : Prop :=
  ∀ m, SortedMap.get? mosaicId s.mosaics = some m →
    (∀ id, m.hasParticipant id = true → (SortedMap.get? id s.lstVideos).isSome) ∧
      m.vadParticipant = 0 ∧ m.vadBlockingTime = 0

section SetCompositionType

variable {s : VideoMixer} {mosaicId : Int} {m : Mosaic}

theorem score_addParticipant (mosaic : Mosaic) (id : Int) (score : UInt64) (k : Int) :
    (SortedMap.get? k (mosaic.addParticipant id score).participants).map PartInfo.score =
      if k = id then some (((SortedMap.get? k mosaic.participants).map PartInfo.score).getD score)
      else (SortedMap.get? k mosaic.participants).map PartInfo.score := by
  rw [Mosaic.addParticipant, Mosaic.hasParticipant]
  cases hid : SortedMap.get? id mosaic.participants with
  | none =>
    rw [Option.isSome_none, if_neg Bool.false_ne_true]
    dsimp only
    rw [SortedMap.get?_set]
    split
    case isTrue hk => rw [hk, hid]; rfl
    case isFalse => rfl
  | some info =>
    rw [Option.isSome_some, if_pos rfl]
    split
    case isTrue hk => rw [hk, hid]; rfl
    case isFalse => rfl

theorem score_copyParticipants (old : Mosaic) (lstVideos : List (Int × VideoSource))
    (mosaic : Mosaic) (k : Int)
    (hmosaic : ∀ score, (SortedMap.get? k mosaic.participants).map PartInfo.score = some score →
      (SortedMap.get? k old.participants).map PartInfo.score = some score) :
    (SortedMap.get? k (copyParticipants old lstVideos mosaic).participants).map PartInfo.score =
      if (SortedMap.get? k lstVideos).isSome then
        (SortedMap.get? k old.participants).map PartInfo.score
      else (SortedMap.get? k mosaic.participants).map PartInfo.score := by
  induction lstVideos generalizing mosaic with
  | nil => rfl
  | cons video lstVideos ih =>
    rw [copyParticipants, List.foldl_cons, ← copyParticipants, SortedMap.get?_cons]
    rcases eq_or_ne k video.1 with rfl | hne
    · rw [if_pos rfl, Option.isSome_some, if_pos rfl]
      cases hold : SortedMap.get? video.1 old.participants with
      | none =>
        have hnone : (SortedMap.get? video.1 mosaic.participants).map PartInfo.score = none := by
          cases hscore : (SortedMap.get? video.1 mosaic.participants).map PartInfo.score with
          | none => rfl
          | some score =>
            have := hmosaic score hscore
            rw [hold] at this
            cases this
        rw [Mosaic.hasParticipant, hold, Option.isSome_none, if_neg Bool.false_ne_true, ih _ hmosaic,
          hold, hnone]
        exact ite_self _
      | some info =>
        have hscore : old.getScore video.1 = info.score := by rw [Mosaic.getScore, hold]; rfl
        have hadded : (SortedMap.get? video.1
            (mosaic.addParticipant video.1 (old.getScore video.1)).participants).map
              PartInfo.score = some info.score := by
          rw [score_addParticipant, if_pos rfl, hscore]
          cases hmine : (SortedMap.get? video.1 mosaic.participants).map PartInfo.score with
          | none => rfl
          | some score =>
            have := hmosaic score hmine
            rw [hold, Option.map_some, Option.some.injEq] at this
            rw [Option.getD_some, this]
        rw [Mosaic.hasParticipant, hold, Option.isSome_some, if_pos rfl, ih _ fun score h => by
          rw [hadded] at h
          rw [hold, Option.map_some, h], hadded, hold, Option.map_some]
        exact ite_self _
    · rw [if_neg hne]
      have hsame : (SortedMap.get? k
          (if old.hasParticipant video.1 then
            mosaic.addParticipant video.1 (old.getScore video.1) else mosaic).participants).map
              PartInfo.score = (SortedMap.get? k mosaic.participants).map PartInfo.score := by
        split
        · rw [score_addParticipant, if_neg hne]
        · rfl
      rw [ih _ fun score h => hmosaic score (hsame ▸ h), hsame]

theorem score_setSlots (mosaic : Mosaic) (slots : List Int) (k : Int) :
    (SortedMap.get? k (mosaic.setSlots slots).participants).map PartInfo.score =
      (SortedMap.get? k mosaic.participants).map PartInfo.score := by
  have hfold : ∀ (ids : List Int) (mosaic : Mosaic),
      (SortedMap.get? k (ids.foldl (fun mosaic id =>
        if 0 < id then mosaic.addFixed id 1 else mosaic) mosaic).participants).map PartInfo.score =
        (SortedMap.get? k mosaic.participants).map PartInfo.score := by
    intro ids
    induction ids with
    | nil => exact fun _ => rfl
    | cons id ids ih =>
      intro mosaic
      rw [List.foldl_cons, ih]
      split
      · exact Mosaic.score_addFixed _ _ _
      · rfl
  exact hfold _ _

theorem score_takeOver (address : Nat) (comp : MosaicType) (size k : Int) :
    (SortedMap.get? k (s.takeOver m (Mosaic.new address comp size)).participants).map
        PartInfo.score =
      if (SortedMap.get? k s.lstVideos).isSome then
        (SortedMap.get? k m.participants).map PartInfo.score
      else none := by
  refine (score_setSlots _ _ _).trans (score_copyParticipants _ _ _ _ fun score h => ?_)
  cases h

theorem copyParticipants_frame (old : Mosaic) (lstVideos : List (Int × VideoSource))
    (mosaic : Mosaic) :
    let copied := copyParticipants old lstVideos mosaic
    copied.mosaicType = mosaic.mosaicType ∧ copied.size = mosaic.size ∧
      copied.address = mosaic.address ∧ copied.vadParticipant = mosaic.vadParticipant ∧
      copied.vadBlockingTime = mosaic.vadBlockingTime := by
  induction lstVideos generalizing mosaic with
  | nil => exact ⟨rfl, rfl, rfl, rfl, rfl⟩
  | cons video lstVideos ih =>
    rw [copyParticipants, List.foldl_cons, ← copyParticipants]
    have hsame := ih (if old.hasParticipant video.1 then
      mosaic.addParticipant video.1 (old.getScore video.1) else mosaic)
    rw [Mosaic.addParticipant] at hsame ⊢
    dsimp only at hsame ⊢
    split_ifs at hsame ⊢ <;> exact hsame

theorem videos_redirect (s : VideoMixer) (old new : Nat) {id : Int} {video : VideoSource}
    (hvideo : SortedMap.get? id s.lstVideos = some video) (hmosaic : video.mosaic = some old) :
    (SortedMap.get? id (s.lstVideos.map fun e => (e.1, e.2.redirect old new))).map
      VideoSource.mosaic = some (some new) := by
  rw [SortedMap.get?_map, hvideo]
  exact congrArg some (if_pos hmosaic)

theorem setCompositionType_eq (hget : SortedMap.get? mosaicId s.mosaics = some m)
    (comp : MosaicType) (size : Int) :
    let t := s.setCompositionType mosaicId comp size
    t.lstVideos = s.lstVideos.map (fun e => (e.1, e.2.redirect m.address s.allocated)) ∧
      t.defaultMosaic = redirect m.address s.allocated s.defaultMosaic ∧
      SortedMap.get? mosaicId t.mosaics =
        some (s.takeOver m (Mosaic.new s.allocated comp size)).calculatePositions := by
  dsimp only
  rw [setCompositionType, hget]
  exact ⟨rfl, rfl, (SortedMap.get?_set _ _ _ _).trans (if_pos rfl)⟩

/-- **What the new mosaic has** is what the old one had, exactly when its participants are video
sources and it has no active speaker. -/
theorem takenOver_iff (hm : m.Inv) (hget : SortedMap.get? mosaicId s.mosaics = some m)
    (comp : MosaicType) (size : Int) :
    TakenOver s (s.setCompositionType mosaicId comp size) m
        (s.takeOver m (Mosaic.new s.allocated comp size)).calculatePositions ↔
      (∀ id, m.hasParticipant id = true → (SortedMap.get? id s.lstVideos).isSome) ∧
        m.vadParticipant = 0 ∧ m.vadBlockingTime = 0 := by
  obtain ⟨hvideos, hdefault, -⟩ := setCompositionType_eq hget comp size
  obtain ⟨htype, -, haddress, hvad, htime⟩ :=
    copyParticipants_frame m s.lstVideos (Mosaic.new s.allocated comp size)
  have hscore := @score_takeOver s m s.allocated comp size
  constructor
  · intro h
    refine ⟨fun id hin => ?_, h.vadParticipant.symm.trans hvad, h.vadBlockingTime.symm.trans htime⟩
    by_contra hnot
    have heq := (h.scores id).symm.trans (hscore id)
    rw [if_neg hnot] at heq
    rw [Mosaic.hasParticipant, ← Option.isSome_map, heq] at hin
    cases hin
  · rintro ⟨hsources, hzero, hzero'⟩
    have hscores : ∀ id, (SortedMap.get? id
        (s.takeOver m (Mosaic.new s.allocated comp size)).participants).map PartInfo.score =
          (SortedMap.get? id m.participants).map PartInfo.score := by
      intro id
      rw [hscore]
      split
      case isTrue => rfl
      case isFalse hnot =>
        have hout : ¬m.hasParticipant id = true := fun hin => hnot (hsources id hin)
        rw [Mosaic.hasParticipant, Bool.not_eq_true, Option.isSome_eq_false_iff,
          Option.isNone_iff_eq_none] at hout
        rw [hout, Option.map_none]
    have hhas : (s.takeOver m (Mosaic.new s.allocated comp size)).hasParticipant =
        m.hasParticipant :=
      funext fun id => Mosaic.hasParticipant_of_score (hscores id)
    refine ⟨hscores, fun i hi hi' => ?_, hvad.trans hzero.symm, htime.trans hzero'.symm,
      fun id video hvideo hmosaic => ?_, fun h => ?_⟩
    · have hnew : i < (copyParticipants m s.lstVideos
          (Mosaic.new s.allocated comp size)).numSlots := hi'
      have hlt : i < m.mosaicSlots.length := hi.trans_eq m.length_mosaicSlots.symm
      have hslots : (s.takeOver m (Mosaic.new s.allocated comp size)).mosaicSlots[i]? =
          some m.mosaicSlots[i] := by
        refine (getElem?_setSlots _ _).trans ?_
        rw [if_pos hnew, List.getElem?_eq_getElem hlt, Option.getD_some]
      rw [Mosaic.mosaicSlots_calculatePositions, List.getElem?_map, hslots, hhas, Option.map_some,
        hm.settled.kept_eq (List.getElem_mem hlt), List.getElem?_eq_getElem hlt]
    · rw [hvideos]
      exact (videos_redirect s _ _ hvideo hmosaic).trans
        (congrArg (fun address => some (some address)) haddress.symm)
    · rw [hdefault, redirect, if_pos h]
      exact congrArg some haddress.symm

end SetCompositionType

/-- **Changing the composition.** A mosaic keeps its participants with their scores, the slots that
there are, its active speaker and its users, exactly when its participants are video sources of the
mixer and it has no active speaker. -/
theorem keepsMosaic_iff (s : VideoMixer) (h : s.Reachable) (mosaicId : Int) (comp : MosaicType)
    (size : Int) : s.KeepsMosaic mosaicId comp size ↔ s.Movable mosaicId := by
  refine forall_congr' fun m => forall_congr' fun hget => ?_
  obtain ⟨-, -, hnew⟩ := setCompositionType_eq hget comp size
  obtain ⟨htype, hsize, -⟩ :=
    copyParticipants_frame m s.lstVideos (Mosaic.new s.allocated comp size)
  rw [← takenOver_iff (h.inv.get? hget) hget comp size]
  constructor
  · rintro ⟨m', hm', -, -, htaken⟩
    rw [hnew, Option.some.injEq] at hm'
    rwa [hm']
  · intro htaken
    exact ⟨_, hnew, htype, hsize, htaken⟩

/-- A mosaic with a fixed participant is made larger. -/
theorem fixedMixer_keeps : fixedMixer.KeepsMosaic 0 .mosaic3x3 0 := by
  refine (keepsMosaic_iff fixedMixer fixedMixer_reachable 0 .mosaic3x3 0).2 fun m hm => ?_
  have hmosaic : (SortedMap.get? 0 fixedMixer.mosaics).map
      (fun m => (m.participants.map Prod.fst, m.vadParticipant, m.vadBlockingTime)) =
        some ([7], 0, 0) := by decide
  rw [hm, Option.map_some, Option.some.injEq, Prod.mk.injEq, Prod.mk.injEq] at hmosaic
  refine ⟨fun id hin => ?_, hmosaic.2⟩
  rw [Mosaic.hasParticipant, SortedMap.isSome_get?, hmosaic.1, List.mem_singleton] at hin
  rw [hin]
  decide

/-- A mixer with the active speaker in the first slot. -/
def speakingMixer : VideoMixer :=
  run step { mixingVideo := false, ini := 0 }
    [.init .mosaic2x2 0 1000, .createMixer 7, .addMosaicParticipant 0 7, .setSlot 0 0 slotVAD,
      .setVADProxy true, .setVADMode .fullVAD, .mixVideo (fun _ _ => 100) fun _ => ⟨0, 2000, 2000⟩]

/-- In a larger mosaic there is no active speaker any more. -/
theorem not_keepsMosaic_speakingMixer :
    speakingMixer.Reachable ∧ ¬speakingMixer.KeepsMosaic 0 .mosaic3x3 0 := by
  refine ⟨⟨_, _, _, rfl⟩, fun h => ?_⟩
  have hbefore : (SortedMap.get? 0 speakingMixer.mosaics).map Mosaic.vadParticipant = some 7 := by
    decide
  have hafter : (SortedMap.get? 0
      (speakingMixer.setCompositionType 0 .mosaic3x3 0).mosaics).map Mosaic.vadParticipant =
        some 0 := by
    decide
  obtain ⟨m, hm, hvad⟩ := Option.map_eq_some_iff.1 hbefore
  obtain ⟨m', hm', -, -, htaken⟩ := h m hm
  rw [hm', Option.map_some, htaken.vadParticipant, hvad] at hafter
  cases hafter

end VideoMixer

end McuMediaServer
