import McuMediaServer.Mosaic.Composition

/-!
# The layout of a mosaic

Who is shown in which slot, in every mosaic that a mixer can come to (`laidOut_run`). A mosaic keeps
its participants in a set that compares them by their scores alone, so that there is at most one for
a score, and who is left out of it is shown in no free slot. Whatever the scores are, the set is in
order and has only participants of the mosaic, each with the score he has there.
-/

namespace McuMediaServer

open StepRun

namespace VideoMixer

/-! ## The order of the participants -/

namespace Mosaic

/-- The set is in the order of the scores, which are all different, and has participants of the
mosaic with the scores they have. -/
structure Ordered (m : Mosaic) : Prop where
  pairwise : m.order.Pairwise fun e e' => e'.1 < e.1
  score : ∀ e ∈ m.order, (SortedMap.get? e.2 m.participants).map PartInfo.score = some e.1

theorem mem_insertOrder {info e : UInt64 × Int} {order : List (UInt64 × Int)}
    (h : e ∈ insertOrder info order) : e = info ∨ e ∈ order := by
  induction order with
  | nil => exact .inl (List.mem_singleton.1 h)
  | cons f order ih =>
    rw [insertOrder] at h
    split_ifs at h
    · exact List.mem_cons.1 h
    · exact .inr h
    · rcases List.mem_cons.1 h with rfl | h
      · exact .inr List.mem_cons_self
      · exact (ih h).imp_right (List.mem_cons_of_mem f)

theorem pairwise_insertOrder (info : UInt64 × Int) {order : List (UInt64 × Int)}
    (h : order.Pairwise fun e e' => e'.1 < e.1) :
    (insertOrder info order).Pairwise fun e e' => e'.1 < e.1 := by
  induction order with
  | nil => exact List.pairwise_singleton _ _
  | cons f order ih =>
    obtain ⟨hf, horder⟩ := List.pairwise_cons.1 h
    rw [insertOrder]
    split_ifs with hlt heq
    · refine List.pairwise_cons.2 ⟨fun e he => ?_, h⟩
      rcases List.mem_cons.1 he with rfl | he
      · exact hlt
      · exact UInt64.lt_trans (hf e he) hlt
    · exact h
    · refine List.pairwise_cons.2 ⟨fun e he => ?_, ih horder⟩
      rcases mem_insertOrder he with rfl | he
      · exact UInt64.lt_of_le_of_ne (UInt64.not_lt.1 hlt) (Ne.symm heq)
      · exact hf e he

section Ordered

variable {m : Mosaic}

/-- A participant stands in the set with his score only. -/
theorem Ordered.ne_of_mem_eraseOrder (h : m.Ordered) {id : Int} {info : PartInfo}
    (hget : SortedMap.get? id m.participants = some info) {e : UInt64 × Int}
    (he : e ∈ eraseOrder info.score m.order) : e ∈ m.order ∧ e.2 ≠ id := by
  obtain ⟨hmem, hscore⟩ := List.mem_filter.1 he
  refine ⟨hmem, ?_⟩
  rintro rfl
  have := h.score e hmem
  rw [hget, Option.map_some, Option.some.injEq] at this
  simp [this] at hscore

theorem Ordered.of_score {m' : Mosaic} (h : m.Ordered) (horder : m'.order = m.order)
    (hscore : ∀ k, (SortedMap.get? k m'.participants).map PartInfo.score =
      (SortedMap.get? k m.participants).map PartInfo.score) : m'.Ordered :=
  ⟨horder ▸ h.pairwise, fun e he => (hscore e.2).trans (h.score e (horder ▸ he))⟩

theorem Ordered.calculatePositions (h : m.Ordered) : m.calculatePositions.Ordered :=
  h.of_score rfl fun _ => rfl

theorem order_addFixed (id delta : Int) : (m.addFixed id delta).order = m.order := by
  rw [addFixed]
  cases SortedMap.get? id m.participants <;> rfl

theorem order_setSlot (num id : Int) : (m.setSlot num id).order = m.order := by
  unfold setSlot
  dsimp only
  split_ifs <;> simp only [order_addFixed]

theorem Ordered.addParticipant (h : m.Ordered) (id : Int) (score : UInt64) :
    (m.addParticipant id score).Ordered := by
  rw [Mosaic.addParticipant]
  split
  · exact h
  · rename_i hnot
    refine ⟨pairwise_insertOrder _ h.pairwise, fun e he => ?_⟩
    rw [SortedMap.get?_set]
    split
    · rename_i heq
      rcases mem_insertOrder he with rfl | he
      · rfl
      · have hscore := h.score e he
        rw [heq, Option.not_isSome_iff_eq_none.1 hnot] at hscore
        cases hscore
    · rename_i hne
      rcases mem_insertOrder he with rfl | he
      · exact absurd rfl hne
      · exact h.score e he

theorem Ordered.setScore (h : m.Ordered) (id : Int) (score : UInt64) :
    (m.setScore id score).Ordered := by
  rw [Mosaic.setScore]
  cases hget : SortedMap.get? id m.participants with
  | none => exact h
  | some info =>
    refine ⟨pairwise_insertOrder _ (h.pairwise.filter _), fun e he => ?_⟩
    rw [SortedMap.get?_set]
    rcases mem_insertOrder he with rfl | he
    · rw [if_pos rfl]
      rfl
    · obtain ⟨hmem, hne⟩ := h.ne_of_mem_eraseOrder hget he
      rw [if_neg hne]
      exact h.score e hmem

theorem Ordered.removeParticipant (h : m.Ordered) (id : Int) : (m.removeParticipant id).Ordered := by
  rw [Mosaic.removeParticipant]
  cases hget : SortedMap.get? id m.participants with
  | none => exact h
  | some info =>
    refine ⟨h.pairwise.filter _, fun e he => ?_⟩
    obtain ⟨hmem, hne⟩ := h.ne_of_mem_eraseOrder hget he
    rw [SortedMap.get?_filter (fun k => decide (k ≠ id)), if_pos (decide_eq_true hne)]
    exact h.score e hmem

end Ordered

end Mosaic

section Steps

variable {s : VideoMixer} {m : Mosaic}

theorem ordered_new (address : Nat) (comp : MosaicType) (size : Int) :
    (Mosaic.new address comp size).Ordered :=
  ⟨List.Pairwise.nil, fun _ he => absurd he List.not_mem_nil⟩

theorem ordered_setSlot (h : m.Ordered) (num id : Int) : (m.setSlot num id).Ordered :=
  h.of_score (Mosaic.order_setSlot num id) fun k => Mosaic.score_setSlot num id k

theorem ordered_takeOver (old : Mosaic) (h : m.Ordered) : (s.takeOver old m).Ordered := by
  have hcopied : (copyParticipants old s.lstVideos m).Ordered := by
    unfold copyParticipants
    generalize s.lstVideos = videos
    induction videos generalizing m with
    | nil => exact h
    | cons video videos ih =>
      rw [List.foldl_cons]
      split
      · exact ih (h.addParticipant _ _)
      · exact ih h
  exact hcopied.of_score rfl fun k => score_setSlots _ _ k

theorem ordered_freeOld (h : m.Ordered) (id : Int) : (freeOld m id).Ordered := by
  rw [freeOld]
  split
  · cases m.getParticipantSlot id with
    | none => exact h
    | some old => exact ordered_setSlot h _ _
  · exact h

theorem ordered_changeVAD (h : m.Ordered) (level : Int → UInt32) (clock : Clock) :
    (s.changeVAD level clock m).Ordered := by
  rw [changeVAD]
  dsimp only
  split
  · refine Mosaic.Ordered.calculatePositions ?_
    have hset (id : Int) (hide : Bool) (blockedUntil : UInt64) :
        (m.setVADParticipant id hide blockedUntil).Ordered := h.of_score rfl fun _ => rfl
    split
    · exact (hset _ _ _).setScore _ _
    · exact hset _ _ _
  · exact h

/-- The sets of all mosaics are in order. -/
def Ordered (s : VideoMixer) : Prop := ∀ e ∈ s.mosaics, e.2.Ordered

theorem Ordered.set (h : s.Ordered) (hm : m.Ordered) (mosaicId : Int) :
    ∀ e ∈ SortedMap.set mosaicId m.calculatePositions s.mosaics, e.2.Ordered := by
  intro e he
  rcases SortedMap.mem_set he with rfl | he
  · exact hm.calculatePositions
  · exact h e he

/-- An operation that changes one mosaic, or is refused. -/
theorem Ordered.update {f : Mosaic → Mosaic} (h : s.Ordered)
    (hf : ∀ m : Mosaic, m.Ordered → (f m).Ordered) {mosaicId : Int} {r : Option VideoMixer}
    (hr : r = (SortedMap.get? mosaicId s.mosaics).map fun m =>
      { s with mosaics := SortedMap.set mosaicId (f m).calculatePositions s.mosaics }) :
    (r.getD s).Ordered := by
  rw [hr]
  cases hget : SortedMap.get? mosaicId s.mosaics with
  | none => exact h
  | some m => exact h.set (hf m (h _ (SortedMap.mem_of_get? hget))) mosaicId

theorem Ordered.of_mosaics {t : VideoMixer} (h : s.Ordered) (hmosaics : t.mosaics = s.mosaics) :
    t.Ordered :=
  fun e he => h e (hmosaics ▸ he)

theorem ordered_setCompositionType (h : s.Ordered) (mosaicId : Int) (comp : MosaicType)
    (size : Int) : (s.setCompositionType mosaicId comp size).Ordered := by
  rw [setCompositionType]
  cases SortedMap.get? mosaicId s.mosaics with
  | none => exact h.set (ordered_new _ _ _) mosaicId
  | some old => exact h.set (ordered_takeOver old (ordered_new _ _ _)) mosaicId

theorem ordered_createMosaic (h : s.Ordered) (comp : MosaicType) (size : Int) :
    (s.createMosaic comp size).2.Ordered :=
  @ordered_setCompositionType { s with maxMosaics := s.maxMosaics + 1 } (h.of_mosaics rfl) _ _ _

theorem ordered_endMixer (h : s.Ordered) (id : Int) : ((s.endMixer id).getD s).Ordered := by
  rw [endMixer]
  cases SortedMap.get? id s.lstVideos with
  | none => exact h
  | some video =>
    intro e he
    dsimp only [Option.getD_some] at he
    split at he
    · obtain ⟨e, hmem, rfl⟩ := List.mem_map.1 he
      dsimp only
      split
      · exact ((h e hmem).removeParticipant id).calculatePositions
      · exact h e hmem
    · exact h e he

theorem ordered_step (h : s.Ordered) (a : Action) : (s.step a).Ordered := by
  cases a with
  | init comp size now => exact (ordered_createMosaic h comp size).of_mosaics rfl
  | terminate => exact fun e he => absurd he List.not_mem_nil
  | setVADMode vadMode => exact h.of_mosaics rfl
  | setVADProxy proxy => exact h.of_mosaics rfl
  | setVADDefaultChangePeriod ms => exact h.of_mosaics rfl
  | createMosaic comp size => exact ordered_createMosaic h comp size
  | setCompositionType mosaicId comp size => exact ordered_setCompositionType h mosaicId comp size
  | setSlot mosaicId num id =>
    refine @Ordered.update s (fun m => (freeOld m id).setSlot num id) h
      (fun m hm => ordered_setSlot (ordered_freeOld hm id) num id) mosaicId _ ?_
    rw [setSlot]
    cases SortedMap.get? mosaicId s.mosaics <;> rfl
  | addMosaicParticipant mosaicId partId =>
    refine @Ordered.update s (fun m => m.addParticipant partId (s.ini - UInt64.ofInt partId)) h
      (fun m hm => hm.addParticipant _ _) mosaicId _ ?_
    rw [addMosaicParticipant]
    cases SortedMap.get? mosaicId s.mosaics <;> rfl
  | removeMosaicParticipant mosaicId partId =>
    refine @Ordered.update s (fun m => m.removeParticipant partId) h
      (fun m hm => hm.removeParticipant _) mosaicId _ ?_
    rw [removeMosaicParticipant]
    cases SortedMap.get? mosaicId s.mosaics <;> rfl
  | deleteMosaic mosaicId =>
    change ((s.deleteMosaic mosaicId).getD s).Ordered
    rw [deleteMosaic]
    cases SortedMap.get? mosaicId s.mosaics with
    | none => exact h
    | some m => exact fun e he => h e (List.mem_of_mem_filter he)
  | createMixer id => exact h.of_mosaics (mosaics_createMixer id)
  | initMixer id mosaicId => exact h.of_mosaics (mosaics_initMixer id mosaicId)
  | setMixerMosaic id mosaicId => exact h.of_mosaics (mosaics_setMixerMosaic id mosaicId)
  | endMixer id => exact ordered_endMixer h id
  | deleteMixer id => exact h.of_mosaics (mosaics_deleteMixer id)
  | mixVideo levels clocks =>
    rw [step]
    split
    · intro e he
      obtain ⟨e, hmem, rfl⟩ := List.mem_map.1 he
      exact ordered_changeVAD (h e hmem) _ _
    · exact h

end Steps

namespace Mosaic

/-! ## The positions -/

/-- Who is not left out, in the order of the set. -/
def unskipped (skip : Int → Bool) (order : List (UInt64 × Int)) : List Int :=
  (order.map Prod.snd).filter fun id => !skip id

theorem draw_spec (skip : Int → Bool) (order : List (UInt64 × Int)) :
    (draw skip order).1 = (unskipped skip order).headD 0 ∧
      unskipped skip (draw skip order).2 = (unskipped skip order).tail := by
  induction order with
  | nil => exact ⟨rfl, rfl⟩
  | cons e order ih =>
    rw [draw]
    split
    case isTrue hskip =>
      have hrest : unskipped skip (e :: order) = unskipped skip order := by simp [unskipped, hskip]
      rwa [hrest]
    case isFalse hskip =>
      have hhead : unskipped skip (e :: order) = e.2 :: unskipped skip order := by
        simp [unskipped, hskip]
      rw [hhead]
      exact ⟨rfl, rfl⟩

/-- Who is shown in a slot that is not free. -/
def shownIn (vad slot : Int) : Int :=
  if slot = slotLocked then 0 else if slot = slotVAD then vad else slot

/-- The positions of the free slots. -/
def freeIn (slots positions : List Int) : List Int :=
  ((slots.zip positions).filter fun e => e.1 = slotFree).map Prod.snd

/-- The positions are as many as the slots. What is shown in a slot that is not free is said by the
slot, and the free ones are filled in order. -/
structure Fills (vad : Int) (candidates slots positions : List Int) : Prop where
  length : positions.length = slots.length
  shown : ∀ (i : Nat) (slot : Int), slot ≠ slotFree → slots[i]? = some slot →
    positions[i]? = some (shownIn vad slot)
  free : freeIn slots positions = candidates.takeD (slots.count slotFree) 0

section Fills

variable {vad slot pos : Int} {candidates slots positions : List Int}

theorem Fills.cons_of_ne (h : Fills vad candidates slots positions) (hslot : slot ≠ slotFree) :
    Fills vad candidates (slot :: slots) (shownIn vad slot :: positions) where
  length := congrArg (· + 1) h.length
  shown i k hk hi := by
    cases i with
    | zero =>
      rw [List.getElem?_cons_zero, Option.some.injEq] at hi ⊢
      rw [hi]
    | succ i => exact h.shown i k hk hi
  free := by
    rw [List.count_cons_of_ne hslot, ← h.free, freeIn, List.zip_cons_cons,
      List.filter_cons_of_neg (by simpa using hslot), freeIn]

theorem Fills.cons_free (h : Fills vad candidates.tail slots positions)
    (hpos : pos = candidates.headD 0) :
    Fills vad candidates (slotFree :: slots) (pos :: positions) where
  length := congrArg (· + 1) h.length
  shown i k hk hi := by
    cases i with
    | zero =>
      rw [List.getElem?_cons_zero, Option.some.injEq] at hi
      exact absurd hi.symm hk
    | succ i => exact h.shown i k hk hi
  free := by
    rw [List.count_cons_self, List.takeD, ← hpos, ← h.free, freeIn, List.zip_cons_cons,
      List.filter_cons_of_pos (by simp), List.map_cons, freeIn]

/-- The loop over slots whose participants are in the mosaic. -/
theorem fills_assign {has skip : Int → Bool} (hslots : ∀ slot ∈ slots, kept has slot = slot)
    (order : List (UInt64 × Int)) :
    Fills vad (unskipped skip order) slots (assign has skip vad slots order).2 := by
  induction slots generalizing order with
  | nil => exact ⟨rfl, fun i _ _ hi => absurd hi (by simp), rfl⟩
  | cons slot slots ih =>
    have hslot := hslots slot List.mem_cons_self
    have hrest (order : List (UInt64 × Int)) :=
      ih (fun k hk => hslots k (List.mem_cons_of_mem slot hk)) order
    rw [assign]
    split_ifs with hfree hlocked hvad hhas
    · obtain ⟨hhead, htail⟩ := draw_spec skip order
      rw [hfree]
      exact (htail ▸ hrest _).cons_free hhead
    · have hcons := (hrest order).cons_of_ne hfree
      rwa [shownIn, if_pos hlocked] at hcons
    · have hcons := (hrest order).cons_of_ne hfree
      rwa [shownIn, if_neg hlocked, if_pos hvad] at hcons
    · have hcons := (hrest order).cons_of_ne hfree
      rwa [shownIn, if_neg hlocked, if_neg hvad] at hcons
    · rw [kept, if_neg (by simp [Setting, hfree, hlocked, hvad, hhas])] at hslot
      exact absurd hslot.symm hfree

end Fills

variable {m : Mosaic}

theorem Settled.fills (h : m.Settled) :
    Fills m.vadParticipant (unskipped m.skips m.order) m.mosaicSlots m.mosaicPos := by
  have hfills := @fills_assign m.vadParticipant m.mosaicSlots m.hasParticipant m.skips
    (fun _ => h.kept_eq) m.order
  rwa [settled_iff.1 h] at hfills

/-- The layout of a mosaic: nobody is shown in a locked slot, the active speaker in his, and in a slot
that is fixed to a participant it is him, who is in the mosaic. The free slots show those who are not
left out, each one once, the highest score first, and nobody behind the last of them. -/
structure LaidOut (m : Mosaic) : Prop where
  length : m.mosaicPos.length = m.numSlots
  locked : ∀ i : Nat, m.mosaicSlots[i]? = some slotLocked → m.mosaicPos[i]? = some 0
  vad : ∀ i : Nat, m.mosaicSlots[i]? = some slotVAD → m.mosaicPos[i]? = some m.vadParticipant
  fixed : ∀ (i : Nat) (id : Int), ¬Setting id → m.mosaicSlots[i]? = some id →
    m.mosaicPos[i]? = some id ∧ m.hasParticipant id = true
  free : freeIn m.mosaicSlots m.mosaicPos =
    (unskipped m.skips m.order).takeD (m.mosaicSlots.count slotFree) 0
  ordered : m.Ordered
  nodup : (unskipped m.skips m.order).Nodup

theorem Ordered.nodup (h : m.Ordered) : (m.order.map Prod.snd).Nodup := by
  refine List.pairwise_map.2 (h.pairwise.imp_of_mem fun {e e'} he he' hlt heq => ?_)
  have hscore := h.score e he
  rw [heq, h.score e' he', Option.some.injEq] at hscore
  exact absurd hscore.symm (UInt64.ne_of_lt hlt).symm

theorem laidOut (hinv : m.Inv) (hordered : m.Ordered) : m.LaidOut where
  length := hinv.settled.fills.length.trans m.length_mosaicSlots
  locked i hi := hinv.settled.fills.shown i _ (by decide) hi
  vad i hi := hinv.settled.fills.shown i _ (by decide) hi
  fixed i id hid hi := by
    have hne : id ≠ slotFree ∧ id ≠ slotLocked ∧ id ≠ slotVAD := by simpa [Setting] using hid
    have hshown := hinv.settled.fills.shown i id hne.1 hi
    rw [shownIn, if_neg hne.2.1, if_neg hne.2.2] at hshown
    have hkept := hinv.settled.kept_eq (List.mem_of_getElem? hi)
    refine ⟨hshown, ?_⟩
    by_contra hhas
    rw [kept, if_neg (not_or.2 ⟨hid, hhas⟩)] at hkept
    exact hne.1 hkept.symm
  free := hinv.settled.fills.free
  ordered := hordered
  nodup := hordered.nodup.filter _

end Mosaic

/-- **The layout law.** Every mosaic of a mixer is laid out, whatever was asked of the mixer and
whatever its rounds were told. -/
theorem laidOut_run (mixingVideo : Bool) (ini : UInt64) (actions : List Action) :
    (run step { mixingVideo, ini } actions).mosaics.Forall fun e => e.2.LaidOut := by
  have hinv : (run step { mixingVideo, ini } actions).Inv :=
    Reachable.inv ⟨mixingVideo, ini, actions, rfl⟩
  have hordered : (run step { mixingVideo, ini } actions).Ordered := by
    refine invariant_of_meets (C := fun _ _ => True) (I := fun _ (t : VideoMixer) => t.Ordered) ?_ ?_
      actions (meets_of_forall (fun _ _ => trivial) actions)
    · exact fun e he => absurd he List.not_mem_nil
    · exact fun _ a h _ => ordered_step h a
  exact List.forall_iff_forall_mem.2 fun e he => Mosaic.laidOut (hinv e he) (hordered e he)

end VideoMixer

end McuMediaServer
