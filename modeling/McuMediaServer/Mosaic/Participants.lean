import McuMediaServer.Base.SortedMap
import McuMediaServer.Mosaic.Slots

/-!
# Who is shown in a mosaic

A slot of a mosaic is free, locked, that of the active speaker, or fixed to a participant. The
positions say who is shown where, and are calculated from the slots: the free ones are filled with
the participants that are not fixed, in the order of their scores, and a slot whose participant has
left is freed on the way. A mosaic that has just been calculated is settled
(`Mosaic.calculatePositions_idem`): calculating it again changes nothing.
-/

namespace McuMediaServer

namespace VideoMixer

/-- Its key in the participants of a mosaic is its id. Reference: `mosaic.h:50`. -/
structure PartInfo where
  score : UInt64
  isFixed : Int := 0
  deriving DecidableEq

/-- Reference: `mosaic.h:21`. -/
def slotFree : Int := 0

/-- Reference: `mosaic.h:22`. -/
def slotLocked : Int := -1

/-- Reference: `mosaic.h:23`. -/
def slotVAD : Int := -2

/-- The settings of a slot that are no participant. -/
def Setting (id : Int) : Prop :=
  id = slotFree ∨ id = slotLocked ∨ id = slotVAD

instance decidableSetting (id : Int) : Decidable (Setting id) :=
  inferInstanceAs (Decidable (_ ∨ _ ∨ _))

/-- A mosaic object, told from the others by its address. The participants are in the order of their
ids, and `order` has them with the score they were put in with, the bigger first. Reference:
`mosaic.h:146`. -/
structure Mosaic where
  address : Nat
  mosaicType : MosaicType
  size : Int
  participants : List (Int × PartInfo) := []
  order : List (UInt64 × Int) := []
  mosaicSlots : List Int
  mosaicPos : List Int
  vadParticipant : Int := 0
  vadBlockingTime : UInt64 := 0
  hideVadParticipant : Bool := false
  length_mosaicSlots : mosaicSlots.length = mosaicType.numSlots

/-- Put a participant before those with a lower score. A set takes no second one with the same
score. Reference: `Mosaic::ParticipantsOrder` (`mosaic.h:81`). -/
def insertOrder (info : UInt64 × Int) : List (UInt64 × Int) → List (UInt64 × Int)
  | [] => [info]
  | e :: order =>
    if e.1 < info.1 then info :: e :: order
    else if e.1 = info.1 then e :: order
    else e :: insertOrder info order

/-- A set erases what has the same score. -/
def eraseOrder (score : UInt64) (order : List (UInt64 × Int)) : List (UInt64 × Int) :=
  order.filter fun e => e.1 ≠ score

/-- The next participant to draw, 0 when there is none, and those behind it. Reference:
`mosaic.cpp:451`. -/
def draw (skip : Int → Bool) : List (UInt64 × Int) → Int × List (UInt64 × Int)
  | [] => (0, [])
  | e :: order => if skip e.2 then draw skip order else (e.2, order)

namespace Mosaic

/-- Reference: `mosaic.cpp:76`. -/
def new (address : Nat) (comp : MosaicType) (size : Int) : Mosaic where
  address
  mosaicType := comp
  size
  mosaicSlots := List.replicate comp.numSlots 0
  mosaicPos := List.replicate comp.numSlots 0
  length_mosaicSlots := List.length_replicate

variable (m : Mosaic)

/-- Reference: `mosaic.cpp:503`. -/
def numSlots : Nat := m.mosaicType.numSlots

/-- Reference: `mosaic.cpp:268`. -/
def hasParticipant (id : Int) : Bool := (SortedMap.get? id m.participants).isSome

/-- Reference: `mosaic.cpp:282`. -/
def getScore (id : Int) : UInt64 := ((SortedMap.get? id m.participants).map PartInfo.score).getD 0

/-- Reference: `mosaic.cpp:296`. -/
def setScore (id : Int) (score : UInt64) : Mosaic :=
  match SortedMap.get? id m.participants with
  | none => m
  | some info =>
    { m with
      participants := SortedMap.set id { info with score } m.participants
      order := insertOrder (score, id) (eraseOrder info.score m.order) }

/-- Reference: `mosaic.cpp:322`. -/
def addParticipant (id : Int) (score : UInt64) : Mosaic :=
  if m.hasParticipant id then m
  else
    { m with
      participants := SortedMap.set id { score } m.participants
      order := insertOrder (score, id) m.order }

/-- Change how many slots a participant is fixed to, if it is in the mosaic. -/
def addFixed (id delta : Int) : Mosaic :=
  match SortedMap.get? id m.participants with
  | none => m
  | some info =>
    { m with
      participants :=
        SortedMap.set id { info with isFixed := info.isFixed + delta } m.participants }

/-- Reference: `mosaic.cpp:393`. -/
def isVADShown : Bool := slotVAD ∈ m.mosaicSlots

/-- Reference: `mosaic.cpp:348`. -/
def removeParticipant (id : Int) : Mosaic :=
  match SortedMap.get? id m.participants with
  | none => m
  | some info =>
    { m with
      participants := m.participants.filter fun e => e.1 ≠ id
      order := eraseOrder info.score m.order
      vadParticipant := if id = m.vadParticipant then 0 else m.vadParticipant
      vadBlockingTime := if id = m.vadParticipant then 0 else m.vadBlockingTime
      mosaicSlots := m.mosaicSlots.map fun slot => if slot = id then slotFree else slot
      mosaicPos := m.mosaicSlots.zipWith (fun slot pos => if slot = id then 0 else pos) m.mosaicPos
      length_mosaicSlots := (List.length_map _).trans m.length_mosaicSlots }

/-- Reference: `mosaic.cpp:414`. -/
def setVADParticipant (id : Int) (hide : Bool) (blockedUntil : UInt64) : Mosaic :=
  { m with
    vadParticipant := id
    vadBlockingTime := blockedUntil
    hideVadParticipant := hide }

/-- Reference: `mosaic.cpp:235`. -/
def getParticipantSlot (id : Int) : Option Nat := m.mosaicSlots.idxOf? id

/-- Nothing is set in a slot that the mosaic does not have. Reference: `mosaic.cpp:184`. -/
def setSlot (num id : Int) : Mosaic :=
  if num > m.numSlots - 1 ∨ num < 0 then m
  else
    let oldId := m.mosaicSlots.getD num.toNat 0
    let m := { m with
      mosaicSlots := m.mosaicSlots.set num.toNat id
      length_mosaicSlots := List.length_set.trans m.length_mosaicSlots }
    let m := if 0 < id ∧ oldId ≠ id then m.addFixed id 1 else m
    let m := if 0 < oldId ∧ oldId ≠ id then m.addFixed oldId (-1) else m
    if oldId = slotVAD ∧ !m.isVADShown then { m with vadParticipant := 0, vadBlockingTime := 0 }
    else m

/-- Who is left out when a free slot is filled: the active speaker when it is hidden, and who is
fixed. Reference: `mosaic.cpp:457`. -/
def skips (id : Int) : Bool :=
  (id = m.vadParticipant ∧ m.hideVadParticipant ∧ m.isVADShown) ∨
    0 < ((SortedMap.get? id m.participants).map PartInfo.isFixed).getD 0

/-- Go over the slots, with the participants that are left to draw: the slots, of which those are
freed whose participant is not in the mosaic, and the positions. Freeing a slot does not change
whether the active speaker is shown. Reference: `mosaic.cpp:436`. -/
def assign (has skip : Int → Bool) (vad : Int) :
    List Int → List (UInt64 × Int) → List Int × List Int
  | [], _ => ([], [])
  | slot :: slots, order =>
    if slot = slotFree then
      let drawn := draw skip order
      let rest := assign has skip vad slots drawn.2
      (slot :: rest.1, drawn.1 :: rest.2)
    else if slot = slotLocked then
      let rest := assign has skip vad slots order
      (slot :: rest.1, 0 :: rest.2)
    else if slot = slotVAD then
      let rest := assign has skip vad slots order
      (slot :: rest.1, vad :: rest.2)
    else if has slot then
      let rest := assign has skip vad slots order
      (slot :: rest.1, slot :: rest.2)
    else
      let drawn := draw skip order
      let rest := assign has skip vad slots drawn.2
      (slotFree :: rest.1, drawn.1 :: rest.2)

/-- A slot whose participant is not in the mosaic is freed. -/
def kept (has : Int → Bool) (slot : Int) : Int :=
  if Setting slot ∨ has slot then slot else slotFree

theorem assign_fst (has skip : Int → Bool) (vad : Int) (slots : List Int)
    (order : List (UInt64 × Int)) :
    (assign has skip vad slots order).1 = slots.map (kept has) := by
  induction slots generalizing order with
  | nil => rfl
  | cons slot slots ih =>
    rw [assign, List.map_cons, kept]
    split_ifs <;> simp_all [Setting]

/-- Reference: `mosaic.cpp:425`. -/
def calculatePositions : Mosaic :=
  let assigned :=
    assign m.hasParticipant m.skips m.vadParticipant m.mosaicSlots m.order
  { m with
    mosaicSlots := assigned.1
    mosaicPos := assigned.2
    length_mosaicSlots := by
      rw [assign_fst, List.length_map]
      exact m.length_mosaicSlots }

/-- Take over the slots of another mosaic, as many as there are. Reference: `mosaic.cpp:508`. -/
def setSlots (slots : List Int) : Mosaic :=
  let copied := slots.take m.numSlots
  { m with
    participants :=
      (copied.foldl (fun m id => if 0 < id then m.addFixed id 1 else m) m).participants
    mosaicSlots := copied ++ List.replicate (m.numSlots - slots.length) 0
    length_mosaicSlots := by
      rw [List.length_append, List.length_take, List.length_replicate, numSlots]
      omega }

/-! ## What stays as it is -/

section Frame

variable {m}

theorem mosaicSlots_addFixed (id delta : Int) : (m.addFixed id delta).mosaicSlots = m.mosaicSlots := by
  rw [addFixed]
  cases SortedMap.get? id m.participants <;> rfl

theorem mosaicType_addFixed (id delta : Int) : (m.addFixed id delta).mosaicType = m.mosaicType := by
  rw [addFixed]
  cases SortedMap.get? id m.participants <;> rfl

theorem score_addFixed (id delta k : Int) :
    (SortedMap.get? k (m.addFixed id delta).participants).map PartInfo.score =
      (SortedMap.get? k m.participants).map PartInfo.score := by
  rw [addFixed]
  cases hid : SortedMap.get? id m.participants with
  | none => rfl
  | some info =>
    dsimp only
    rw [SortedMap.get?_set]
    split
    case isTrue hk => rw [hk, hid]; rfl
    case isFalse => rfl

theorem hasParticipant_of_score {m' : Mosaic} {k : Int}
    (h : (SortedMap.get? k m'.participants).map PartInfo.score =
      (SortedMap.get? k m.participants).map PartInfo.score) :
    m'.hasParticipant k = m.hasParticipant k := by
  have := congrArg Option.isSome h
  rwa [Option.isSome_map, Option.isSome_map] at this

theorem score_setSlot (num id k : Int) :
    (SortedMap.get? k (m.setSlot num id).participants).map PartInfo.score =
      (SortedMap.get? k m.participants).map PartInfo.score := by
  unfold setSlot
  dsimp only
  split_ifs <;> simp only [score_addFixed]

theorem mosaicType_setSlot (num id : Int) : (m.setSlot num id).mosaicType = m.mosaicType := by
  unfold setSlot
  dsimp only
  split_ifs <;> simp only [mosaicType_addFixed]

theorem mosaicSlots_setSlot {num : Nat} (hnum : num < m.numSlots) (id : Int) :
    (m.setSlot num id).mosaicSlots = m.mosaicSlots.set num id := by
  have hin : ¬((num : Int) > m.numSlots - 1 ∨ (num : Int) < 0) := by omega
  unfold setSlot
  rw [if_neg hin]
  dsimp only
  split_ifs <;> simp only [mosaicSlots_addFixed, Int.toNat_natCast]

theorem setSlot_of_not {num id : Int} (hnum : ¬(0 ≤ num ∧ num < m.numSlots)) :
    m.setSlot num id = m := by
  unfold setSlot
  rw [if_pos (by omega)]

end Frame

/-! ## Calculating the positions -/

section Calculate

variable {m}

theorem assign_kept (has skip : Int → Bool) (vad : Int) (slots : List Int)
    (order : List (UInt64 × Int)) :
    assign has skip vad (slots.map (kept has)) order = assign has skip vad slots order := by
  induction slots generalizing order with
  | nil => rfl
  | cons slot slots ih =>
    rw [List.map_cons]
    by_cases hkept : Setting slot ∨ has slot
    · rw [kept, if_pos hkept, assign, assign]
      simp only [ih]
    · obtain ⟨hsetting, hhas⟩ := not_or.1 hkept
      obtain ⟨hfree, hlocked, hvad⟩ : slot ≠ slotFree ∧ slot ≠ slotLocked ∧ slot ≠ slotVAD := by
        simpa [Setting] using hsetting
      rw [kept, if_neg hkept, assign, assign, if_pos rfl, if_neg hfree, if_neg hlocked, if_neg hvad,
        if_neg hhas]
      simp only [ih]

theorem mosaicSlots_calculatePositions :
    m.calculatePositions.mosaicSlots = m.mosaicSlots.map (kept m.hasParticipant) :=
  assign_fst _ _ _ _ _

theorem slotVAD_mem_map_kept (has : Int → Bool) (slots : List Int) :
    slotVAD ∈ slots.map (kept has) ↔ slotVAD ∈ slots := by
  have hvad : ∀ slot, kept has slot = slotVAD ↔ slot = slotVAD := by
    intro slot
    rw [kept]
    split
    case isTrue => rfl
    case isFalse hnot =>
      refine iff_of_false (by decide) ?_
      rintro rfl
      exact hnot (.inl (.inr (.inr rfl)))
  simp [hvad]

theorem isVADShown_calculatePositions : m.calculatePositions.isVADShown = m.isVADShown := by
  rw [isVADShown, mosaicSlots_calculatePositions]
  exact decide_eq_decide.2 (slotVAD_mem_map_kept _ _)

/-- Nothing changes when the positions are calculated. -/
def Settled (m : Mosaic) : Prop := m.calculatePositions = m

theorem settled_iff :
    m.Settled ↔ assign m.hasParticipant m.skips m.vadParticipant m.mosaicSlots m.order =
      (m.mosaicSlots, m.mosaicPos) := by
  constructor
  · intro h
    exact Prod.ext (congrArg mosaicSlots h) (congrArg mosaicPos h)
  · intro h
    cases m
    simp only [Settled, calculatePositions, h]

theorem calculatePositions_idem : m.calculatePositions.Settled := by
  have hskips : m.calculatePositions.skips = m.skips := by
    funext id
    rw [skips, skips, isVADShown_calculatePositions]
    rfl
  rw [settled_iff, hskips, mosaicSlots_calculatePositions]
  refine (assign_kept _ _ _ _ _).trans (Prod.ext ?_ rfl)
  exact assign_fst _ _ _ _ _

theorem Settled.kept_eq (h : m.Settled) {slot : Int} (hslot : slot ∈ m.mosaicSlots) :
    kept m.hasParticipant slot = slot := by
  have hmap : m.mosaicSlots.map (kept m.hasParticipant) = m.mosaicSlots := by
    rw [← mosaicSlots_calculatePositions, h]
  have := List.map_inj_left.1 (hmap.trans (List.map_id _).symm) slot hslot
  exact this

/-- No participant is fixed to two slots. -/
def FixedOnce (m : Mosaic) : Prop :=
  ∀ (id : Int) (i j : Nat), 0 < id → m.mosaicSlots[i]? = some id → m.mosaicSlots[j]? = some id → i = j

theorem FixedOnce.of_imp {m' : Mosaic} (h : m.FixedOnce)
    (himp : ∀ (id : Int) (i : Nat), 0 < id → m'.mosaicSlots[i]? = some id →
      m.mosaicSlots[i]? = some id) : m'.FixedOnce :=
  fun id i j hid hi hj => h id i j hid (himp id i hid hi) (himp id j hid hj)

theorem FixedOnce.of_map {m' : Mosaic} (h : m.FixedOnce) {f : Int → Int}
    (hf : ∀ slot, f slot = slot ∨ f slot = slotFree) (hslots : m'.mosaicSlots = m.mosaicSlots.map f) :
    m'.FixedOnce := by
  refine h.of_imp fun id i hid hi => ?_
  rw [hslots, List.getElem?_map, Option.map_eq_some_iff] at hi
  obtain ⟨slot, hslot, heq⟩ := hi
  rcases hf slot with hsame | hfree
  · rw [hslot, ← heq, hsame]
  · rw [hfree] at heq
    rw [slotFree] at heq
    omega

theorem kept_eq_or (has : Int → Bool) (slot : Int) : kept has slot = slot ∨ kept has slot = slotFree := by
  rw [kept]
  split
  · exact .inl rfl
  · exact .inr rfl

theorem FixedOnce.calculatePositions (h : m.FixedOnce) : m.calculatePositions.FixedOnce :=
  h.of_map (kept_eq_or _) mosaicSlots_calculatePositions

/-- What holds of every mosaic of a mixer. -/
structure Inv (m : Mosaic) : Prop where
  settled : m.Settled
  fixedOnce : m.FixedOnce

theorem FixedOnce.inv (h : m.FixedOnce) : m.calculatePositions.Inv :=
  ⟨calculatePositions_idem, h.calculatePositions⟩

end Calculate

end Mosaic

end VideoMixer

end McuMediaServer
