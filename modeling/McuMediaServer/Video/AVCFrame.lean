import McuMediaServer.Video.AVCDescriptor

/-!
# Parameter sets from a frame

The NAL units of a frame are walked over by the sizes in front of them. The type of a unit has five
bits, of which the walk looks at four; it looks at the byte behind a size also when the unit is empty;
and it believes a size that is too long, which leads it out of the frame, or, when the size and the
four bytes of the size itself exceed a `DWORD`, to a place a few bytes on, or nowhere.
-/

namespace McuMediaServer

open ByteSeq

/-- The two kinds of parameter sets. -/
inductive ParameterKind where
  | sequence | picture
  deriving DecidableEq

/-- The sets with the sizes that are kept of them. -/
def ParameterSets.sets (s : ParameterSets) : List (List UInt8) :=
  s.data.map fun set => set.take (sizeOf set)

namespace AVCDescriptor

/-- The type of a NAL unit as the walk sees it. Reference: `avcdescriptor.cpp:130`. -/
def kindOf (first : Nat) : Option ParameterKind :=
  if first % 2 ^ 4 = 8 then some .picture
  else if first % 2 ^ 4 = 7 then some .sequence
  else none

def addSet (d : AVCDescriptor) (data : List UInt8) : ParameterKind → AVCDescriptor
  | .sequence => { d with sps := d.sps.add data }
  | .picture => { d with pps := d.pps.add data }

/-- A unit whose first byte says so is added. Reference: `avcdescriptor.cpp:130`. -/
def addNal (d : AVCDescriptor) (frame : List UInt8) (pos nalSize first : Nat) :
    Option AVCDescriptor :=
  match kindOf first with
  | some kind => (slice frame pos nalSize).map fun data => d.addSet data kind
  | none => some d

/-- What the walk makes of a descriptor. There is no value when a byte outside the frame is read,
and as long as the walk has not ended. Reference: `avcdescriptor.cpp:120`. -/
def addParametersFromFrame (frame : List UInt8) :
    (fuel pos size : Nat) → AVCDescriptor → Option AVCDescriptor
  | 0, _, _, _ => none
  | fuel + 1, pos, size, d =>
    if 4 < size then do
      let nalSize ← get4 frame pos
      let first ← get1 frame (pos + 4)
      let d ← d.addNal frame (pos + 4) nalSize first
      let skip := (4 + nalSize) % 2 ^ 32
      addParametersFromFrame frame fuel (pos + skip) ((size + 2 ^ 32 - skip) % 2 ^ 32) d
    else
      some d

/-! ## What is asked of the walk -/

/-- The size that is in front of a frame, and the byte behind it. -/
def nalSizeOf (frame : List UInt8) : Nat := (get4 frame 0).getD 0
def firstOf (frame : List UInt8) : Nat := (get1 frame 4).getD 0

/-- The NAL units of a frame, up to the first one whose size is too long. -/
def units (frame : List UInt8) : List (List UInt8) :=
  if 4 ≤ frame.length ∧ 4 + nalSizeOf frame ≤ frame.length then
    (frame.drop 4).take (nalSizeOf frame) :: units (frame.drop (4 + nalSizeOf frame))
  else []
termination_by frame.length
decreasing_by
  rw [List.length_drop]
  omega

/-- Of which kind a NAL unit is, whose type has five bits. -/
def unitKind : List UInt8 → Option ParameterKind
  | [] => none
  | first :: _ =>
    if first.toNat % 2 ^ 5 = 7 then some .sequence
    else if first.toNat % 2 ^ 5 = 8 then some .picture
    else none

/-- The NAL units of a kind. -/
def unitsOf (kind : ParameterKind) (frame : List UInt8) : List (List UInt8) :=
  (units frame).filter fun nal => unitKind nal = some kind

/-- The sets of a kind. -/
def setsOf (d : AVCDescriptor) : ParameterKind → ParameterSets
  | .sequence => d.sps
  | .picture => d.pps

/-- The units of each kind have been added in order and with their full contents, and the counts are
those of the sets. -/
def Adds (frame : List UInt8) (d d' : AVCDescriptor) : Prop :=
  ∀ kind, (d'.setsOf kind).sets = (d.setsOf kind).sets ++ unitsOf kind frame ∧
    (d'.setsOf kind).num = (d'.setsOf kind).data.length

/-- What the byte behind a size may be: not that of a parameter set, unless there is a unit with
this type whose size is kept in full. -/
def Keeps (stray : Bool) (nalSize first : Nat) : Prop :=
  kindOf first = none ∨
    stray = false ∧ (first % 2 ^ 5 = 7 ∨ first % 2 ^ 5 = 8) ∧ 0 < nalSize ∧ nalSize < 2 ^ 16

/-- The sizes of the units are inside the frame, and the bytes behind them are as they may be.
Behind a size that is too long (it has to be one of the last three numbers of a `DWORD`) the walk is
astray and must not find any parameter set. -/
def Clean (stray : Bool) (frame : List UInt8) : Prop :=
  if frame.length ≤ 4 then True
  else if 4 + nalSizeOf frame ≤ frame.length then
    Keeps stray (nalSizeOf frame) (firstOf frame) ∧
      Clean stray (frame.drop (4 + nalSizeOf frame))
  else if 2 ^ 32 < 4 + nalSizeOf frame then
    kindOf (firstOf frame) = none ∧ Clean true (frame.drop (4 + nalSizeOf frame - 2 ^ 32))
  else False
termination_by frame.length
decreasing_by
  · rw [List.length_drop]
    omega
  · rw [List.length_drop]
    omega

/-! ## The walk without positions -/

/-- What a unit adds. -/
def itemOf (kind : Option ParameterKind) (data : List UInt8) : List (ParameterKind × List UInt8) :=
  match kind with
  | some kind => [(kind, data)]
  | none => []

/-- What the walk adds, in order. -/
def walked (frame : List UInt8) : Option (List (ParameterKind × List UInt8)) :=
  if frame.length ≤ 4 then some []
  else if 4 + nalSizeOf frame ≤ frame.length then
    (walked (frame.drop (4 + nalSizeOf frame))).map fun items =>
      itemOf (kindOf (firstOf frame)) ((frame.drop 4).take (nalSizeOf frame)) ++ items
  else if 2 ^ 32 < 4 + nalSizeOf frame then
    if kindOf (firstOf frame) = none then walked (frame.drop (4 + nalSizeOf frame - 2 ^ 32))
    else none
  else none
termination_by frame.length
decreasing_by
  · rw [List.length_drop]
    omega
  · rw [List.length_drop]
    omega

def addAll (d : AVCDescriptor) (items : List (ParameterKind × List UInt8)) : AVCDescriptor :=
  items.foldl (fun d item => d.addSet item.2 item.1) d

theorem addAll_append (d : AVCDescriptor) (items items' : List (ParameterKind × List UInt8)) :
    d.addAll (items ++ items') = (d.addAll items).addAll items' :=
  List.foldl_append ..

section Walk

variable {frame : List UInt8} {fuel pos : Nat} {d d' : AVCDescriptor}

theorem nalSizeOf_lt (frame : List UInt8) : nalSizeOf frame < 2 ^ 32 := by
  rw [nalSizeOf]
  cases h : get4 frame 0 with
  | none => decide
  | some v => exact get4_lt h

theorem get4_of_lt (h : pos + 4 < frame.length) :
    get4 frame pos = some (nalSizeOf (frame.drop pos)) := by
  have hsplit : get4 frame pos = get4 (frame.drop pos) 0 := by
    simp [get4, get2, get1]
  obtain ⟨v, hv⟩ := Option.isSome_iff_exists.1 ((@isSome_get4 frame pos).2 (by omega))
  rw [nalSizeOf, ← hsplit, hv]
  rfl

theorem get1_of_lt (h : pos + 4 < frame.length) :
    get1 frame (pos + 4) = some (firstOf (frame.drop pos)) := by
  have hsplit : get1 frame (pos + 4) = get1 (frame.drop pos) 4 := by
    simp [get1]
  obtain ⟨v, hv⟩ := Option.isSome_iff_exists.1 ((@isSome_get1 frame (pos + 4)).2 h)
  rw [firstOf, ← hsplit, hv]
  rfl

theorem walk_step (h : pos + 4 < frame.length) :
    addParametersFromFrame frame (fuel + 1) pos (frame.length - pos) d =
      (d.addNal frame (pos + 4) (nalSizeOf (frame.drop pos)) (firstOf (frame.drop pos))).bind
        (addParametersFromFrame frame fuel (pos + (4 + nalSizeOf (frame.drop pos)) % 2 ^ 32)
          ((frame.length - pos + 2 ^ 32 - (4 + nalSizeOf (frame.drop pos)) % 2 ^ 32) % 2 ^ 32)) := by
  rw [addParametersFromFrame, if_pos (by omega), get4_of_lt h, get1_of_lt h]
  rfl

theorem walk_outside {size : Nat} (h : frame.length ≤ pos) (hsize : 4 < size) :
    addParametersFromFrame frame fuel pos size d = none := by
  cases fuel with
  | zero => rfl
  | succ fuel =>
    have hnone : get4 frame pos = none := by
      rw [← Option.not_isSome_iff_eq_none, isSome_get4]
      omega
    rw [addParametersFromFrame, if_pos hsize, hnone]
    rfl

theorem walk_inside (hframe : frame.length < 2 ^ 32) (h : pos + 4 < frame.length)
    (hinside : 4 + nalSizeOf (frame.drop pos) ≤ (frame.drop pos).length) :
    addParametersFromFrame frame (fuel + 1) pos (frame.length - pos) d =
      addParametersFromFrame frame fuel (pos + (4 + nalSizeOf (frame.drop pos)))
        (frame.length - (pos + (4 + nalSizeOf (frame.drop pos))))
        (d.addAll (itemOf (kindOf (firstOf (frame.drop pos)))
          (((frame.drop pos).drop 4).take (nalSizeOf (frame.drop pos))))) := by
  rw [List.length_drop] at hinside
  rw [walk_step h]
  generalize nalSizeOf (frame.drop pos) = nalSize at hinside ⊢
  have hadd : d.addNal frame (pos + 4) nalSize (firstOf (frame.drop pos)) =
      some (d.addAll (itemOf (kindOf (firstOf (frame.drop pos)))
        (((frame.drop pos).drop 4).take nalSize))) := by
    rw [addNal]
    cases kindOf (firstOf (frame.drop pos)) with
    | none => rfl
    | some kind =>
      dsimp only
      rw [slice, if_pos (by omega), List.drop_drop]
      rfl
  have hsize : (frame.length - pos + 2 ^ 32 - (4 + nalSize)) % 2 ^ 32 =
      frame.length - (pos + (4 + nalSize)) := by
    rw [show frame.length - pos + 2 ^ 32 - (4 + nalSize) =
      frame.length - (pos + (4 + nalSize)) + 2 ^ 32 by omega, Nat.add_mod_right]
    exact Nat.mod_eq_of_lt (by omega)
  rw [hadd, Option.bind_some, Nat.mod_eq_of_lt (by omega), hsize]

theorem walk_tooLong (hframe : frame.length < 2 ^ 32) (h : pos + 4 < frame.length)
    (houtside : (frame.drop pos).length < 4 + nalSizeOf (frame.drop pos)) :
    addParametersFromFrame frame (fuel + 1) pos (frame.length - pos) d =
      if kindOf (firstOf (frame.drop pos)) = none ∧ 2 ^ 32 ≤ 4 + nalSizeOf (frame.drop pos) then
        addParametersFromFrame frame fuel (pos + (4 + nalSizeOf (frame.drop pos) - 2 ^ 32))
          (frame.length - (pos + (4 + nalSizeOf (frame.drop pos) - 2 ^ 32))) d
      else none := by
  rw [List.length_drop] at houtside
  have hlt := nalSizeOf_lt (frame.drop pos)
  rw [walk_step h, addNal]
  generalize nalSizeOf (frame.drop pos) = nalSize at houtside hlt ⊢
  cases hkind : kindOf (firstOf (frame.drop pos)) with
  | some kind =>
    rw [if_neg (by simp), slice, if_neg (by omega)]
    rfl
  | none =>
    dsimp only
    rw [Option.bind_some]
    by_cases hwraps : 2 ^ 32 ≤ 4 + nalSize
    · have hskip : (4 + nalSize) % 2 ^ 32 = 4 + nalSize - 2 ^ 32 := by
        rw [Nat.mod_eq_sub_mod hwraps]
        exact Nat.mod_eq_of_lt (by omega)
      have hsize : (frame.length - pos + 2 ^ 32 - (4 + nalSize - 2 ^ 32)) % 2 ^ 32 =
          frame.length - (pos + (4 + nalSize - 2 ^ 32)) := by
        rw [show frame.length - pos + 2 ^ 32 - (4 + nalSize - 2 ^ 32) =
          frame.length - (pos + (4 + nalSize - 2 ^ 32)) + 2 ^ 32 by omega, Nat.add_mod_right]
        exact Nat.mod_eq_of_lt (by omega)
      rw [hskip, hsize, if_pos ⟨rfl, hwraps⟩]
    · have hno : ¬((none : Option ParameterKind) = none ∧ 2 ^ 32 ≤ 4 + nalSize) :=
        fun h => hwraps h.2
      rw [Nat.mod_eq_of_lt (Nat.lt_of_not_le hwraps), if_neg hno]
      refine walk_outside (by omega) ?_
      rw [Nat.mod_eq_of_lt (by omega)]
      omega

theorem walk_iff (hframe : frame.length < 2 ^ 32) (hpos : pos ≤ frame.length) :
    (∃ fuel, addParametersFromFrame frame fuel pos (frame.length - pos) d = some d') ↔
      ∃ items, walked (frame.drop pos) = some items ∧ d' = d.addAll items := by
  have hlength : (frame.drop pos).length = frame.length - pos := List.length_drop
  constructor
  · rintro ⟨fuel, hwalk⟩
    induction fuel generalizing pos d with
    | zero => cases hwalk
    | succ fuel ih =>
      rw [walked]
      by_cases hend : frame.length - pos ≤ 4
      · rw [addParametersFromFrame, if_neg (by omega)] at hwalk
        rw [if_pos (by omega)]
        exact ⟨[], rfl, (Option.some.inj hwalk).symm⟩
      · rw [if_neg (by omega)]
        by_cases hinside : 4 + nalSizeOf (frame.drop pos) ≤ (frame.drop pos).length
        · rw [walk_inside hframe (by omega) hinside] at hwalk
          obtain ⟨items, hitems, rfl⟩ := ih (by omega) List.length_drop hwalk
          rw [← List.drop_drop] at hitems
          rw [if_pos hinside, hitems]
          exact ⟨_, rfl, (addAll_append ..).symm⟩
        · have hlt := nalSizeOf_lt (frame.drop pos)
          rw [walk_tooLong hframe (by omega) (by omega)] at hwalk
          rw [if_neg hinside]
          split at hwalk
          · rename_i hwraps
            obtain ⟨items, hitems, rfl⟩ := ih (by omega) List.length_drop hwalk
            by_cases hstuck : 2 ^ 32 < 4 + nalSizeOf (frame.drop pos)
            · rw [← List.drop_drop] at hitems
              rw [if_pos hstuck, if_pos hwraps.1, hitems]
              exact ⟨items, rfl, rfl⟩
            · -- The walk stays where it is.
              have hnone : walked (frame.drop pos) = none := by
                rw [walked, if_neg (by omega), if_neg hinside, if_neg hstuck]
              rw [show 4 + nalSizeOf (frame.drop pos) - 2 ^ 32 = 0 by omega, Nat.add_zero,
                hnone] at hitems
              cases hitems
          · cases hwalk
  · intro hitems
    induction hn : frame.length - pos using Nat.strong_induction_on generalizing pos d with
    | h n ih =>
      subst hn
      obtain ⟨items, hitems, rfl⟩ := hitems
      rw [walked] at hitems
      by_cases hend : frame.length - pos ≤ 4
      · rw [if_pos (by omega)] at hitems
        cases hitems
        exact ⟨1, by rw [addParametersFromFrame, if_neg (by omega)]; rfl⟩
      · rw [if_neg (by omega)] at hitems
        by_cases hinside : 4 + nalSizeOf (frame.drop pos) ≤ (frame.drop pos).length
        · rw [if_pos hinside] at hitems
          obtain ⟨rest, hrest, rfl⟩ := Option.map_eq_some_iff.1 hitems
          rw [List.drop_drop] at hrest
          obtain ⟨fuel, hfuel⟩ := @ih _ (by omega) (pos + (4 + nalSizeOf (frame.drop pos)))
            (d.addAll (itemOf (kindOf (firstOf (frame.drop pos)))
              (((frame.drop pos).drop 4).take (nalSizeOf (frame.drop pos)))))
            (by omega) List.length_drop ⟨rest, hrest, addAll_append ..⟩ rfl
          refine ⟨fuel + 1, ?_⟩
          rw [walk_inside hframe (by omega) hinside, hfuel]
        · rw [if_neg hinside] at hitems
          split at hitems
          · rename_i hwraps
            split at hitems
            · rename_i hkind
              have hlt := nalSizeOf_lt (frame.drop pos)
              rw [List.drop_drop] at hitems
              obtain ⟨fuel, hfuel⟩ := @ih _ (by omega)
                (pos + (4 + nalSizeOf (frame.drop pos) - 2 ^ 32)) d (by omega) List.length_drop
                ⟨items, hitems, rfl⟩ rfl
              refine ⟨fuel + 1, ?_⟩
              rw [walk_tooLong hframe (by omega) (by omega), if_pos ⟨hkind, by omega⟩, hfuel]
            · cases hitems
          · cases hitems

end Walk

/-! ## What is added -/

section Items

variable {frame : List UInt8} {items items' : List (ParameterKind × List UInt8)}

/-- The sets of a kind among what is added. -/
def ofKind (kind : ParameterKind) (items : List (ParameterKind × List UInt8)) : List (List UInt8) :=
  (items.filter fun item => item.1 = kind).map (·.2)

theorem data_addAll (d : AVCDescriptor) (items : List (ParameterKind × List UInt8))
    (kind : ParameterKind) :
    ((d.addAll items).setsOf kind).data = (d.setsOf kind).data ++ ofKind kind items := by
  induction items generalizing d with
  | nil => exact (List.append_nil _).symm
  | cons item items ih =>
    obtain ⟨kind', data⟩ := item
    rw [addAll, List.foldl_cons, ← addAll, ih]
    cases kind <;> cases kind' <;>
      simp [setsOf, addSet, ofKind, ParameterSets.add]

theorem ofKind_append (kind : ParameterKind) :
    ofKind kind (items ++ items') = ofKind kind items ++ ofKind kind items' := by
  rw [ofKind, List.filter_append, List.map_append, ← ofKind, ← ofKind]

theorem length_ofKind (items : List (ParameterKind × List UInt8)) :
    (ofKind .sequence items).length + (ofKind .picture items).length = items.length := by
  induction items with
  | nil => rfl
  | cons item items ih =>
    obtain ⟨kind, data⟩ := item
    cases kind <;> simp [ofKind] at ih ⊢ <;> omega

/-- Sets whose sizes are kept. -/
def Full (added wanted : List (List UInt8)) : Prop :=
  added.map (fun set => set.take (ParameterSets.sizeOf set)) = wanted

theorem full_iff {set : List UInt8} :
    set.take (ParameterSets.sizeOf set) = set ↔ set.length < 2 ^ 16 := by
  rw [List.take_eq_self_iff, ParameterSets.sizeOf]
  omega

/-- What is wanted of the units. -/
def wanted (units : List (List UInt8)) : List (ParameterKind × List UInt8) :=
  units.flatMap fun nal => itemOf (unitKind nal) nal

theorem ofKind_wanted (kind : ParameterKind) (units : List (List UInt8)) :
    ofKind kind (wanted units) = units.filter fun nal => unitKind nal = some kind := by
  induction units with
  | nil => rfl
  | cons nal units ih =>
    rw [wanted, List.flatMap_cons, ← wanted, ofKind_append, ih]
    cases h : unitKind nal with
    | none => simp [itemOf, ofKind, h]
    | some kind' => by_cases hkind : kind' = kind <;> simp [itemOf, ofKind, h, hkind]

/-- What the walk adds is what is wanted. -/
def Matches (items wanted : List (ParameterKind × List UInt8)) : Prop :=
  ∀ kind, Full (ofKind kind items) (ofKind kind wanted)

theorem Matches.length_eq {wanted : List (ParameterKind × List UInt8)} (h : Matches items wanted) :
    items.length = wanted.length := by
  have hsequence := congrArg List.length (h .sequence)
  have hpicture := congrArg List.length (h .picture)
  rw [List.length_map] at hsequence hpicture
  have hitems := length_ofKind items
  have hwanted := length_ofKind wanted
  omega

theorem matches_nil : Matches items [] ↔ items = [] := by
  constructor
  · intro h
    exact List.length_eq_zero_iff.1 h.length_eq
  · rintro rfl kind
    rfl

theorem matches_cons {wanted : List (ParameterKind × List UInt8)} {kind : ParameterKind}
    {set : List UInt8} : Matches ((kind, set) :: items) ((kind, set) :: wanted) ↔
      set.length < 2 ^ 16 ∧ Matches items wanted := by
  have hkind (k : ParameterKind) : Full (ofKind k ((kind, set) :: items))
      (ofKind k ((kind, set) :: wanted)) ↔
        (k = kind → set.length < 2 ^ 16) ∧ Full (ofKind k items) (ofKind k wanted) := by
    by_cases h : kind = k
    · rw [Full, Full, ← full_iff]
      simp [ofKind, h]
    · have h' : ¬k = kind := fun heq => h heq.symm
      rw [Full, Full]
      simp [ofKind, h, h']
  constructor
  · intro h
    exact ⟨((hkind kind).1 (h kind)).1 rfl, fun k => ((hkind k).1 (h k)).2⟩
  · intro h k
    exact (hkind k).2 ⟨fun _ => h.1, h.2 k⟩

end Items

section Clean

variable {stray : Bool} {frame : List UInt8} {items : List (ParameterKind × List UInt8)}

/-- What the walk should add from here on: nothing when it is astray. -/
def target (stray : Bool) (frame : List UInt8) : List (ParameterKind × List UInt8) :=
  if stray then [] else wanted (units frame)

/-- The first unit of a frame. -/
def firstUnit (frame : List UInt8) : List UInt8 := (frame.drop 4).take (nalSizeOf frame)

/-- Of which kind the first unit is, when the walk is not astray. -/
def targetKind (stray : Bool) (frame : List UInt8) : Option ParameterKind :=
  if stray then none else unitKind (firstUnit frame)

theorem length_firstUnit (h : 4 + nalSizeOf frame ≤ frame.length) :
    (firstUnit frame).length = nalSizeOf frame := by
  rw [firstUnit, List.length_take, List.length_drop]
  omega

theorem unitKind_firstUnit (hlen : 4 < frame.length) :
    unitKind (firstUnit frame) =
      if nalSizeOf frame = 0 then none
      else if firstOf frame % 2 ^ 5 = 7 then some .sequence
      else if firstOf frame % 2 ^ 5 = 8 then some .picture
      else none := by
  obtain ⟨first, rest, hdrop⟩ : ∃ first rest, frame.drop 4 = first :: rest := by
    have hne : frame.drop 4 ≠ [] := by
      rw [Ne, List.drop_eq_nil_iff]
      omega
    exact List.exists_cons_of_ne_nil hne
  have hfirst : firstOf frame = first.toNat := by
    have hget : frame[4]? = some first := by
      rw [← Nat.add_zero 4, ← List.getElem?_drop, hdrop]
      rfl
    rw [firstOf, get1, hget]
    rfl
  rw [firstUnit, hdrop, hfirst]
  cases nalSizeOf frame with
  | zero => rfl
  | succ n => rfl

theorem targetKind_eq (hlen : 4 < frame.length) {kind : ParameterKind}
    (h : targetKind stray frame = some kind) : kindOf (firstOf frame) = some kind := by
  rw [targetKind] at h
  split at h
  · cases h
  · rw [unitKind_firstUnit hlen] at h
    rw [kindOf]
    split at h
    · cases h
    · split at h
      · cases h
        rw [if_neg (by omega), if_pos (by omega)]
      · split at h
        · cases h
          rw [if_pos (by omega)]
        · cases h

theorem keeps_iff (hlen : 4 < frame.length) (hinside : 4 + nalSizeOf frame ≤ frame.length) :
    Keeps stray (nalSizeOf frame) (firstOf frame) ↔
      kindOf (firstOf frame) = none ∨
        targetKind stray frame ≠ none ∧ (firstUnit frame).length < 2 ^ 16 := by
  rw [Keeps, targetKind, unitKind_firstUnit hlen, length_firstUnit hinside]
  refine or_congr_right ?_
  cases stray with
  | true => simp
  | false =>
    rw [if_neg Bool.false_ne_true]
    generalize firstOf frame % 2 ^ 5 = type
    by_cases hzero : nalSizeOf frame = 0
    · simp [hzero]
    · by_cases h7 : type = 7
      · simp [hzero, h7, Nat.pos_of_ne_zero hzero]
      · by_cases h8 : type = 8
        · simp [hzero, h8, Nat.pos_of_ne_zero hzero]
        · simp [hzero, h7, h8]

theorem target_inside (hlen : 4 < frame.length) (hinside : 4 + nalSizeOf frame ≤ frame.length) :
    target stray frame = itemOf (targetKind stray frame) (firstUnit frame) ++
      target stray (frame.drop (4 + nalSizeOf frame)) := by
  cases stray with
  | true => rfl
  | false =>
    rw [target, target, targetKind, if_neg Bool.false_ne_true, if_neg Bool.false_ne_true,
      if_neg Bool.false_ne_true, units, if_pos ⟨by omega, hinside⟩]
    exact List.flatMap_cons

theorem target_outside (houtside : ¬4 + nalSizeOf frame ≤ frame.length) :
    target stray frame = [] := by
  have hunits : units frame = [] := by
    rw [units, if_neg fun h => houtside h.2]
  rw [target, hunits]
  cases stray <;> rfl

theorem target_short (hlen : frame.length ≤ 4) : target stray frame = [] := by
  by_cases hinside : 4 + nalSizeOf frame ≤ frame.length
  · have hempty : firstUnit frame = [] := by
      rw [← List.length_eq_zero_iff, length_firstUnit hinside]
      omega
    have hrest : units (frame.drop (4 + nalSizeOf frame)) = [] := by
      rw [units, if_neg]
      rw [List.length_drop]
      omega
    cases stray with
    | true => rfl
    | false =>
      rw [target, if_neg Bool.false_ne_true, units, if_pos ⟨by omega, hinside⟩, hrest, ← firstUnit,
        hempty]
      rfl
  · exact target_outside hinside

theorem matches_head {kind kind' : Option ParameterKind} {data : List UInt8}
    {wanted : List (ParameterKind × List UInt8)} (hkind : ∀ k, kind' = some k → kind = some k)
    (hle : wanted.length ≤ items.length) :
    Matches (itemOf kind data ++ items) (itemOf kind' data ++ wanted) ↔
      (kind = none ∨ kind' ≠ none ∧ data.length < 2 ^ 16) ∧ Matches items wanted := by
  cases kind' with
  | some k =>
    rw [hkind k rfl]
    simp only [itemOf, List.singleton_append, matches_cons]
    simp
  | none =>
    cases kind with
    | none => simp [itemOf]
    | some k =>
      refine iff_of_false ?_ (by simp)
      intro h
      have hlength := h.length_eq
      simp only [itemOf, List.singleton_append, List.nil_append, List.length_cons] at hlength
      omega

theorem length_target_le (h : walked frame = some items) :
    (target stray frame).length ≤ items.length := by
  induction hn : frame.length using Nat.strong_induction_on generalizing frame items with
  | h n ih =>
    subst hn
    by_cases hlen : frame.length ≤ 4
    · rw [target_short hlen]
      exact Nat.zero_le _
    · by_cases hinside : 4 + nalSizeOf frame ≤ frame.length
      · rw [walked, if_neg hlen, if_pos hinside] at h
        obtain ⟨rest, hrest, rfl⟩ := Option.map_eq_some_iff.1 h
        have hle := ih _ (by rw [List.length_drop]; omega) hrest rfl
        rw [target_inside (by omega) hinside, List.length_append, List.length_append]
        refine Nat.add_le_add ?_ hle
        cases hkind : targetKind stray frame with
        | none => exact Nat.zero_le _
        | some kind =>
          rw [targetKind_eq (by omega) hkind]
          exact Nat.le_refl 1
      · rw [target_outside hinside]
        exact Nat.zero_le _

theorem clean_iff : (∃ items, walked frame = some items ∧ Matches items (target stray frame)) ↔
    Clean stray frame := by
  induction hn : frame.length using Nat.strong_induction_on generalizing frame stray with
  | h n ih =>
    subst hn
    rw [Clean]
    by_cases hlen : frame.length ≤ 4
    · rw [if_pos hlen, walked, if_pos hlen, target_short hlen]
      exact iff_of_true ⟨[], rfl, matches_nil.2 rfl⟩ trivial
    · rw [if_neg hlen, walked, if_neg hlen]
      by_cases hinside : 4 + nalSizeOf frame ≤ frame.length
      · rw [if_pos hinside, if_pos hinside, keeps_iff (by omega) hinside,
          ← @ih _ (by rw [List.length_drop]; omega) stray _ rfl, target_inside (by omega) hinside]
        have hhead {rest : List (ParameterKind × List UInt8)}
            (hrest : walked (frame.drop (4 + nalSizeOf frame)) = some rest) :=
          @matches_head rest (kindOf (firstOf frame)) (targetKind stray frame) (firstUnit frame)
            (target stray (frame.drop (4 + nalSizeOf frame)))
            (fun k hk => targetKind_eq (by omega) hk) (length_target_le hrest)
        constructor
        · rintro ⟨items, hitems, hmatches⟩
          obtain ⟨rest, hrest, rfl⟩ := Option.map_eq_some_iff.1 hitems
          obtain ⟨hkeeps, hrest'⟩ := (hhead hrest).1 hmatches
          exact ⟨hkeeps, rest, hrest, hrest'⟩
        · rintro ⟨hkeeps, rest, hrest, hrest'⟩
          exact ⟨_, by rw [hrest]; rfl, (hhead hrest).2 ⟨hkeeps, hrest'⟩⟩
      · rw [if_neg hinside, if_neg hinside, target_outside hinside]
        split
        · have hlt := nalSizeOf_lt frame
          rw [← @ih _ (by rw [List.length_drop]; omega) true _ rfl]
          cases kindOf (firstOf frame) with
          | none =>
            rw [if_pos rfl, and_iff_right rfl]
            rfl
          | some kind => simp
        · simp

end Clean

/-- The walk over a frame ends, reads nothing outside it and adds the units of each kind if and only
if the frame is clean and a `BYTE` counts the sets. -/
theorem addsParameters_iff {frame : List UInt8} (hframe : frame.length < 2 ^ 32)
    (d : AVCDescriptor) :
    (∃ fuel d', addParametersFromFrame frame fuel 0 frame.length d = some d' ∧ Adds frame d d') ↔
      Clean false frame ∧
        ∀ kind, (d.setsOf kind).data.length + (unitsOf kind frame).length < 2 ^ 8 := by
  have hadds (items : List (ParameterKind × List UInt8)) : Adds frame d (d.addAll items) ↔
      Matches items (target false frame) ∧
        ∀ kind, (d.setsOf kind).data.length + (unitsOf kind frame).length < 2 ^ 8 := by
    have hsets (kind : ParameterKind) : ((d.addAll items).setsOf kind).sets =
        (d.setsOf kind).sets ++ unitsOf kind frame ↔
          Full (ofKind kind items) (ofKind kind (target false frame)) := by
      rw [ParameterSets.sets, data_addAll, List.map_append, ParameterSets.sets,
        List.append_cancel_left_eq, Full, target, if_neg Bool.false_ne_true, ofKind_wanted]
      rfl
    have hcount (kind : ParameterKind)
        (h : Full (ofKind kind items) (ofKind kind (target false frame))) :
        ((d.addAll items).setsOf kind).num = ((d.addAll items).setsOf kind).data.length ↔
          (d.setsOf kind).data.length + (unitsOf kind frame).length < 2 ^ 8 := by
      have hlength := congrArg List.length h
      rw [List.length_map, target, if_neg Bool.false_ne_true, ofKind_wanted, ← unitsOf] at hlength
      rw [ParameterSets.num_eq, data_addAll, List.length_append, hlength]
      omega
    constructor
    · intro h
      have hmatches (kind : ParameterKind) := (hsets kind).1 (h kind).1
      exact ⟨hmatches, fun kind => (hcount kind (hmatches kind)).1 (h kind).2⟩
    · rintro ⟨hmatches, hlt⟩ kind
      exact ⟨(hsets kind).2 (hmatches kind), (hcount kind (hmatches kind)).2 (hlt kind)⟩
  have hwalk (d' : AVCDescriptor) := @walk_iff frame 0 d d' hframe (Nat.zero_le _)
  rw [← clean_iff]
  constructor
  · rintro ⟨fuel, d', hd', hlaw⟩
    obtain ⟨items, hitems, rfl⟩ := (hwalk d').1 ⟨fuel, hd'⟩
    obtain ⟨hmatches, hlt⟩ := (hadds items).1 hlaw
    exact ⟨⟨items, hitems, hmatches⟩, hlt⟩
  · rintro ⟨⟨items, hitems, hmatches⟩, hlt⟩
    obtain ⟨fuel, hfuel⟩ := (hwalk _).2 ⟨items, hitems, rfl⟩
    exact ⟨fuel, _, hfuel, (hadds items).2 ⟨hmatches, hlt⟩⟩

/-- A parameter set of each kind and a slice. -/
def threeUnits : List UInt8 := [0, 0, 0, 2, 0x67, 66, 0, 0, 0, 1, 0x68, 0, 0, 0, 2, 0x65, 1]

/-- A descriptor without parameter sets. -/
def noSets : AVCDescriptor := ⟨1, 66, 0, 30, 3, .clear, .clear⟩

theorem threeUnits_added : ∃ fuel d',
    addParametersFromFrame threeUnits fuel 0 threeUnits.length noSets = some d' ∧
      Adds threeUnits noSets d' := by
  refine (addsParameters_iff (by decide) noSets).2 ⟨?_, ?_⟩
  · simp [Clean, Keeps, threeUnits, nalSizeOf, firstOf, kindOf, get4, get2, get1]
  · intro kind
    cases kind <;>
      simp [unitsOf, units, unitKind, threeUnits, nalSizeOf, get4, get2, get1, noSets, setsOf,
        ParameterSets.clear]

/-- A unit of type 23. -/
def typeOfBothSlices : List UInt8 := [0, 0, 0, 1, 0x17]

/-- It is taken for a parameter set. -/
theorem not_added_typeOfBothSlices : ¬∃ fuel d',
    addParametersFromFrame typeOfBothSlices fuel 0 typeOfBothSlices.length noSets = some d' ∧
      Adds typeOfBothSlices noSets d' := by
  have hunits : unitsOf .sequence typeOfBothSlices = [] := by
    simp [unitsOf, units, unitKind, typeOfBothSlices, nalSizeOf, get4, get2, get1]
  rintro ⟨fuel, d', hd', hadds⟩
  obtain ⟨hsets, -⟩ := hadds .sequence
  rw [hunits] at hsets
  have hstep (fuel : Nat) : addParametersFromFrame typeOfBothSlices (fuel + 1) 0
      typeOfBothSlices.length noSets =
        addParametersFromFrame typeOfBothSlices fuel 5 0 (noSets.addSet [0x17] .sequence) := by
    rw [addParametersFromFrame]
    simp [typeOfBothSlices, addNal, kindOf, slice, get4, get2, get1]
  rcases fuel with _ | _ | fuel
  · cases hd'
  · rw [hstep] at hd'
    cases hd'
  · rw [hstep, addParametersFromFrame, if_neg (by omega)] at hd'
    cases hd'
    cases hsets

end AVCDescriptor

end McuMediaServer
