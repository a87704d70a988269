import McuMediaServer.Base.Run
import McuMediaServer.Base.OrderedMap
import McuMediaServer.Amf.Utf8

/-!
# The registry of conferences

`MCU` keeps its conferences by identifier and by tag, and counts the references its clients hold of
each. A conference goes in the steps of `DeleteConference`: it is disabled and loses its tag, the
call waits until the last reference is released, takes it out of the list, and destroys it. The
steps of several calls interleave with those of the other functions (`Op`); what a function does
while it holds the lock of the list is one step.

The count is right and a conference is destroyed once and when nobody holds it (`Inv`), as long as
clients release only what they hold. The two maps agree as long as no conference is created with
the tag of one that is enabled: a tag belongs to the last conference created with it, and goes with
the first of them that is deleted (`MCU.registryRight_iff`).
-/

namespace McuMediaServer

open Std
open Amf (WString)

/-- How far the call that deletes a conference has come. -/
inductive Removal
  | none
  | waiting
  | locked
  | erased
  | destroyed
  deriving DecidableEq

/-- A conference in the list of the MCU, `tag` being that of the conference and `cont` the count of
`Use`. Reference: `MCU::ConferenceEntry` (`mcu.h:66`). -/
structure ConferenceEntry where
  id : Int32
  tag : WString
  queueId : Int32
  enabled : Bool := true
  cont : Int := 0
  removal : Removal := .none
  deriving DecidableEq

/-- The MCU, with all the entries it ever made, which the list points to. `refs` are the pointers
its clients have got and not given back, `destroyed` the conferences that were deleted. Reference:
`MCU` (`mcu.h:79`). -/
structure MCU where
  maxId : Int32
  conferences : TreeMap Int32 Nat := ∅
  tags : TreeMap WString Int32 := ∅
  entries : List ConferenceEntry := []
  refs : List Nat := []
  destroyed : List Nat := []

namespace MCU

/-- The identifiers start from the time. Reference: `MCU::Init` (`mcu.cpp:36`). -/
def init (sec : Nat) : MCU :=
  { maxId := Int32.ofNat (sec % 0x8000 * 0x10000) }

section Functions

variable (s : MCU)

/-- Change the entry a pointer points to. -/
def modify (p : Nat) (f : ConferenceEntry → ConferenceEntry) : MCU :=
  { s with entries := s.entries.modify p f }

/-- The entry listed under an identifier, with the pointer to it. -/
def find (id : Int32) : Option (Nat × ConferenceEntry) :=
  s.conferences[id]?.bind fun p => s.entries[p]?.map fun entry => (p, entry)

/-- Reference: `MCU::CreateConference` (`mcu.cpp:140`). -/
def createConference (tag : WString) (queueId : Int32) : MCU × Int32 :=
  let confId := s.maxId
  let entry : ConferenceEntry := { id := confId, tag, queueId }
  ({ s with
      maxId := s.maxId + 1
      entries := s.entries ++ [entry]
      conferences := s.conferences.insert confId s.entries.length
      tags := s.tags.insert tag confId }, confId)

/-- Reference: `MCU::GetConferenceRef` (`mcu.cpp:190`). -/
def getConferenceRef (id : Int32) : MCU × Option Nat :=
  match s.find id with
  | none => (s, none)
  | some (p, entry) =>
    if !entry.enabled then (s, none)
    else
      ({ s.modify p fun entry => { entry with cont := entry.cont + 1 } with refs := p :: s.refs },
        some p)

/-- Reference: `MCU::GetConferenceId` (`mcu.cpp:237`). -/
def getConferenceId (tag : WString) : Int32 :=
  match s.tags[tag]? with
  | none => 0
  | some confId => confId

/-- A client gives a reference back. Once the call that deletes the conference has locked the
entry, the count cannot be changed and the call does not return. Reference:
`MCU::ReleaseConferenceRef` (`mcu.cpp:269`). -/
def releaseConferenceRef (id : Int32) : MCU × Option Bool :=
  match s.find id with
  | none => (s, some false)
  | some (p, entry) =>
    if entry.removal = .locked then (s, none)
    else
      ({ s.modify p fun entry => { entry with cont := entry.cont - 1 } with
          refs := s.refs.erase p }, some true)

/-- The conference is disabled and its tag removed; the call then goes on to wait, unless it
failed. Reference: `MCU::DeleteConference` (`mcu.cpp:306`). -/
def deleteConference (id : Int32) : MCU × Bool :=
  match s.find id with
  | none => (s, false)
  | some (p, entry) =>
    if !entry.enabled then (s, false)
    else
      ({ s.modify p fun entry => { entry with enabled := false, removal := .waiting } with
          tags := s.tags.erase entry.tag }, true)

/-- The wait for the references is over. Reference: `mcu.cpp:350`. -/
def lockUnused (p : Nat) : MCU :=
  match s.entries[p]? with
  | none => s
  | some entry =>
    if entry.removal = .waiting ∧ entry.cont = 0 then
      s.modify p fun entry => { entry with removal := .locked }
    else s

/-- The conference is taken out of the list. Reference: `mcu.cpp:359`. -/
def eraseConference (p : Nat) : MCU :=
  match s.entries[p]? with
  | none => s
  | some entry =>
    if entry.removal = .locked then
      { s.modify p fun entry => { entry with removal := .erased } with
        conferences := s.conferences.erase entry.id }
    else s

/-- The conference is ended and deleted. Reference: `mcu.cpp:365`. -/
def destroyConference (p : Nat) : MCU :=
  match s.entries[p]? with
  | none => s
  | some entry =>
    if entry.removal = .erased then
      { s.modify p fun entry => { entry with removal := .destroyed } with
        destroyed := p :: s.destroyed }
    else s

end Functions

/-- What can happen in the MCU: the calls of its clients, and the later steps of a call that
deletes a conference. -/
inductive Op
  | createConference (tag : WString) (queueId : Int32)
  | getConferenceRef (id : Int32)
  | getConferenceId (tag : WString)
  | releaseConferenceRef (id : Int32)
  | deleteConference (id : Int32)
  | lockUnused (p : Nat)
  | eraseConference (p : Nat)
  | destroyConference (p : Nat)

/-- One step. A lookup by tag changes nothing. -/
def step (s : MCU) : Op → MCU
  | .createConference tag queueId => (s.createConference tag queueId).1
  | .getConferenceRef id => (s.getConferenceRef id).1
  | .getConferenceId _ => s
  | .releaseConferenceRef id => (s.releaseConferenceRef id).1
  | .deleteConference id => (s.deleteConference id).1
  | .lockUnused p => s.lockUnused p
  | .eraseConference p => s.eraseConference p
  | .destroyConference p => s.destroyConference p

/-- The two maps of the registry agree. -/
structure Indexed (s : MCU) : Prop where
  /-- The tags are those of the enabled conferences, each with its identifier. -/
  tags : ∀ tag id, s.tags[tag]? = some id ↔
    ∃ (p : Nat) (entry : ConferenceEntry), s.entries[p]? = some entry ∧
      entry.enabled = true ∧ entry.id = id ∧ entry.tag = tag
  /-- No identifier was given twice. -/
  ids : ∀ (p q : Nat) (entry entry' : ConferenceEntry), s.entries[p]? = some entry →
    s.entries[q]? = some entry' → entry.id = entry'.id → p = q

/-- The registry is consistent, and conferences are destroyed as they should. -/
structure Right (s : MCU) : Prop extends Indexed s where
  /-- No conference was destroyed twice. -/
  once : s.destroyed.Nodup
  /-- Nobody holds a conference that was destroyed. -/
  released : ∀ p ∈ s.destroyed, p ∉ s.refs
  /-- Nothing is destroyed that was not deleted. -/
  enabled : ∀ (p : Nat) (entry : ConferenceEntry), s.entries[p]? = some entry → entry.enabled = true → p ∉ s.destroyed
  /-- A deleted conference nobody holds any more is destroyed by the call that deletes it. -/
  completes : ∀ (p : Nat) (entry : ConferenceEntry), s.entries[p]? = some entry →
    entry.enabled = false → p ∉ s.refs →
    p ∈ (StepRun.run step s [.lockUnused p, .eraseConference p, .destroyConference p]).destroyed

/-- A reference that is released is held: the count of the conference is positive. -/
def ReleasesHeld (s : MCU) (op : Op) : Prop :=
  ∀ id p entry, op = .releaseConferenceRef id → s.find id = some (p, entry) → 0 < entry.cont

/-- A conference is created with a tag that no enabled conference has, and the counter of
identifiers has not come round to one that was given. -/
def CreatesFresh (s : MCU) (op : Op) : Prop :=
  ∀ tag queueId, op = .createConference tag queueId →
    (∀ entry ∈ s.entries, entry.enabled = true → entry.tag ≠ tag) ∧
      ∀ entry ∈ s.entries, entry.id ≠ s.maxId

/-- What a run keeps of the list, the counts and the calls that delete. -/
structure Inv (s : MCU) : Prop where
  enabled : ∀ (p : Nat) (entry : ConferenceEntry), s.entries[p]? = some entry →
    (entry.enabled = true ↔ entry.removal = .none)
  conferences : ∀ id p, s.conferences[id]? = some p ↔
    ∃ entry : ConferenceEntry, s.entries[p]? = some entry ∧ entry.id = id ∧ entry.removal ≠ .erased ∧
      entry.removal ≠ .destroyed
  cont : ∀ (p : Nat) (entry : ConferenceEntry), s.entries[p]? = some entry → entry.cont = s.refs.count p
  unused : ∀ (p : Nat) (entry : ConferenceEntry), s.entries[p]? = some entry → entry.removal ≠ .none →
    entry.removal ≠ .waiting → p ∉ s.refs
  refs : ∀ p ∈ s.refs, p < s.entries.length
  destroyed : ∀ p, p ∈ s.destroyed ↔
    ∃ entry : ConferenceEntry, s.entries[p]? = some entry ∧ entry.removal = .destroyed
  nodup : s.destroyed.Nodup

theorem find_eq_some {s : MCU} {id : Int32} {p : Nat} {entry : ConferenceEntry} :
    s.find id = some (p, entry) ↔ s.conferences[id]? = some p ∧ s.entries[p]? = some entry := by
  simp [find, Option.bind_eq_some_iff]

@[simp]
theorem getElem?_modify (s : MCU) (p q : Nat) (f : ConferenceEntry → ConferenceEntry) :
    (s.modify p f).entries[q]? = if p = q then s.entries[q]?.map f else s.entries[q]? := by
  rw [modify, List.getElem?_modify]
  split <;> simp

@[simp]
theorem length_modify (s : MCU) (p : Nat) (f : ConferenceEntry → ConferenceEntry) :
    (s.modify p f).entries.length = s.entries.length :=
  List.length_modify ..

@[simp]
theorem conferences_modify (s : MCU) (p : Nat) (f : ConferenceEntry → ConferenceEntry) :
    (s.modify p f).conferences = s.conferences := rfl

@[simp]
theorem tags_modify (s : MCU) (p : Nat) (f : ConferenceEntry → ConferenceEntry) :
    (s.modify p f).tags = s.tags := rfl

@[simp]
theorem destroyed_modify (s : MCU) (p : Nat) (f : ConferenceEntry → ConferenceEntry) :
    (s.modify p f).destroyed = s.destroyed := rfl

@[simp]
theorem refs_modify (s : MCU) (p : Nat) (f : ConferenceEntry → ConferenceEntry) :
    (s.modify p f).refs = s.refs := rfl

theorem getElem?_append_entry {entries : List ConferenceEntry} {new entry : ConferenceEntry}
    {q : Nat} : (entries ++ [new])[q]? = some entry ↔
      entries[q]? = some entry ∨ q = entries.length ∧ entry = new := by
  rw [List.getElem?_append]
  split
  case isTrue => grind
  case isFalse h => grind

section Steps

variable {s : MCU} (hI : s.Inv) {p : Nat} {entry : ConferenceEntry}

include hI

theorem Inv.getConferenceRef (id : Int32) : (s.getConferenceRef id).1.Inv := by
  rw [MCU.getConferenceRef]
  split
  case h_1 => exact hI
  case h_2 p entry hfind =>
    obtain ⟨-, hentry⟩ := find_eq_some.1 hfind
    split
    case isTrue => exact hI
    case isFalse henabled =>
      obtain ⟨h1, h2, h3, h4, h5, h6, h7⟩ := hI
      refine ⟨?_, ?_, ?_, ?_, ?_, ?_, h7⟩ <;>
        simp only [getElem?_modify, conferences_modify, length_modify, destroyed_modify] <;>
        grind

theorem Inv.releaseConferenceRef (id : Int32)
    (hheld : ∀ p entry, s.find id = some (p, entry) → 0 < entry.cont) :
    (s.releaseConferenceRef id).1.Inv := by
  rw [MCU.releaseConferenceRef]
  split
  case h_1 => exact hI
  case h_2 p entry hfind =>
    have hpos := hheld p entry hfind
    obtain ⟨-, hentry⟩ := find_eq_some.1 hfind
    split
    case isTrue => exact hI
    case isFalse hlocked =>
      obtain ⟨h1, h2, h3, h4, h5, h6, h7⟩ := hI
      have hmem : p ∈ s.refs := List.count_pos_iff.1 (by have := h3 p entry hentry; omega)
      refine ⟨?_, ?_, ?_, ?_, ?_, ?_, h7⟩ <;>
        simp only [getElem?_modify, conferences_modify, length_modify, destroyed_modify] <;>
        grind [List.mem_of_mem_erase]

theorem Inv.deleteConference (id : Int32) : (s.deleteConference id).1.Inv := by
  rw [MCU.deleteConference]
  split
  case h_1 => exact hI
  case h_2 p entry hfind =>
    obtain ⟨-, hentry⟩ := find_eq_some.1 hfind
    split
    case isTrue => exact hI
    case isFalse henabled =>
      obtain ⟨h1, h2, h3, h4, h5, h6, h7⟩ := hI
      refine ⟨?_, ?_, ?_, ?_, ?_, ?_, h7⟩ <;>
        simp only [getElem?_modify, conferences_modify, length_modify, destroyed_modify,
          refs_modify] <;>
        grind

theorem Inv.lockUnused (p : Nat) : (s.lockUnused p).Inv := by
  rw [MCU.lockUnused]
  split
  case h_1 => exact hI
  case h_2 entry hentry =>
    split
    case isFalse => exact hI
    case isTrue hwait =>
      obtain ⟨h1, h2, h3, h4, h5, h6, h7⟩ := hI
      have hmem : p ∉ s.refs := List.count_eq_zero.1 (by have := h3 p entry hentry; omega)
      refine ⟨?_, ?_, ?_, ?_, ?_, ?_, h7⟩ <;>
        simp only [getElem?_modify, conferences_modify, length_modify, destroyed_modify,
          refs_modify] <;>
        grind

theorem Inv.eraseConference (p : Nat)
    (hids : ∀ (p q : Nat) (entry entry' : ConferenceEntry), s.entries[p]? = some entry →
      s.entries[q]? = some entry' → entry.id = entry'.id → p = q) :
    (s.eraseConference p).Inv := by
  rw [MCU.eraseConference]
  split
  case h_1 => exact hI
  case h_2 entry hentry =>
    split
    case isFalse => exact hI
    case isTrue hlocked =>
      obtain ⟨h1, h2, h3, h4, h5, h6, h7⟩ := hI
      refine ⟨?_, ?_, ?_, ?_, ?_, ?_, h7⟩ <;>
        simp only [getElem?_modify, OrderedMap.getElem?_erase_ite] <;> grind [modify]

theorem Inv.destroyConference (p : Nat) : (s.destroyConference p).Inv := by
  rw [MCU.destroyConference]
  split
  case h_1 => exact hI
  case h_2 entry hentry =>
    split
    case isFalse => exact hI
    case isTrue herased =>
      obtain ⟨h1, h2, h3, h4, h5, h6, h7⟩ := hI
      have hnew : p ∉ s.destroyed := by grind
      refine ⟨?_, ?_, ?_, ?_, ?_, ?_, h7.cons hnew⟩ <;> simp only [getElem?_modify] <;>
        grind [modify]

theorem Inv.createConference (tag : WString) (queueId : Int32)
    (hfresh : ∀ entry ∈ s.entries, entry.id ≠ s.maxId) :
    (s.createConference tag queueId).1.Inv := by
  rw [MCU.createConference]
  obtain ⟨h1, h2, h3, h4, h5, h6, h7⟩ := hI
  have hcount : s.refs.count s.entries.length = 0 :=
    List.count_eq_zero.2 fun hmem => Nat.lt_irrefl _ (h5 _ hmem)
  have hids : ∀ (p : Nat) (entry : ConferenceEntry), s.entries[p]? = some entry →
      entry.id ≠ s.maxId :=
    fun p entry hentry => hfresh entry (List.mem_of_getElem? hentry)
  refine ⟨?_, ?_, ?_, ?_, ?_, ?_, h7⟩ <;>
    simp only [OrderedMap.getElem?_insert_ite, getElem?_append_entry]
  · grind
  · intro id p
    split
    case isTrue hid =>
      constructor
      · rintro ⟨⟩
        exact ⟨_, .inr ⟨rfl, rfl⟩, hid.symm, nofun, nofun⟩
      · rintro ⟨entry, hentry | ⟨rfl, rfl⟩, rfl, -, -⟩
        · exact absurd hid (hids p entry hentry)
        · rfl
    case isFalse hid =>
      rw [h2]
      constructor
      · rintro ⟨entry, hentry, h⟩
        exact ⟨entry, .inl hentry, h⟩
      · rintro ⟨entry, hentry | ⟨rfl, rfl⟩, h⟩
        · exact ⟨entry, hentry, h⟩
        · exact absurd h.1.symm hid
  · grind
  · grind
  · grind
  · grind

end Steps

theorem inv_init (sec : Nat) : (init sec).Inv := by
  refine ⟨nofun, fun id p => ?_, nofun, nofun, nofun, fun p => ?_, .nil⟩
  · refine iff_of_false ?_ (by rintro ⟨_, h, -⟩; cases h)
    simp [init]
  · exact iff_of_false nofun (by rintro ⟨_, h, -⟩; cases h)

variable {f : ConferenceEntry → ConferenceEntry}

theorem exists_of_getElem?_modify {s : MCU} {p q : Nat}
    {entry : ConferenceEntry} (h : (s.modify p f).entries[q]? = some entry) :
    ∃ old, s.entries[q]? = some old ∧ (p ≠ q ∧ entry = old ∨ p = q ∧ entry = f old) := by
  rw [getElem?_modify] at h
  split at h
  case isTrue hpq =>
    obtain ⟨old, hold, rfl⟩ := Option.map_eq_some_iff.1 h
    exact ⟨old, hold, .inr ⟨hpq, rfl⟩⟩
  case isFalse hpq => exact ⟨entry, h, .inl ⟨hpq, rfl⟩⟩

theorem ids_modify {s : MCU} {p : Nat}
    (hids : ∀ (p q : Nat) (entry entry' : ConferenceEntry), s.entries[p]? = some entry →
      s.entries[q]? = some entry' → entry.id = entry'.id → p = q)
    (hf : ∀ entry, (f entry).id = entry.id) (q r : Nat) (entry entry' : ConferenceEntry)
    (hentry : (s.modify p f).entries[q]? = some entry)
    (hentry' : (s.modify p f).entries[r]? = some entry') (h : entry.id = entry'.id) : q = r := by
  obtain ⟨old, hold, hfrom⟩ := exists_of_getElem?_modify hentry
  obtain ⟨old', hold', hfrom'⟩ := exists_of_getElem?_modify hentry'
  have hid : entry.id = old.id := by rcases hfrom with ⟨-, rfl⟩ | ⟨-, rfl⟩ <;> [rfl; exact hf old]
  have hid' : entry'.id = old'.id := by
    rcases hfrom' with ⟨-, rfl⟩ | ⟨-, rfl⟩ <;> [rfl; exact hf old']
  exact hids q r old old' hold hold' (hid.symm.trans (h.trans hid'))

theorem Indexed.modify {s t : MCU} (h : s.Indexed) {p : Nat}
    (hentries : t.entries = (s.modify p f).entries) (htags : t.tags = s.tags)
    (hf : ∀ entry, (f entry).id = entry.id ∧ (f entry).tag = entry.tag ∧
      (f entry).enabled = entry.enabled) : t.Indexed := by
  constructor
  · intro tag id
    rw [htags, hentries, h.tags]
    constructor
    · rintro ⟨q, entry, hentry, henabled, hid, htag⟩
      by_cases hq : p = q
      · obtain ⟨hid', htag', henabled'⟩ := hf entry
        exact ⟨q, f entry, by simp [hq, hentry], henabled'.trans henabled, hid'.trans hid,
          htag'.trans htag⟩
      · exact ⟨q, entry, by simp [hq, hentry], henabled, hid, htag⟩
    · rintro ⟨q, entry, hentry, henabled, hid, htag⟩
      obtain ⟨old, hold, ⟨-, rfl⟩ | ⟨-, rfl⟩⟩ := exists_of_getElem?_modify hentry
      · exact ⟨q, entry, hold, henabled, hid, htag⟩
      · obtain ⟨hid', htag', henabled'⟩ := hf old
        exact ⟨q, old, hold, henabled'.symm.trans henabled, hid'.symm.trans hid,
          htag'.symm.trans htag⟩
  · rw [hentries]
    exact ids_modify h.ids fun entry => (hf entry).1

theorem Indexed.deleteConference {s : MCU} (h : s.Indexed) (id : Int32) :
    (s.deleteConference id).1.Indexed := by
  rw [MCU.deleteConference]
  split
  case h_1 => exact h
  case h_2 p entry hfind =>
    obtain ⟨-, hentry⟩ := find_eq_some.1 hfind
    split
    case isTrue => exact h
    case isFalse hdisabled =>
      have henabled : entry.enabled = true := by simpa using hdisabled
      constructor
      · intro tag id'
        simp only [OrderedMap.getElem?_erase_ite]
        split
        case isTrue htag =>
          refine iff_of_false nofun ?_
          rintro ⟨q, entry', hentry', henabled', hid', htag'⟩
          obtain ⟨old, hold, ⟨hpq, rfl⟩ | ⟨-, rfl⟩⟩ := exists_of_getElem?_modify hentry'
          · have hown := (h.tags tag entry.id).2 ⟨p, entry, hentry, henabled, rfl, htag.symm⟩
            have hother := (h.tags tag id').2 ⟨q, entry', hold, henabled', hid', htag'⟩
            rw [hown] at hother
            cases hother
            exact hpq (h.ids p q entry entry' hentry hold hid'.symm)
          · cases henabled'
        case isFalse htag =>
          rw [h.tags]
          constructor
          · rintro ⟨q, entry', hentry', henabled', hid', htag'⟩
            have hpq : p ≠ q := by
              rintro rfl
              rw [hentry] at hentry'
              cases hentry'
              exact htag htag'.symm
            exact ⟨q, entry', by simp [hpq, hentry'], henabled', hid', htag'⟩
          · rintro ⟨q, entry', hentry', henabled', hid', htag'⟩
            obtain ⟨old, hold, ⟨hpq, rfl⟩ | ⟨-, rfl⟩⟩ := exists_of_getElem?_modify hentry'
            · exact ⟨q, entry', hold, henabled', hid', htag'⟩
            · cases henabled'
      · exact ids_modify h.ids fun entry => rfl

theorem indexed_createConference_iff {s : MCU} (h : s.Indexed) (tag : WString) (queueId : Int32) :
    (s.createConference tag queueId).1.Indexed ↔
      (∀ entry ∈ s.entries, entry.enabled = true → entry.tag ≠ tag) ∧
        ∀ entry ∈ s.entries, entry.id ≠ s.maxId := by
  have hnew : (s.createConference tag queueId).1.entries[s.entries.length]? =
      some { id := s.maxId, tag, queueId } :=
    getElem?_append_entry.2 (.inr ⟨rfl, rfl⟩)
  have hlt : ∀ p entry, s.entries[p]? = some entry → p ≠ s.entries.length :=
    fun p entry hentry heq => Nat.lt_irrefl _ (heq ▸ (List.getElem?_eq_some_iff.1 hentry).1)
  constructor
  · intro h'
    have hids : ∀ entry ∈ s.entries, entry.id ≠ s.maxId := by
      intro entry hmem hid
      obtain ⟨p, hentry⟩ := List.mem_iff_getElem?.1 hmem
      exact hlt p entry hentry (h'.ids _ _ _ _ (getElem?_append_entry.2 (.inl hentry)) hnew hid)
    refine ⟨fun entry hmem henabled htag => hids entry hmem ?_, hids⟩
    obtain ⟨p, hentry⟩ := List.mem_iff_getElem?.1 hmem
    have hold := (h'.tags tag entry.id).2
      ⟨p, entry, getElem?_append_entry.2 (.inl hentry), henabled, rfl, htag⟩
    have hown := (h'.tags tag s.maxId).2 ⟨_, _, hnew, rfl, rfl, rfl⟩
    exact Option.some.inj (hold.symm.trans hown)
  · rintro ⟨htags, hids⟩
    constructor
    · intro tag' id
      simp only [createConference, OrderedMap.getElem?_insert_ite, getElem?_append_entry]
      split
      case isTrue htag =>
        subst htag
        constructor
        · rintro ⟨⟩
          exact ⟨_, _, .inr ⟨rfl, rfl⟩, rfl, rfl, rfl⟩
        · rintro ⟨p, entry, hentry | ⟨-, rfl⟩, henabled, hid, htag⟩
          · exact absurd htag (htags entry (List.mem_of_getElem? hentry) henabled)
          · exact congrArg some hid
      case isFalse htag =>
        rw [h.tags]
        constructor
        · rintro ⟨p, entry, hentry, hrest⟩
          exact ⟨p, entry, .inl hentry, hrest⟩
        · rintro ⟨p, entry, hentry | ⟨-, rfl⟩, hrest⟩
          · exact ⟨p, entry, hentry, hrest⟩
          · exact absurd hrest.2.2.symm htag
    · intro p q entry entry' hentry hentry' hid
      rcases getElem?_append_entry.1 hentry with hentry | ⟨rfl, rfl⟩ <;>
        rcases getElem?_append_entry.1 hentry' with hentry' | ⟨rfl, rfl⟩
      · exact h.ids p q entry entry' hentry hentry' hid
      · exact absurd hid (hids entry (List.mem_of_getElem? hentry))
      · exact absurd hid.symm (hids entry' (List.mem_of_getElem? hentry'))
      · rfl

theorem Indexed.step {s : MCU} (h : s.Indexed) {op : Op}
    (hop : ∀ tag queueId, op ≠ .createConference tag queueId) : (s.step op).Indexed := by
  cases op with
  | createConference tag queueId => exact absurd rfl (hop tag queueId)
  | getConferenceRef id =>
    rw [MCU.step, MCU.getConferenceRef]
    split <;> [exact h; split] <;> [exact h; exact h.modify rfl rfl fun _ => ⟨rfl, rfl, rfl⟩]
  | getConferenceId tag => exact h
  | releaseConferenceRef id =>
    rw [MCU.step, MCU.releaseConferenceRef]
    split <;> [exact h; split] <;> [exact h; exact h.modify rfl rfl fun _ => ⟨rfl, rfl, rfl⟩]
  | deleteConference id => exact h.deleteConference id
  | lockUnused p =>
    rw [MCU.step, MCU.lockUnused]
    split <;> [exact h; split] <;> [exact h.modify rfl rfl fun _ => ⟨rfl, rfl, rfl⟩; exact h]
  | eraseConference p =>
    rw [MCU.step, MCU.eraseConference]
    split <;> [exact h; split] <;> [exact h.modify rfl rfl fun _ => ⟨rfl, rfl, rfl⟩; exact h]
  | destroyConference p =>
    rw [MCU.step, MCU.destroyConference]
    split <;> [exact h; split] <;> [exact h.modify rfl rfl fun _ => ⟨rfl, rfl, rfl⟩; exact h]

theorem Inv.step {s : MCU} (hI : s.Inv) (h : s.Indexed) {op : Op} (hheld : ReleasesHeld s op)
    (hfresh : CreatesFresh s op) : (s.step op).Inv := by
  cases op with
  | createConference tag queueId => exact hI.createConference tag queueId (hfresh tag queueId rfl).2
  | getConferenceRef id => exact hI.getConferenceRef id
  | getConferenceId tag => exact hI
  | releaseConferenceRef id =>
    exact hI.releaseConferenceRef id fun p entry hfind => hheld id p entry rfl hfind
  | deleteConference id => exact hI.deleteConference id
  | lockUnused p => exact hI.lockUnused p
  | eraseConference p => exact hI.eraseConference p h.ids
  | destroyConference p => exact hI.destroyConference p

theorem Inv.completes {s : MCU} (hI : s.Inv) {p : Nat} {entry : ConferenceEntry}
    (hentry : s.entries[p]? = some entry) (hdisabled : entry.enabled = false) (hp : p ∉ s.refs) :
    p ∈ (StepRun.run MCU.step s
      [.lockUnused p, .eraseConference p, .destroyConference p]).destroyed := by
  have hcont : entry.cont = 0 := by
    rw [hI.cont p entry hentry, List.count_eq_zero.2 hp]
    rfl
  simp only [StepRun.run_cons, StepRun.run_nil, MCU.step]
  cases hremoval : entry.removal with
  | none =>
    rw [(hI.enabled p entry hentry).2 hremoval] at hdisabled
    cases hdisabled
  | waiting | locked | erased =>
    simp [MCU.lockUnused, MCU.eraseConference, MCU.destroyConference, hentry, hremoval, hcont]
  | destroyed =>
    have hp := (hI.destroyed p).2 ⟨entry, hentry, hremoval⟩
    simp [MCU.lockUnused, MCU.eraseConference, MCU.destroyConference, hentry, hremoval, hp]

theorem Inv.right {s : MCU} (hI : s.Inv) (h : s.Indexed) : s.Right := by
  refine ⟨h, hI.nodup, fun p hp => ?_, fun p entry hentry henabled hp => ?_,
    fun p entry hentry hdisabled hp => hI.completes hentry hdisabled hp⟩
  · obtain ⟨entry, hentry, hdestroyed⟩ := (hI.destroyed p).1 hp
    exact hI.unused p entry hentry (hdestroyed ▸ nofun) (hdestroyed ▸ nofun)
  · obtain ⟨entry', hentry', hdestroyed⟩ := (hI.destroyed p).1 hp
    rw [hentry] at hentry'
    cases hentry'
    rw [(hI.enabled p entry hentry).1 henabled] at hdestroyed
    cases hdestroyed

theorem indexed_init (sec : Nat) : (init sec).Indexed := by
  refine ⟨fun tag id => ?_, nofun⟩
  refine iff_of_false ?_ (by rintro ⟨_, _, h, -⟩; cases h)
  simp [init]

theorem Inv.right_step_iff {s : MCU} (hI : s.Inv) (h : s.Right) {op : Op}
    (hheld : ReleasesHeld s op) : (s.step op).Right ↔ CreatesFresh s op := by
  constructor
  · rintro h' tag queueId rfl
    exact (indexed_createConference_iff h.toIndexed tag queueId).1 h'.toIndexed
  · intro hfresh
    refine (hI.step h.toIndexed hheld hfresh).right ?_
    by_cases hop : ∃ tag queueId, op = .createConference tag queueId
    · obtain ⟨tag, queueId, rfl⟩ := hop
      exact (indexed_createConference_iff h.toIndexed tag queueId).2 (hfresh tag queueId rfl)
    · exact h.toIndexed.step fun tag queueId hop' => hop ⟨tag, queueId, hop'⟩

/-- **Consistency of the registry.** In a run in which clients release only references they hold,
the registry is consistent in every state exactly when no conference is created with the tag of an
enabled one, nor after the counter of identifiers has come round to one that was given. -/
theorem registryRight_iff (sec : Nat) (ops : List Op)
    (hheld : StepRun.Meets step ReleasesHeld (init sec) ops) :
    (∀ before, before <+: ops → (StepRun.run step (init sec) before).Right) ↔
      StepRun.Meets step CreatesFresh (init sec) ops :=
  StepRun.forall_prefix_iff_meets_within (I := fun _ s => s.Inv) (P := fun _ s => s.Right)
    (inv_init sec) ((inv_init sec).right (indexed_init sec))
    (fun _ _ hI h hheld hfresh => hI.step h.toIndexed hheld hfresh)
    (fun _ _ hI h hheld => hI.right_step_iff h hheld) ops hheld

/-- A conference that is created, held, deleted while it is held, released and destroyed. -/
theorem registryRight_deletedWhileHeld :
    (StepRun.run step (init 0) [.createConference [0x74] 0, .getConferenceRef 0,
      .deleteConference 0, .releaseConferenceRef 0, .lockUnused 0, .eraseConference 0,
      .destroyConference 0]).Right := by
  refine (registryRight_iff 0 _ ?_).2 ?_ _ (List.prefix_refl _)
  · refine ⟨nofun, nofun, nofun, ?_, nofun, nofun, nofun, trivial⟩
    rintro id p entry ⟨⟩ hfind
    have hheld : (StepRun.run step (init 0) [.createConference [0x74] 0, .getConferenceRef 0,
      .deleteConference 0]).find 0 = some (0, ⟨0, [0x74], 0, false, 1, .waiting⟩) := by decide
    cases hheld.symm.trans hfind
    decide
  · refine ⟨?_, nofun, nofun, nofun, nofun, nofun, nofun, trivial⟩
    rintro tag queueId ⟨⟩
    exact ⟨nofun, nofun⟩

/-- Two conferences are created with one tag. -/
theorem not_registryRight_sameTag :
    ¬ ∀ before, before <+: [Op.createConference [0x74] 0, Op.createConference [0x74] 0] →
      (StepRun.run step (init 0) before).Right := by
  intro h
  have htags := (h _ (List.prefix_refl _)).tags [0x74]
  have hfirst := (htags 0).2 ⟨0, ⟨0, [0x74], 0, true, 0, .none⟩, by decide, rfl, rfl, rfl⟩
  have hsecond := (htags 1).2 ⟨1, ⟨1, [0x74], 0, true, 0, .none⟩, by decide, rfl, rfl, rfl⟩
  rw [hfirst] at hsecond
  revert hsecond
  decide

end MCU
end McuMediaServer
