import McuMediaServer.Audio.Mixer
import McuMediaServer.Base.Run
import McuMediaServer.Base.SortedMap

/-!
# The references to sidebars

A participant listens to a sidebar, by reference, and a sidebar has the ids of the participants that
are mixed in it. Participants and sidebars come and go independently, and what is deleted must not
be referred to any more. The id of a sidebar stands for its address: no id is given out twice.
-/

namespace McuMediaServer

namespace Audio

open SortedMap StepRun

variable {sidebar : Sidebar}

namespace Sidebar

/-- Reference: `sidebar.cpp:53`. -/
def addParticipant (sidebar : Sidebar) (id : Int) : Sidebar :=
  { sidebar with participants := sidebar.participants.insert id }

/-- Reference: `sidebar.cpp:58`. -/
def removeParticipant (sidebar : Sidebar) (id : Int) : Sidebar :=
  { sidebar with participants := sidebar.participants.filter (· ≠ id) }

@[simp] theorem mem_addParticipant {id id' : Int} :
    id' ∈ (sidebar.addParticipant id).participants ↔ id' = id ∨ id' ∈ sidebar.participants :=
  List.mem_insert_iff

@[simp] theorem mem_removeParticipant {id id' : Int} :
    id' ∈ (sidebar.removeParticipant id).participants ↔ id' ∈ sidebar.participants ∧ id' ≠ id := by
  simp [removeParticipant]

end Sidebar

/-- The participants and the sidebars of a mixer, with the sidebar that each participant is added
to. Reference: `audiomixer.h:76`. -/
structure Lists where
  audios : List (Int × AudioSource) := []
  sidebars : List (Int × Sidebar) := []
  numSidebars : Int := 0
  defaultSidebar : Option Int := none

namespace Lists

/-! ## Operations

What each returns is next to the lists it leaves; 0 is an error, except where a participant has been
deleted.
-/

/-- Reference: `audiomixer.cpp:638`. -/
def createSidebar (s : Lists) : Int × Lists :=
  (s.numSidebars, { s with
    sidebars := set s.numSidebars {} s.sidebars
    numSidebars := s.numSidebars + 1 })

/-- A mixer that has been started. Reference: `audiomixer.cpp:200`. -/
def init : Lists :=
  let created := createSidebar {}
  { created.2 with defaultSidebar := some created.1 }

/-- Reference: `audiomixer.cpp:289`. -/
def createMixer (s : Lists) (id : Int) : Int × Lists :=
  if (get? id s.audios).isSome then (0, s)
  else (1, { s with audios := set id {} s.audios })

/-- Set the sidebar of a participant, if there is such a sidebar. -/
def listen (audio : AudioSource) (sidebars : List (Int × Sidebar)) (sidebarId : Int) :
    AudioSource :=
  if (get? sidebarId sidebars).isSome then { audio with sidebar := some sidebarId } else audio

/-- The default sidebar is used without asking: nothing is left to say when it has been deleted.
Reference: `audiomixer.cpp:334`. -/
def initMixer (s : Lists) (id sidebarId : Int) : Option (Int × Lists) :=
  match get? id s.audios with
  | none => some (0, s)
  | some audio => do
    let default ← s.defaultSidebar
    let sidebar ← get? default s.sidebars
    return (1, { s with
      audios := set id (listen audio s.sidebars sidebarId) s.audios
      sidebars := set default (sidebar.addParticipant id) s.sidebars })

/-- Reference: `audiomixer.cpp:386`. -/
def endMixer (s : Lists) (id : Int) : Option (Int × Lists) :=
  match get? id s.audios with
  | none => some (0, s)
  | some audio => do
    let default ← s.defaultSidebar
    let _ ← get? default s.sidebars
    return (1, { s with
      audios := set id { audio with sidebar := none } s.audios
      sidebars := s.sidebars.map fun e => (e.1, e.2.removeParticipant id) })

/-- The participant stays in the sidebars. Reference: `audiomixer.cpp:433`. -/
def deleteMixer (s : Lists) (id : Int) : Int × Lists :=
  if (get? id s.audios).isSome then (0, { s with audios := s.audios.filter fun e => e.1 ≠ id })
  else (0, s)

/-- Reference: `audiomixer.cpp:527`. -/
def setMixerSidebar (s : Lists) (id sidebarId : Int) : Int × Lists :=
  match get? id s.audios with
  | none => (0, s)
  | some audio => (1, { s with audios := set id (listen audio s.sidebars sidebarId) s.audios })

/-- Whether there is such a participant is not asked. Reference: `audiomixer.cpp:571`. -/
def addSidebarParticipant (s : Lists) (sidebarId partId : Int) : Int × Lists :=
  match get? sidebarId s.sidebars with
  | none => (0, s)
  | some sidebar =>
    (1, { s with sidebars := set sidebarId (sidebar.addParticipant partId) s.sidebars })

/-- Reference: `audiomixer.cpp:604`. -/
def removeSidebarParticipant (s : Lists) (sidebarId partId : Int) : Int × Lists :=
  match get? sidebarId s.sidebars with
  | none => (0, s)
  | some sidebar =>
    (1, { s with sidebars := set sidebarId (sidebar.removeParticipant partId) s.sidebars })

/-- Reference: `audiomixer.cpp:670`. -/
def forget (sidebarId : Int) (audio : AudioSource) : AudioSource :=
  if audio.sidebar = some sidebarId then { audio with sidebar := none } else audio

/-- The default sidebar is not forgotten. Reference: `audiomixer.cpp:654`. -/
def deleteSidebar (s : Lists) (sidebarId : Int) : Int × Lists :=
  if (get? sidebarId s.sidebars).isSome then
    (1, { s with
      audios := s.audios.map fun e => (e.1, forget sidebarId e.2)
      sidebars := s.sidebars.filter fun e => e.1 ≠ sidebarId })
  else (0, s)

/-- What is called from outside. Reference: `audiomixer.h:12`. -/
inductive Call where
  | createMixer (id : Int)
  | initMixer (id sidebarId : Int)
  | endMixer (id : Int)
  | deleteMixer (id : Int)
  | setMixerSidebar (id sidebarId : Int)
  | addSidebarParticipant (sidebarId partId : Int)
  | removeSidebarParticipant (sidebarId partId : Int)
  | createSidebar
  | deleteSidebar (sidebarId : Int)

/-- The lists after a call. -/
def step (s : Lists) : Call → Option Lists
  | .createMixer id => some (s.createMixer id).2
  | .initMixer id sidebarId => (s.initMixer id sidebarId).map Prod.snd
  | .endMixer id => (s.endMixer id).map Prod.snd
  | .deleteMixer id => some (s.deleteMixer id).2
  | .setMixerSidebar id sidebarId => some (s.setMixerSidebar id sidebarId).2
  | .addSidebarParticipant sidebarId partId => some (s.addSidebarParticipant sidebarId partId).2
  | .removeSidebarParticipant sidebarId partId =>
    some (s.removeSidebarParticipant sidebarId partId).2
  | .createSidebar => some s.createSidebar.2
  | .deleteSidebar sidebarId => some (s.deleteSidebar sidebarId).2

/-! ## What is referred to -/

/-- There is such a participant. -/
def HasAudio (s : Lists) (id : Int) : Prop := (get? id s.audios).isSome

/-- There is such a sidebar. -/
def HasSidebar (s : Lists) (sidebarId : Int) : Prop := (get? sidebarId s.sidebars).isSome

/-- What is referred to is there. -/
structure Sound (s : Lists) : Prop where
  sidebar_of_audio : ∀ id audio, get? id s.audios = some audio →
    ∀ sidebarId, audio.sidebar = some sidebarId → s.HasSidebar sidebarId
  default : ∀ sidebarId, s.defaultSidebar = some sidebarId → s.HasSidebar sidebarId
  member : ∀ sidebarId sidebar, get? sidebarId s.sidebars = some sidebar →
    ∀ id ∈ sidebar.participants, s.HasAudio id

/-- What is asked of a call: the default sidebar is not deleted, only participants that are there
are added to a sidebar, and a participant is in no sidebar any more when it is deleted. -/
def Keeps (s : Lists) : Call → Prop
  | .addSidebarParticipant sidebarId partId => s.HasSidebar sidebarId → s.HasAudio partId
  | .deleteMixer id => ∀ sidebarId sidebar, get? sidebarId s.sidebars = some sidebar →
      id ∉ sidebar.participants
  | .deleteSidebar sidebarId => s.defaultSidebar ≠ some sidebarId
  | _ => True

/-- The lists of a mixer that has been started: there is a default sidebar. -/
structure Inv (s : Lists) : Prop extends Sound s where
  hasDefault : s.defaultSidebar.isSome

section Preserved

variable {s : Lists}

theorem inv_init : init.Inv where
  sidebar_of_audio := by
    intro id audio h
    cases h
  default := by
    intro sidebarId h
    cases h
    rfl
  member := by
    intro sidebarId sidebar h id hid
    have hsidebar := mem_of_get? h
    cases List.mem_singleton.1 hsidebar
    cases hid
  hasDefault := rfl

theorem Sound.mono {t : Lists} (h : s.Sound) (hdefault : t.defaultSidebar = s.defaultSidebar)
    (hsidebars : ∀ sidebarId, s.HasSidebar sidebarId → t.HasSidebar sidebarId)
    (haudios : ∀ id, s.HasAudio id → t.HasAudio id)
    (hlisten : ∀ id audio, get? id t.audios = some audio →
      ∀ sidebarId, audio.sidebar = some sidebarId → t.HasSidebar sidebarId ∨
        ∃ audio', get? id s.audios = some audio' ∧ audio'.sidebar = some sidebarId)
    (hmember : ∀ sidebarId sidebar, get? sidebarId t.sidebars = some sidebar →
      ∀ id ∈ sidebar.participants, t.HasAudio id ∨
        ∃ sidebar', get? sidebarId s.sidebars = some sidebar' ∧ id ∈ sidebar'.participants) :
    t.Sound where
  sidebar_of_audio := by
    intro id audio haudio sidebarId hsidebar
    rcases hlisten id audio haudio sidebarId hsidebar with hthere | ⟨audio', haudio', hold⟩
    · exact hthere
    · exact hsidebars sidebarId (h.sidebar_of_audio id audio' haudio' sidebarId hold)
  default := by
    intro sidebarId hsidebar
    exact hsidebars sidebarId (h.default sidebarId (hdefault ▸ hsidebar))
  member := by
    intro sidebarId sidebar hsidebar id hid
    rcases hmember sidebarId sidebar hsidebar id hid with hthere | ⟨sidebar', hsidebar', hold⟩
    · exact hthere
    · exact haudios id (h.member sidebarId sidebar' hsidebar' id hold)

theorem isSome_get?_set {β : Type*} {k k' : Int} {v : β} {m : List (Int × β)}
    (h : (get? k' m).isSome) : (get? k' (set k v m)).isSome := by
  rw [get?_set]
  split
  · rfl
  · exact h

theorem Sound.set_audios (h : s.Sound) {id : Int} {audio : AudioSource}
    (haudio : ∀ sidebarId, audio.sidebar = some sidebarId → s.HasSidebar sidebarId) :
    Sound { s with audios := set id audio s.audios } := by
  refine h.mono rfl (fun _ hthere => hthere) (fun _ => isSome_get?_set) ?_ ?_
  · intro id' audio' haudio' sidebarId hsidebar
    rw [get?_set] at haudio'
    split at haudio'
    · cases haudio'
      exact .inl (haudio sidebarId hsidebar)
    · exact .inr ⟨audio', haudio', hsidebar⟩
  · intro sidebarId sidebar hsidebar id' hid
    exact .inr ⟨sidebar, hsidebar, hid⟩

theorem Sound.set_sidebars (h : s.Sound) {sidebarId : Int}
    (hsidebar : ∀ id ∈ sidebar.participants, s.HasAudio id) :
    Sound { s with sidebars := set sidebarId sidebar s.sidebars } := by
  refine h.mono rfl (fun _ => isSome_get?_set) (fun _ hthere => hthere) ?_ ?_
  · intro id audio haudio sidebarId' hlistens
    exact .inr ⟨audio, haudio, hlistens⟩
  · intro sidebarId' sidebar' hsidebar' id hid
    rw [get?_set] at hsidebar'
    split at hsidebar'
    · cases hsidebar'
      exact .inl (hsidebar id hid)
    · exact .inr ⟨sidebar', hsidebar', hid⟩

theorem hasSidebar_of_listen {audio : AudioSource} {sidebarId sidebarId' : Int}
    (haudio : ∀ sidebarId, audio.sidebar = some sidebarId → s.HasSidebar sidebarId)
    (h : (listen audio s.sidebars sidebarId).sidebar = some sidebarId') :
    s.HasSidebar sidebarId' := by
  rw [listen] at h
  split at h
  case isTrue hthere =>
    cases h
    exact hthere
  case isFalse => exact haudio sidebarId' h

theorem sound_createSidebar (h : s.Sound) : s.createSidebar.2.Sound :=
  (h.set_sidebars (fun _ hid => absurd hid List.not_mem_nil)).mono rfl (fun _ => id) (fun _ => id)
    (fun _ audio haudio _ hlistens => .inr ⟨audio, haudio, hlistens⟩)
    (fun _ sidebar hsidebar _ hid => .inr ⟨sidebar, hsidebar, hid⟩)

theorem sound_createMixer (h : s.Sound) (id : Int) : (s.createMixer id).2.Sound := by
  rw [createMixer]
  split
  · exact h
  · refine h.set_audios ?_
    intro sidebarId hlistens
    cases hlistens

theorem sound_setMixerSidebar (h : s.Sound) (id sidebarId : Int) :
    (s.setMixerSidebar id sidebarId).2.Sound := by
  rw [setMixerSidebar]
  cases haudio : get? id s.audios with
  | none => exact h
  | some audio =>
    refine h.set_audios ?_
    intro sidebarId' hlistens
    exact hasSidebar_of_listen (h.sidebar_of_audio id audio haudio) hlistens

theorem initMixer_sound (h : s.Inv) (id sidebarId : Int) :
    ∃ ret t, s.initMixer id sidebarId = some (ret, t) ∧ t.Sound ∧
      t.defaultSidebar = s.defaultSidebar := by
  rw [initMixer]
  cases haudio : get? id s.audios with
  | none => exact ⟨0, s, rfl, h.toSound, rfl⟩
  | some audio =>
    obtain ⟨default, hdefault⟩ := Option.isSome_iff_exists.1 h.hasDefault
    obtain ⟨sidebar, hsidebar⟩ := Option.isSome_iff_exists.1 (h.default default hdefault)
    refine ⟨1, { s with
      audios := set id (listen audio s.sidebars sidebarId) s.audios
      sidebars := set default (sidebar.addParticipant id) s.sidebars }, ?_, ?_, rfl⟩
    · simp [hdefault, hsidebar]
    · have haudios : Sound { s with
          audios := set id (listen audio s.sidebars sidebarId) s.audios } := by
        refine h.set_audios ?_
        intro sidebarId' hlistens
        exact hasSidebar_of_listen (h.sidebar_of_audio id audio haudio) hlistens
      refine haudios.set_sidebars ?_
      intro id' hid
      rw [Sidebar.mem_addParticipant] at hid
      rcases hid with rfl | hid
      · simp [HasAudio, get?_set]
      · exact isSome_get?_set (h.member default sidebar hsidebar id' hid)

theorem endMixer_sound (h : s.Inv) (id : Int) :
    ∃ ret t, s.endMixer id = some (ret, t) ∧ t.Sound ∧ t.defaultSidebar = s.defaultSidebar := by
  rw [endMixer]
  cases haudio : get? id s.audios with
  | none => exact ⟨0, s, rfl, h.toSound, rfl⟩
  | some audio =>
    obtain ⟨default, hdefault⟩ := Option.isSome_iff_exists.1 h.hasDefault
    obtain ⟨sidebar, hsidebar⟩ := Option.isSome_iff_exists.1 (h.default default hdefault)
    refine ⟨1, { s with
      audios := set id { audio with sidebar := none } s.audios
      sidebars := s.sidebars.map fun e => (e.1, e.2.removeParticipant id) }, ?_, ?_, rfl⟩
    · simp [hdefault, hsidebar]
    · have haudios : Sound { s with audios := set id { audio with sidebar := none } s.audios } := by
        refine h.set_audios ?_
        intro sidebarId hlistens
        cases hlistens
      have hget (sidebarId : Int) :
          get? sidebarId (s.sidebars.map fun e => (e.1, e.2.removeParticipant id)) =
            (get? sidebarId s.sidebars).map fun sidebar => sidebar.removeParticipant id :=
        get?_map (fun sidebar => sidebar.removeParticipant id) sidebarId s.sidebars
      refine haudios.mono rfl ?_ (fun _ hthere => hthere) ?_ ?_
      · intro sidebarId hthere
        dsimp only [HasSidebar] at hthere ⊢
        rwa [hget, Option.isSome_map]
      · intro id' audio' haudio' sidebarId hlistens
        exact .inr ⟨audio', haudio', hlistens⟩
      · intro sidebarId sidebar' hsidebar' id' hid
        dsimp only at hsidebar'
        rw [hget, Option.map_eq_some_iff] at hsidebar'
        obtain ⟨old, hold, rfl⟩ := hsidebar'
        exact .inr ⟨old, hold, (Sidebar.mem_removeParticipant.1 hid).1⟩

theorem sound_removeSidebarParticipant (h : s.Sound) (sidebarId partId : Int) :
    (s.removeSidebarParticipant sidebarId partId).2.Sound := by
  rw [removeSidebarParticipant]
  cases hsidebar : get? sidebarId s.sidebars with
  | none => exact h
  | some sidebar =>
    refine h.set_sidebars ?_
    intro id hid
    exact h.member sidebarId sidebar hsidebar id (Sidebar.mem_removeParticipant.1 hid).1

theorem sound_addSidebarParticipant_iff (h : s.Sound) (sidebarId partId : Int) :
    (s.addSidebarParticipant sidebarId partId).2.Sound ↔
      (s.HasSidebar sidebarId → s.HasAudio partId) := by
  rw [addSidebarParticipant, HasSidebar]
  cases hsidebar : get? sidebarId s.sidebars with
  | none => simp [h]
  | some sidebar =>
    constructor
    · intro hsound _
      refine hsound.member sidebarId (sidebar.addParticipant partId) ?_ partId ?_
      · rw [get?_set, if_pos rfl]
      · exact Sidebar.mem_addParticipant.2 (.inl rfl)
    · intro hthere
      refine h.set_sidebars ?_
      intro id hid
      rcases Sidebar.mem_addParticipant.1 hid with rfl | hid
      · exact hthere rfl
      · exact h.member sidebarId sidebar hsidebar id hid

theorem sound_deleteMixer_iff (h : s.Sound) (id : Int) :
    (s.deleteMixer id).2.Sound ↔
      ∀ sidebarId sidebar, get? sidebarId s.sidebars = some sidebar →
        id ∉ sidebar.participants := by
  rw [deleteMixer]
  split
  case isFalse hnot =>
    refine iff_of_true h ?_
    intro sidebarId sidebar hsidebar hid
    exact hnot (h.member sidebarId sidebar hsidebar id hid)
  case isTrue =>
    have hget (id' : Int) : get? id' (s.audios.filter fun e => e.1 ≠ id) =
        if id' ≠ id then get? id' s.audios else none := by
      have := get?_filter (fun k => decide (k ≠ id)) id' s.audios
      simpa using this
    constructor
    · intro hsound sidebarId sidebar hsidebar hid
      have := hsound.member sidebarId sidebar hsidebar id hid
      rw [HasAudio, hget] at this
      simp at this
    · intro hnone
      constructor
      · intro id' audio haudio sidebarId hlistens
        rw [hget] at haudio
        split at haudio
        · exact h.sidebar_of_audio id' audio haudio sidebarId hlistens
        · cases haudio
      · exact h.default
      · intro sidebarId sidebar hsidebar id' hid
        have hne : id' ≠ id := by
          rintro rfl
          exact hnone sidebarId sidebar hsidebar hid
        rw [HasAudio, hget, if_pos hne]
        exact h.member sidebarId sidebar hsidebar id' hid

theorem sound_deleteSidebar_iff (h : s.Sound) (sidebarId : Int) :
    (s.deleteSidebar sidebarId).2.Sound ↔ s.defaultSidebar ≠ some sidebarId := by
  rw [deleteSidebar]
  split
  case isFalse hnot =>
    refine iff_of_true h ?_
    intro hdefault
    exact hnot (h.default sidebarId hdefault)
  case isTrue =>
    have hget (sidebarId' : Int) : get? sidebarId' (s.sidebars.filter fun e => e.1 ≠ sidebarId) =
        if sidebarId' ≠ sidebarId then get? sidebarId' s.sidebars else none := by
      have := get?_filter (fun k => decide (k ≠ sidebarId)) sidebarId' s.sidebars
      simpa using this
    constructor
    · intro hsound hdefault
      have := hsound.default sidebarId hdefault
      rw [HasSidebar, hget] at this
      simp at this
    · intro hdefault
      constructor
      · intro id audio haudio sidebarId' hlistens
        rw [get?_map, Option.map_eq_some_iff] at haudio
        obtain ⟨old, hold, rfl⟩ := haudio
        rw [forget] at hlistens
        split at hlistens
        · cases hlistens
        · rename_i hother
          have hne : sidebarId' ≠ sidebarId := by
            rintro rfl
            exact hother hlistens
          rw [HasSidebar, hget, if_pos hne]
          exact h.sidebar_of_audio id old hold sidebarId' hlistens
      · intro sidebarId' hdefault'
        have hne : sidebarId' ≠ sidebarId := by
          rintro rfl
          exact hdefault hdefault'
        rw [HasSidebar, hget, if_pos hne]
        exact h.default sidebarId' hdefault'
      · intro sidebarId' sidebar hsidebar id hid
        rw [hget] at hsidebar
        split at hsidebar
        · rw [HasAudio, get?_map, Option.isSome_map]
          exact h.member sidebarId' sidebar hsidebar id hid
        · cases hsidebar

theorem exists_step (h : s.Inv) (call : Call) (hkeeps : s.Keeps call) :
    ∃ t, s.step call = some t ∧ t.Inv := by
  have of_sound {t : Lists} (hsound : t.Sound) (hdefault : t.defaultSidebar = s.defaultSidebar) :
      t.Inv := ⟨hsound, hdefault ▸ h.hasDefault⟩
  cases call with
  | createMixer id =>
    refine ⟨_, rfl, of_sound (sound_createMixer h.toSound id) ?_⟩
    rw [createMixer]
    split <;> rfl
  | initMixer id sidebarId =>
    obtain ⟨ret, t, heq, hsound, hdefault⟩ := initMixer_sound h id sidebarId
    exact ⟨t, by rw [step, heq, Option.map_some], of_sound hsound hdefault⟩
  | endMixer id =>
    obtain ⟨ret, t, heq, hsound, hdefault⟩ := endMixer_sound h id
    exact ⟨t, by rw [step, heq, Option.map_some], of_sound hsound hdefault⟩
  | deleteMixer id =>
    refine ⟨_, rfl, of_sound ((sound_deleteMixer_iff h.toSound id).2 hkeeps) ?_⟩
    rw [deleteMixer]
    split <;> rfl
  | setMixerSidebar id sidebarId =>
    refine ⟨_, rfl, of_sound (sound_setMixerSidebar h.toSound id sidebarId) ?_⟩
    rw [setMixerSidebar]
    split <;> rfl
  | addSidebarParticipant sidebarId partId =>
    refine ⟨_, rfl,
      of_sound ((sound_addSidebarParticipant_iff h.toSound sidebarId partId).2 hkeeps) ?_⟩
    rw [addSidebarParticipant]
    split <;> rfl
  | removeSidebarParticipant sidebarId partId =>
    refine ⟨_, rfl, of_sound (sound_removeSidebarParticipant h.toSound sidebarId partId) ?_⟩
    rw [removeSidebarParticipant]
    split <;> rfl
  | createSidebar => exact ⟨_, rfl, of_sound (sound_createSidebar h.toSound) rfl⟩
  | deleteSidebar sidebarId =>
    refine ⟨_, rfl, of_sound ((sound_deleteSidebar_iff h.toSound sidebarId).2 hkeeps) ?_⟩
    rw [deleteSidebar]
    split <;> rfl

theorem keeps_of_sound (h : s.Inv) (call : Call) {t : Lists} (hstep : s.step call = some t)
    (hsound : t.Sound) : s.Keeps call := by
  cases call with
  | deleteMixer id =>
    cases hstep
    exact (sound_deleteMixer_iff h.toSound id).1 hsound
  | addSidebarParticipant sidebarId partId =>
    cases hstep
    exact (sound_addSidebarParticipant_iff h.toSound sidebarId partId).1 hsound
  | deleteSidebar sidebarId =>
    cases hstep
    exact (sound_deleteSidebar_iff h.toSound sidebarId).1 hsound
  | createMixer | initMixer | endMixer | setMixerSidebar | removeSidebarParticipant
  | createSidebar => exact trivial

end Preserved

end Lists

end Audio

end McuMediaServer
