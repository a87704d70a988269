import McuMediaServer.Text.Mixer

/-!
# Where text goes

The text of a participant goes to the workers of the other initialised participants, the text of a
private source to the worker of the participant it is meant for. For this each worker should have,
under the id of each of them, his writer: the ids of participants and of private sources must not
meet in one worker, a participant must not come after a private source that is meant for him has
been initialised, and text must come from those only who have been initialised.
-/

namespace McuMediaServer.TextMixer

open Amf (WString)
open StepRun

variable {s : TextMixer}

/-- Whose writer a worker has under an id. -/
def TextSource.owner? (source : TextSource) (k : TextId) : Option Owner :=
  source.worker.owner? k

/-! ## The writers after each operation -/

variable {owner : Owner}

section Sources

variable {source : TextSource} {k : TextId}

theorem source?_mapSources (f : TextId → TextSource → TextSource) (k : TextId) :
    (s.mapSources f).source? k = (s.source? k).map (f k) :=
  SortedMap.get?_mapWithKey f k s.sources

theorem TextSource.owner?_addWritter (owner : Owner) (id : TextId) (name : WString)
    (realtime : Bool) : (source.addWritter owner id name realtime).owner? k =
      if k = id ∧ source.owner? id = none then some owner else source.owner? k :=
  TextMixerWorker.owner?_addWritter ..

theorem TextSource.owner?_removeWritter (id : TextId) :
    (source.removeWritter id).owner? k = if k = id then none else source.owner? k :=
  TextMixerWorker.owner?_removeWritter ..

theorem TextSource.owner?_writeText (id : TextId) (text : WString) :
    (source.writeText id text).owner? k = source.owner? k :=
  TextMixerWorker.owner?_writeText ..

theorem TextSource.owner?_processText (waited : TextId → Nat) :
    (source.processText waited).owner? k = source.owner? k :=
  TextMixerWorker.owner?_processText ..

theorem TextSource.owner?_addWritter_of_some (h : source.owner? k = some owner)
    (other : Owner) (id : TextId) (name : WString) (realtime : Bool) :
    (source.addWritter other id name realtime).owner? k = some owner := by
  rw [owner?_addWritter, if_neg, h]
  rintro ⟨rfl, hnone⟩
  rw [h] at hnone
  cases hnone

theorem TextSource.owner?_addOthers (id : TextId) (sources : List (TextId × TextSource))
    (source : TextSource) (k : TextId) : (source.addOthers id sources).owner? k =
      ((source.owner? k).or
        (if k = id then none
        else (SortedMap.get? k sources).map fun other => .source other.address)) := by
  induction sources generalizing source with
  | nil =>
    rw [SortedMap.get?_nil, Option.map_none, ite_self, Option.or_none]
    rfl
  | cons e sources ih =>
    rw [addOthers, List.foldl_cons, ← addOthers, ih, SortedMap.get?_cons]
    by_cases hid : e.1 = id
    · rw [if_neg (not_not.2 hid)]
      by_cases hk : k = id
      · rw [if_pos hk, if_pos hk]
      · rw [if_neg hk, if_neg hk, if_neg fun h => hk (h.trans hid)]
    · rw [if_pos hid, owner?_addWritter]
      by_cases hk : k = e.1
      · have hne : k ≠ id := fun h => hid (hk.symm.trans h)
        rw [if_neg hne, if_neg hne, if_pos hk, Option.map_some, hk]
        cases hnone : source.owner? e.1 with
        | none => rw [if_pos ⟨rfl, rfl⟩, Option.some_or, Option.none_or]
        | some owner => rw [if_neg fun h => Option.some_ne_none owner h.2, Option.some_or,
            Option.some_or]
      · rw [if_neg fun h => hk h.1, if_neg hk]

theorem TextSource.address_addOthers (id : TextId) (sources : List (TextId × TextSource))
    (source : TextSource) : (source.addOthers id sources).address = source.address := by
  induction sources generalizing source with
  | nil => rfl
  | cons e sources ih =>
    rw [addOthers, List.foldl_cons, ← addOthers, ih]
    split <;> rfl

end Sources

/-! ## The routes -/

/-- Each worker has the writers it should have, and no others: those of the other initialised
participants, those of the initialised private sources that are meant for it, and apart from these
at most writers of participants and private sources that are there. -/
structure Routed (s : TextMixer) : Prop where
  kept : ∀ t target k owner, s.source? t = some target → target.owner? k = some owner →
    (∃ source, s.source? k = some source ∧ owner = .source source.address ∧
      target.inWorkers = true) ∨
    ∃ priv, s.private? k = some priv ∧ priv.target = t ∧ owner = .priv priv.address
  sources : ∀ t target k source, s.source? t = some target → target.inWorkers = true →
    s.source? k = some source → source.inWorkers = true → k ≠ t →
    target.owner? k = some (.source source.address)
  privates : ∀ k priv target, s.private? k = some priv → priv.inited = true →
    s.source? priv.target = some target → target.owner? k = some (.priv priv.address)

/-- An id is not that of a writer of somebody else in a worker. -/
def TextSource.Free (id : TextId) (owner : Owner) (target : TextSource) : Prop :=
  ∀ other ∈ target.owner? id, other = owner

/-- What may be asked of a mixer that routes its text. -/
def Routable (s : TextMixer) : Operation → Prop
  | .createMixer id _ =>
    s.source? id = none → ∀ e ∈ s.privates, e.2.target = id → e.2.inited = false
  | .initMixer id =>
    ∀ text ∈ s.source? id, ∀ e ∈ s.sources, e.2.inWorkers = true → e.1 ≠ id →
      e.2.Free id (.source text.address) ∧ text.Free e.1 (.source e.2.address)
  | .deleteMixer id =>
    ∀ text ∈ s.source? id, ∀ e ∈ s.sources, e.2.inWorkers = true → e.1 ≠ id →
      e.2.Free id (.source text.address)
  | .initPrivate id | .deletePrivate id =>
    ∀ priv ∈ s.private? id, ∀ target ∈ s.source? priv.target,
      target.Free id (.priv priv.address)
  | .mixText _ =>
    (∀ e ∈ s.sources, e.2.output ≠ [] → e.2.inWorkers = true) ∧
      ∀ e ∈ s.privates, e.2.output ≠ [] → e.2.inited = true
  | _ => True

instance decidableFree (id : TextId) (owner : Owner) (target : TextSource) :
    Decidable (target.Free id owner) :=
  inferInstanceAs (Decidable (∀ _ ∈ target.owner? id, _))

instance decidableRoutable : (op : Operation) → Decidable (s.Routable op)
  | .createMixer .. => inferInstanceAs (Decidable (_ → ∀ _ ∈ s.privates, _))
  | .initMixer id => inferInstanceAs (Decidable (∀ _ ∈ s.source? id, _))
  | .deleteMixer id => inferInstanceAs (Decidable (∀ _ ∈ s.source? id, _))
  | .initPrivate id => inferInstanceAs (Decidable (∀ _ ∈ s.private? id, ∀ _ ∈ s.source? _, _))
  | .deletePrivate id => inferInstanceAs (Decidable (∀ _ ∈ s.private? id, ∀ _ ∈ s.source? _, _))
  | .mixText _ => inferInstanceAs (Decidable ((∀ _ ∈ s.sources, _) ∧ ∀ _ ∈ s.privates, _))
  | .createPrivate .. | .sendText .. | .sendPrivate .. => .isTrue trivial

theorem TextSource.Free.eq {id : TextId} {owner other : Owner} {target : TextSource}
    (h : target.Free id owner) (hother : target.owner? id = some other) : other = owner :=
  h other hother

/-! ### Participants -/

section Joined

variable {source text : TextSource} {id k : TextId} {sources : List (TextId × TextSource)}

theorem TextSource.address_joined (t : TextId) :
    (source.joined id text sources t).address = source.address := by
  have hadded :
      (source.ifInWorkers (·.addWritter (.source text.address) id text.name true)).address =
        source.address := by
    rw [ifInWorkers]
    split <;> rfl
  rw [joined]
  split
  · exact (address_addOthers ..).trans hadded
  · exact hadded

theorem TextSource.inWorkers_joined (t : TextId) :
    (source.joined id text sources t).inWorkers = (source.inWorkers || decide (t = id)) := by
  rw [joined]
  split
  case isTrue ht => rw [decide_eq_true ht, Bool.or_true, start]
  case isFalse ht =>
    rw [decide_eq_false ht, Bool.or_false, ifInWorkers]
    split <;> rfl

theorem TextSource.owner?_ifInWorkers_addWritter (owner : Owner) (name : WString) :
    (source.ifInWorkers (·.addWritter owner id name true)).owner? k =
      if source.inWorkers = true ∧ k = id ∧ source.owner? id = none then some owner
      else source.owner? k := by
  rw [ifInWorkers]
  split
  case isTrue hin => simp only [owner?_addWritter, hin, true_and]
  case isFalse hin => rw [if_neg fun h => hin h.1]

theorem TextSource.owner?_joined (t : TextId) : (source.joined id text sources t).owner? k =
    (if source.inWorkers = true ∧ k = id ∧ source.owner? id = none then
      some (.source text.address) else source.owner? k).or
    (if t = id ∧ k ≠ id then
      (SortedMap.get? k sources).map fun other => .source other.address else none) := by
  rw [joined]
  split
  case isTrue ht =>
    rw [start]
    refine (owner?_addOthers id sources _ k).trans ?_
    have hreader (source : TextSource) :
        TextSource.owner? { source with worker := source.worker.addReader id } k =
          source.owner? k := by
      rw [owner?, TextMixerWorker.addReader]
      split <;> rfl
    rw [hreader, owner?_ifInWorkers_addWritter]
    by_cases hk : k = id
    · rw [if_pos hk, if_neg (not_and_not_right.2 fun _ => hk)]
    · rw [if_neg hk, if_pos (And.intro ht hk)]
  case isFalse ht =>
    have hno : ¬(t = id ∧ k ≠ id) := fun h => ht h.1
    rw [owner?_ifInWorkers_addWritter, if_neg hno, Option.or_none]

theorem TextSource.owner?_joined_of_some (h : source.owner? k = some owner)
    (t : TextId) : (source.joined id text sources t).owner? k = some owner := by
  rw [owner?_joined, if_neg, h, Option.some_or]
  rintro ⟨-, rfl, hnone⟩
  rw [h] at hnone
  cases hnone

theorem TextSource.owner?_joined_cases {t : TextId}
    (h : (source.joined id text sources t).owner? k = some owner) : source.owner? k = some owner ∨
      k = id ∧ source.inWorkers = true ∧ owner = .source text.address ∨
      t = id ∧ ∃ other, SortedMap.get? k sources = some other ∧ owner = .source other.address := by
  rw [owner?_joined, Option.or_eq_some_iff] at h
  rcases h with h | ⟨-, h⟩
  · split at h
    case isTrue hnew => exact .inr (.inl ⟨hnew.2.1, hnew.1, (Option.some.inj h).symm⟩)
    case isFalse => exact .inl h
  · split at h
    case isTrue hother =>
      obtain ⟨other, hget, rfl⟩ := Option.map_eq_some_iff.1 h
      exact .inr (.inr ⟨hother.1, other, hget, rfl⟩)
    case isFalse => cases h

end Joined

theorem source?_initMixer {id : TextId} {text : TextSource} (h : s.source? id = some text)
    (k : TextId) :
    (s.initMixer id).source? k = (s.source? k).map (·.joined id text s.sources k) := by
  rw [initMixer, h]
  exact source?_mapSources ..

theorem private?_initMixer (id k : TextId) : (s.initMixer id).private? k = s.private? k := by
  rw [initMixer]
  split <;> rfl

theorem routed_initMixer {id : TextId} (h : s.Routed) (hop : s.Routable (.initMixer id)) :
    (s.initMixer id).Routed := by
  rcases htext : s.source? id with _ | text
  · have hsame : s.initMixer id = s := by rw [initMixer, htext]
    rwa [hsame]
  have hsource (k : TextId) := source?_initMixer htext k
  have hfree : ∀ e ∈ s.sources, e.2.inWorkers = true → e.1 ≠ id →
      e.2.Free id (.source text.address) ∧ text.Free e.1 (.source e.2.address) := hop text htext
  constructor
  · intro t target' k owner htarget' howner
    rw [hsource, Option.map_eq_some_iff] at htarget'
    obtain ⟨target, htarget, rfl⟩ := htarget'
    rw [private?_initMixer, hsource]
    rcases TextSource.owner?_joined_cases howner with hold | ⟨rfl, hin, rfl⟩ | ⟨rfl, other, hother, rfl⟩
    · rcases h.kept t target k owner htarget hold with ⟨source, hk, rfl, hin⟩ | hpriv
      · refine .inl ⟨_, Option.map_eq_some_iff.2 ⟨source, hk, rfl⟩, ?_, ?_⟩
        · rw [TextSource.address_joined]
        · rw [TextSource.inWorkers_joined, hin, Bool.true_or]
      · exact .inr hpriv
    · refine .inl ⟨_, Option.map_eq_some_iff.2 ⟨text, htext, rfl⟩, ?_, ?_⟩
      · rw [TextSource.address_joined]
      · rw [TextSource.inWorkers_joined, hin, Bool.true_or]
    · refine .inl ⟨_, Option.map_eq_some_iff.2 ⟨other, hother, rfl⟩, ?_, ?_⟩
      · rw [TextSource.address_joined]
      · rw [TextSource.inWorkers_joined, decide_eq_true rfl, Bool.or_true]
  · intro t target' k source' htarget' htin hsource' hsin hne
    rw [hsource, Option.map_eq_some_iff] at htarget' hsource'
    obtain ⟨target, htarget, rfl⟩ := htarget'
    obtain ⟨source, hk, rfl⟩ := hsource'
    rw [TextSource.inWorkers_joined, Bool.or_eq_true, decide_eq_true_iff] at htin hsin
    rw [TextSource.address_joined]
    rcases eq_or_ne t id with rfl | ht
    · -- the others in the worker of the participant
      have hin := hsin.resolve_right hne
      obtain rfl : text = target := Option.some.inj (htext.symm.trans htarget)
      rcases howner : text.owner? k with _ | owner
      · rw [TextSource.owner?_joined, if_neg fun h => hne h.2.1, howner, Option.none_or,
          if_pos ⟨rfl, hne⟩]
        exact congrArg (Option.map _) hk
      · obtain rfl := (hfree (k, source) (SortedMap.mem_of_get? hk) hin hne).2.eq howner
        exact TextSource.owner?_joined_of_some howner _
    · have hin := htin.resolve_right ht
      rcases eq_or_ne k id with rfl | hk'
      · -- the participant in the workers of the others
        obtain rfl : text = source := Option.some.inj (htext.symm.trans hk)
        rcases howner : target.owner? k with _ | owner
        · rw [TextSource.owner?_joined, if_pos ⟨hin, rfl, howner⟩, Option.some_or]
        · obtain rfl := (hfree (t, target) (SortedMap.mem_of_get? htarget) hin ht).1.eq howner
          exact TextSource.owner?_joined_of_some howner _
      · exact TextSource.owner?_joined_of_some
          (h.sources t target k source htarget hin hk (hsin.resolve_right hk') hne) _
  · intro k priv target' hpriv hinited htarget'
    rw [private?_initMixer] at hpriv
    rw [hsource, Option.map_eq_some_iff] at htarget'
    obtain ⟨target, htarget, rfl⟩ := htarget'
    exact TextSource.owner?_joined_of_some (h.privates k priv target hpriv hinited htarget) _

theorem source?_deleteMixer {id : TextId} (h : (s.source? id).isNone = false) (k : TextId) :
    (s.deleteMixer id).source? k =
      if k = id then none
      else (s.source? k).map (TextSource.ifInWorkers · (·.removeWritter id)) := by
  rw [deleteMixer, h, if_neg Bool.false_ne_true, source?_mapSources, source?]
  dsimp only
  rw [SortedMap.get?_filter (fun k => k ≠ id)]
  by_cases hk : k = id
  · rw [if_pos hk, if_neg (by simpa using hk), Option.map_none]
  · rw [if_neg hk, if_pos (by simpa using hk)]
    rfl

theorem TextSource.address_ifInWorkers_removeWritter (source : TextSource) (id : TextId) :
    (source.ifInWorkers (·.removeWritter id)).address = source.address := by
  rw [ifInWorkers]
  split <;> rfl

theorem TextSource.inWorkers_ifInWorkers_removeWritter (source : TextSource) (id : TextId) :
    (source.ifInWorkers (·.removeWritter id)).inWorkers = source.inWorkers := by
  rw [ifInWorkers]
  split <;> rfl

theorem TextSource.owner?_ifInWorkers_removeWritter (source : TextSource) (id k : TextId) :
    (source.ifInWorkers (·.removeWritter id)).owner? k =
      if source.inWorkers = true ∧ k = id then none else source.owner? k := by
  rw [ifInWorkers]
  split
  case isTrue hin => simp only [owner?_removeWritter, hin, true_and]
  case isFalse hin => rw [if_neg fun h => hin h.1]

theorem routed_deleteMixer {id : TextId} (h : s.Routed) (hop : s.Routable (.deleteMixer id)) :
    (s.deleteMixer id).Routed := by
  rcases htext : s.source? id with _ | text
  · have hsame : s.deleteMixer id = s := by
      rw [deleteMixer, htext]
      rfl
    rwa [hsame]
  have hsource (k : TextId) := @source?_deleteMixer s id (by rw [htext]; rfl) k
  have hpriv (k : TextId) : (s.deleteMixer id).private? k = s.private? k := by
    rw [deleteMixer]
    split <;> rfl
  have hfree : ∀ e ∈ s.sources, e.2.inWorkers = true → e.1 ≠ id →
      e.2.Free id (.source text.address) := hop text htext
  have hback {k : TextId} {source' : TextSource} (hk : (s.deleteMixer id).source? k = some source') :
      k ≠ id ∧ ∃ source, s.source? k = some source ∧
        source' = source.ifInWorkers (·.removeWritter id) := by
    rw [hsource] at hk
    split at hk
    case isTrue => cases hk
    case isFalse hne =>
      obtain ⟨source, hk', rfl⟩ := Option.map_eq_some_iff.1 hk
      exact ⟨hne, source, hk', rfl⟩
  constructor
  · intro t target' k owner htarget' howner
    obtain ⟨ht, target, htarget, rfl⟩ := hback htarget'
    rw [TextSource.owner?_ifInWorkers_removeWritter] at howner
    split at howner
    case isTrue => cases howner
    case isFalse hno =>
      rcases h.kept t target k owner htarget howner with ⟨source, hk, rfl, hin⟩ | hkept
      · have hne : k ≠ id := fun heq => hno ⟨hin, heq⟩
        refine .inl ⟨source.ifInWorkers (·.removeWritter id), ?_, ?_, ?_⟩
        · rw [hsource, if_neg hne, hk, Option.map_some]
        · rw [TextSource.address_ifInWorkers_removeWritter]
        · rwa [TextSource.inWorkers_ifInWorkers_removeWritter]
      · rw [hpriv]
        exact .inr hkept
  · intro t target' k source' htarget' htin hsource' hsin hne
    obtain ⟨ht, target, htarget, rfl⟩ := hback htarget'
    obtain ⟨hk', source, hk, rfl⟩ := hback hsource'
    rw [TextSource.inWorkers_ifInWorkers_removeWritter] at htin hsin
    rw [TextSource.owner?_ifInWorkers_removeWritter, if_neg fun h => hk' h.2,
      TextSource.address_ifInWorkers_removeWritter]
    exact h.sources t target k source htarget htin hk hsin hne
  · intro k priv target' hk hinited htarget'
    rw [hpriv] at hk
    obtain ⟨ht, target, htarget, rfl⟩ := hback htarget'
    have howner := h.privates k priv target hk hinited htarget
    rw [TextSource.owner?_ifInWorkers_removeWritter, if_neg]
    · exact howner
    · rintro ⟨hin, rfl⟩
      cases (hfree (priv.target, target) (SortedMap.mem_of_get? htarget) hin ht).eq howner

theorem routed_createMixer {id : TextId} {name : WString} (h : s.Routed)
    (hop : s.Routable (.createMixer id name)) : (s.createMixer id name).Routed := by
  rw [createMixer]
  split
  case isTrue => exact h
  case isFalse hnone =>
    rw [Option.not_isSome_iff_eq_none] at hnone
    have hback {k : TextId} {source : TextSource}
        (hk : source? { s with
          sources := SortedMap.set id { address := s.allocated, name } s.sources
          allocated := s.allocated + 1 } k = some source) :
        k = id ∧ source = { address := s.allocated, name } ∨ s.source? k = some source := by
      rw [source?, SortedMap.get?_set] at hk
      split at hk
      case isTrue heq => exact .inl ⟨heq, (Option.some.inj hk).symm⟩
      case isFalse => exact .inr hk
    constructor
    · intro t target k owner htarget howner
      rcases hback htarget with ⟨-, rfl⟩ | htarget
      · cases howner
      · rcases h.kept t target k owner htarget howner with ⟨source, hk, hrest⟩ | hkept
        · have hne : k ≠ id := by
            rintro rfl
            rw [hnone] at hk
            cases hk
          refine .inl ⟨source, ?_, hrest⟩
          rw [source?, SortedMap.get?_set, if_neg hne]
          exact hk
        · exact .inr hkept
    · intro t target k source htarget htin hsource hsin hne
      rcases hback htarget with ⟨-, rfl⟩ | htarget
      · cases htin
      · rcases hback hsource with ⟨-, rfl⟩ | hsource
        · cases hsin
        · exact h.sources t target k source htarget htin hsource hsin hne
    · intro k priv target hpriv hinited htarget
      rcases hback htarget with ⟨ht, -⟩ | htarget
      · have hnot := hop hnone (k, priv) (SortedMap.mem_of_get? hpriv) ht
        rw [hnot] at hinited
        cases hinited
      · exact h.privates k priv target hpriv hinited htarget

/-! ### Private sources -/

theorem routed_createPrivate {id target : TextId} {name : WString} (h : s.Routed) :
    (s.createPrivate id target name).Routed := by
  rw [createPrivate]
  split
  case isTrue => exact h
  case isFalse hnone =>
    rw [Option.not_isSome_iff_eq_none] at hnone
    refine ⟨fun t target' k owner htarget howner => ?_, h.sources, fun k priv target' hpriv => ?_⟩
    · refine (h.kept t target' k owner htarget howner).imp_right ?_
      rintro ⟨priv, hk, hrest⟩
      have hne : k ≠ id := by
        rintro rfl
        rw [hnone] at hk
        cases hk
      refine ⟨priv, ?_, hrest⟩
      rw [private?, SortedMap.get?_set, if_neg hne]
      exact hk
    · intro hinited htarget
      rw [private?, SortedMap.get?_set] at hpriv
      split at hpriv
      case isTrue =>
        obtain rfl := Option.some.inj hpriv
        cases hinited
      case isFalse => exact h.privates k priv target' hpriv hinited htarget

section IfTarget

variable {source : TextSource} {target k : TextId} {f : TextSource → TextSource}

theorem TextSource.address_ifTarget (h : (f source).address = source.address) :
    (source.ifTarget target k f).address = source.address := by
  rw [ifTarget]
  split
  · exact h
  · rfl

theorem TextSource.inWorkers_ifTarget (h : (f source).inWorkers = source.inWorkers) :
    (source.ifTarget target k f).inWorkers = source.inWorkers := by
  rw [ifTarget]
  split
  · exact h
  · rfl

end IfTarget

variable {priv : TextPrivate}

theorem source?_initPrivate {id : TextId} (h : s.private? id = some priv)
    (k : TextId) : (s.initPrivate id).source? k = (s.source? k).map
      (·.ifTarget priv.target k (·.addWritter (.priv priv.address) id priv.name false)) := by
  rw [initPrivate, h]
  exact source?_mapSources ..

theorem private?_initPrivate {id : TextId} (h : s.private? id = some priv)
    (k : TextId) : (s.initPrivate id).private? k =
      if k = id then some { priv with inited := true } else s.private? k := by
  have hmodify : (s.initPrivate id).private? k =
      SortedMap.get? k (SortedMap.modify id TextPrivate.init s.privates) := by
    rw [initPrivate, h]
    rfl
  rw [hmodify, SortedMap.get?_modify]
  split
  case isTrue hk =>
    rw [hk]
    exact congrArg (Option.map _) h
  case isFalse => rfl

theorem routed_initPrivate {id : TextId} (h : s.Routed) (hop : s.Routable (.initPrivate id)) :
    (s.initPrivate id).Routed := by
  rcases hpriv : s.private? id with _ | priv
  · have hsame : s.initPrivate id = s := by rw [initPrivate, hpriv]
    rwa [hsame]
  have hsource (k : TextId) := source?_initPrivate hpriv k
  have hprivate (k : TextId) := private?_initPrivate hpriv k
  constructor
  · intro t target' k owner htarget' howner
    rw [hsource, Option.map_eq_some_iff] at htarget'
    obtain ⟨target, htarget, rfl⟩ := htarget'
    have hcases : target.owner? k = some owner ∨
        k = id ∧ t = priv.target ∧ owner = .priv priv.address := by
      rw [TextSource.ifTarget] at howner
      split at howner
      case isTrue ht =>
        rw [TextSource.owner?_addWritter] at howner
        split at howner
        case isTrue hnew => exact .inr ⟨hnew.1, ht, (Option.some.inj howner).symm⟩
        case isFalse => exact .inl howner
      case isFalse => exact .inl howner
    rcases hcases with hold | ⟨rfl, rfl, rfl⟩
    · rcases h.kept t target k owner htarget hold with ⟨source, hk, rfl, hin⟩ | ⟨p, hk, ht, rfl⟩
      · rw [hsource]
        refine .inl ⟨_, Option.map_eq_some_iff.2 ⟨source, hk, rfl⟩, ?_, ?_⟩
        · rw [TextSource.address_ifTarget rfl]
        · rwa [TextSource.inWorkers_ifTarget rfl]
      · rw [hprivate]
        split
        case isTrue heq =>
          obtain rfl : priv = p := Option.some.inj (hpriv.symm.trans (heq ▸ hk))
          exact .inr ⟨_, rfl, ht, rfl⟩
        case isFalse => exact .inr ⟨p, hk, ht, rfl⟩
    · rw [hprivate, if_pos rfl]
      exact .inr ⟨_, rfl, rfl, rfl⟩
  · intro t target' k source' htarget' htin hsource' hsin hne
    rw [hsource, Option.map_eq_some_iff] at htarget' hsource'
    obtain ⟨target, htarget, rfl⟩ := htarget'
    obtain ⟨source, hk, rfl⟩ := hsource'
    rw [TextSource.inWorkers_ifTarget rfl] at htin hsin
    rw [TextSource.address_ifTarget rfl]
    have howner := h.sources t target k source htarget htin hk hsin hne
    rw [TextSource.ifTarget]
    split
    · exact TextSource.owner?_addWritter_of_some howner ..
    · exact howner
  · intro k p target' hk hinited htarget'
    rw [hsource, Option.map_eq_some_iff] at htarget'
    obtain ⟨target, htarget, rfl⟩ := htarget'
    rw [hprivate] at hk
    split at hk
    case isTrue hkid =>
      obtain rfl := Option.some.inj hk
      rw [TextSource.ifTarget, if_pos rfl, TextSource.owner?_addWritter, hkid]
      rcases howner : target.owner? id with _ | owner
      · rw [if_pos ⟨rfl, rfl⟩]
      · rw [if_neg fun h => Option.some_ne_none owner h.2]
        exact congrArg some ((hop priv hpriv target htarget).eq howner)
    case isFalse =>
      have howner := h.privates k p target hk hinited htarget
      rw [TextSource.ifTarget]
      split
      · exact TextSource.owner?_addWritter_of_some howner ..
      · exact howner

theorem source?_deletePrivate {id : TextId} (h : s.private? id = some priv)
    (k : TextId) : (s.deletePrivate id).source? k =
      (s.source? k).map (·.ifTarget priv.target k (·.removeWritter id)) := by
  rw [deletePrivate, h]
  exact source?_mapSources ..

theorem private?_deletePrivate {id : TextId} (h : s.private? id = some priv)
    (k : TextId) : (s.deletePrivate id).private? k = if k = id then none else s.private? k := by
  have hfilter : (s.deletePrivate id).private? k =
      SortedMap.get? k (s.privates.filter fun e => e.1 ≠ id) := by
    rw [deletePrivate, h]
    rfl
  rw [hfilter, SortedMap.get?_filter (fun k => k ≠ id)]
  by_cases hk : k = id
  · rw [if_pos hk, if_neg (by simpa using hk)]
  · rw [if_neg hk, if_pos (by simpa using hk), private?]

theorem TextSource.owner?_ifTarget_removeWritter (source : TextSource) (target id t k : TextId) :
    (source.ifTarget target t (·.removeWritter id)).owner? k =
      if t = target ∧ k = id then none else source.owner? k := by
  rw [ifTarget]
  split
  case isTrue ht => simp only [owner?_removeWritter, ht, true_and]
  case isFalse ht => rw [if_neg fun h => ht h.1]

theorem routed_deletePrivate {id : TextId} (h : s.Routed) (hop : s.Routable (.deletePrivate id)) :
    (s.deletePrivate id).Routed := by
  rcases hpriv : s.private? id with _ | priv
  · have hsame : s.deletePrivate id = s := by rw [deletePrivate, hpriv]
    rwa [hsame]
  have hsource (k : TextId) := source?_deletePrivate hpriv k
  have hprivate (k : TextId) := private?_deletePrivate hpriv k
  constructor
  · intro t target' k owner htarget' howner
    rw [hsource, Option.map_eq_some_iff] at htarget'
    obtain ⟨target, htarget, rfl⟩ := htarget'
    rw [TextSource.owner?_ifTarget_removeWritter] at howner
    split at howner
    case isTrue => cases howner
    case isFalse hno =>
      rcases h.kept t target k owner htarget howner with ⟨source, hk, rfl, hin⟩ | ⟨p, hk, ht, rfl⟩
      · rw [hsource]
        refine .inl ⟨_, Option.map_eq_some_iff.2 ⟨source, hk, rfl⟩, ?_, ?_⟩
        · rw [TextSource.address_ifTarget rfl]
        · rwa [TextSource.inWorkers_ifTarget rfl]
      · have hne : k ≠ id := by
          rintro rfl
          obtain rfl : priv = p := Option.some.inj (hpriv.symm.trans hk)
          exact hno ⟨ht.symm, rfl⟩
        rw [hprivate, if_neg hne]
        exact .inr ⟨p, hk, ht, rfl⟩
  · intro t target' k source' htarget' htin hsource' hsin hne
    rw [hsource, Option.map_eq_some_iff] at htarget' hsource'
    obtain ⟨target, htarget, rfl⟩ := htarget'
    obtain ⟨source, hk, rfl⟩ := hsource'
    rw [TextSource.inWorkers_ifTarget rfl] at htin hsin
    rw [TextSource.address_ifTarget rfl, TextSource.owner?_ifTarget_removeWritter, if_neg]
    · exact h.sources t target k source htarget htin hk hsin hne
    · rintro ⟨rfl, rfl⟩
      have howner := h.sources _ target k source htarget htin hk hsin hne
      cases (hop priv hpriv target htarget).eq howner
  · intro k p target' hk hinited htarget'
    rw [hsource, Option.map_eq_some_iff] at htarget'
    obtain ⟨target, htarget, rfl⟩ := htarget'
    rw [hprivate] at hk
    split at hk
    case isTrue => cases hk
    case isFalse hne =>
      rw [TextSource.owner?_ifTarget_removeWritter, if_neg fun h => hne h.2]
      exact h.privates k p target hk hinited htarget

/-! ## Operations that leave the writers -/

/-- What routing depends on of a source. -/
def TextSource.seat (source : TextSource) : Nat × Bool × (TextId → Option Owner) :=
  (source.address, source.inWorkers, source.owner?)

/-- What routing depends on of a private source. -/
def TextPrivate.seat (priv : TextPrivate) : Nat × TextId × Bool :=
  (priv.address, priv.target, priv.inited)

/-- The sources and the private sources are the same for the routing. -/
structure Alike (s s' : TextMixer) : Prop where
  sources : (s'.sources.map fun e => (e.1, e.2.seat)) = s.sources.map fun e => (e.1, e.2.seat)
  privates : (s'.privates.map fun e => (e.1, e.2.seat)) = s.privates.map fun e => (e.1, e.2.seat)

section Alike

variable {t : TextMixer}

theorem Alike.refl (s : TextMixer) : Alike s s := ⟨rfl, rfl⟩

theorem Alike.symm (h : Alike s t) : Alike t s := ⟨h.sources.symm, h.privates.symm⟩

theorem Alike.trans {u : TextMixer} (h : Alike s t) (h' : Alike t u) : Alike s u :=
  ⟨h'.sources.trans h.sources, h'.privates.trans h.privates⟩

theorem Alike.map_source? (h : Alike s t) (k : TextId) :
    (t.source? k).map TextSource.seat = (s.source? k).map TextSource.seat := by
  rw [source?, source?, ← SortedMap.get?_map, ← SortedMap.get?_map, h.sources]

theorem Alike.source? (h : Alike s t) {k : TextId} {source' : TextSource}
    (hk : t.source? k = some source') :
    ∃ source, s.source? k = some source ∧ source.seat = source'.seat := by
  have hmap := h.map_source? k
  rw [hk] at hmap
  exact Option.map_eq_some_iff.1 hmap.symm

theorem Alike.private? (h : Alike s t) {k : TextId} {priv' : TextPrivate}
    (hk : t.private? k = some priv') :
    ∃ priv, s.private? k = some priv ∧ priv.seat = priv'.seat := by
  have hmap : (t.private? k).map TextPrivate.seat = (s.private? k).map TextPrivate.seat := by
    rw [TextMixer.private?, TextMixer.private?, ← SortedMap.get?_map, ← SortedMap.get?_map,
      h.privates]
  rw [hk] at hmap
  exact Option.map_eq_some_iff.1 hmap.symm

theorem TextSource.seat_eq {source source' : TextSource} (h : source.seat = source'.seat) :
    source.address = source'.address ∧ source.inWorkers = source'.inWorkers ∧
      ∀ k, source.owner? k = source'.owner? k :=
  ⟨congrArg Prod.fst h, congrArg (fun seat => seat.2.1) h,
    fun k => congrArg (fun seat => seat.2.2 k) h⟩

theorem TextPrivate.seat_eq {priv priv' : TextPrivate} (h : priv.seat = priv'.seat) :
    priv.address = priv'.address ∧ priv.target = priv'.target ∧ priv.inited = priv'.inited :=
  ⟨congrArg Prod.fst h, congrArg (fun seat => seat.2.1) h, congrArg (fun seat => seat.2.2) h⟩

theorem Routed.of_alike (h : s.Routed) (halike : Alike s t) : t.Routed := by
  constructor
  · intro k₀ target' k owner htarget' howner
    obtain ⟨target, htarget, hseat⟩ := halike.source? htarget'
    obtain ⟨-, hin, hown⟩ := TextSource.seat_eq hseat
    rw [← hown] at howner
    rcases h.kept k₀ target k owner htarget howner with ⟨source, hk, rfl, hin'⟩ | ⟨p, hk, ht, rfl⟩
    · obtain ⟨source', hk', hseat'⟩ := halike.symm.source? hk
      exact .inl ⟨source', hk', by rw [(TextSource.seat_eq hseat').1], hin ▸ hin'⟩
    · obtain ⟨p', hk', hseat'⟩ := halike.symm.private? hk
      obtain ⟨haddress, htarget, -⟩ := TextPrivate.seat_eq hseat'
      exact .inr ⟨p', hk', htarget.trans ht, by rw [haddress]⟩
  · intro k₀ target' k source' htarget' htin hsource' hsin hne
    obtain ⟨target, htarget, hseat⟩ := halike.source? htarget'
    obtain ⟨-, hin, hown⟩ := TextSource.seat_eq hseat
    obtain ⟨source, hk, hseat'⟩ := halike.source? hsource'
    obtain ⟨haddress, hin', -⟩ := TextSource.seat_eq hseat'
    rw [← hown, ← haddress]
    exact h.sources k₀ target k source htarget (hin ▸ htin) hk (hin' ▸ hsin) hne
  · intro k priv' target' hk hinited htarget'
    obtain ⟨priv, hpriv, hseat⟩ := halike.private? hk
    obtain ⟨haddress, htarget, hinited'⟩ := TextPrivate.seat_eq hseat
    rw [← htarget] at htarget'
    obtain ⟨target, htarget, hseat'⟩ := halike.source? htarget'
    rw [← (TextSource.seat_eq hseat').2.2, ← haddress]
    exact h.privates k priv target hpriv (hinited' ▸ hinited) htarget

theorem alike_mapSources {f : TextId → TextSource → TextSource}
    (hf : ∀ k source, (f k source).seat = source.seat) : Alike s (s.mapSources f) where
  sources := by
    rw [mapSources, List.map_map]
    exact List.map_congr_left fun e _ => congrArg (Prod.mk e.1) (hf e.1 e.2)
  privates := rfl

theorem map_seat_modify {f : TextPrivate → TextPrivate} (hf : ∀ priv, (f priv).seat = priv.seat)
    (id : TextId) (privates : List (TextId × TextPrivate)) :
    ((SortedMap.modify id f privates).map fun e => (e.1, e.2.seat)) =
      privates.map fun e => (e.1, e.2.seat) := by
  rw [SortedMap.modify, List.map_map]
  refine List.map_congr_left fun e _ => ?_
  rw [Function.comp_apply]
  split
  · exact congrArg (Prod.mk e.1) (hf e.2)
  · rfl

theorem TextSource.seat_writeText (source : TextSource) (id : TextId) (text : WString) :
    (source.writeText id text).seat = source.seat := by
  rw [seat, seat, funext fun k => @owner?_writeText source k id text]
  rfl

theorem TextSource.seat_processText (source : TextSource) (waited : TextId → Nat) :
    (source.processText waited).seat = source.seat := by
  rw [seat, seat, funext fun k => @owner?_processText source k waited]
  rfl

theorem TextSource.seat_ifInWorkers {f : TextSource → TextSource} {source : TextSource}
    (h : (f source).seat = source.seat) : (source.ifInWorkers f).seat = source.seat := by
  rw [ifInWorkers]
  split
  · exact h
  · rfl

theorem alike_sendText (id : TextId) (text : WString) : Alike s (s.sendText id text) := by
  refine alike_mapSources fun k source => ?_
  rw [TextSource.ifTarget]
  split <;> rfl

theorem alike_sendPrivate (id : TextId) (text : WString) : Alike s (s.sendPrivate id text) :=
  ⟨rfl, map_seat_modify (f := TextPrivate.receive text) (fun _ => rfl) ..⟩

theorem alike_mixSource (e : TextId × TextSource) : Alike s (s.mixSource e) := by
  rw [mixSource]
  split
  · exact .refl s
  · constructor
    · dsimp only
      refine (alike_mapSources fun k source => ?_).sources
      split
      · rfl
      · exact TextSource.seat_ifInWorkers (TextSource.seat_writeText source _ _)
    · rfl

theorem alike_mixPrivate (e : TextId × TextPrivate) : Alike s (s.mixPrivate e) := by
  rw [mixPrivate]
  split
  · exact .refl s
  · constructor
    · dsimp only
      refine (alike_mapSources fun k source => ?_).sources
      rw [TextSource.ifTarget]
      split
      · exact TextSource.seat_writeText source _ _
      · rfl
    · exact map_seat_modify (f := TextPrivate.clear) (fun _ => rfl) ..

theorem alike_foldl {α : Type*} {f : TextMixer → α → TextMixer} (hf : ∀ s a, Alike s (f s a))
    (as : List α) : Alike s (as.foldl f s) := by
  induction as generalizing s with
  | nil => exact .refl s
  | cons a as ih => exact (hf s a).trans ih

theorem alike_mixText (waited : TextId → TextId → Nat) : Alike s (s.mixText waited) := by
  have hfolds : Alike s (s.privates.foldl mixPrivate (s.sources.foldl mixSource s)) :=
    (alike_foldl (fun _ => alike_mixSource) s.sources).trans
      (alike_foldl (fun _ => alike_mixPrivate) s.privates)
  unfold mixText
  refine hfolds.trans (alike_mapSources fun k source => ?_)
  exact TextSource.seat_ifInWorkers (TextSource.seat_processText source _)

end Alike

/-! ## What is written -/

/-- The text of a participant is due in the worker of every other initialised participant. -/
def dueSource (sources : List (TextId × TextSource)) (e : TextId × TextSource) : List Delivery :=
  if e.2.output = [] then []
  else
    sources.flatMap fun t =>
      if t.2.inWorkers ∧ t.1 ≠ e.1 then [⟨t.2.address, .source e.2.address, e.2.output⟩] else []

/-- The text of a private source is due in the worker of the participant it is meant for, if there
is one. -/
def duePrivate (s : TextMixer) (e : TextId × TextPrivate) : List Delivery :=
  if e.2.output = [] then []
  else (s.source? e.2.target).toList.map fun t => ⟨t.address, .priv e.2.address, e.2.output⟩

/-- What an operation should write: the text of all, once, in a round, and nothing else. -/
def due (s : TextMixer) : Operation → List Delivery
  | .mixText _ => s.sources.flatMap (dueSource s.sources) ++ s.privates.flatMap s.duePrivate
  | _ => []

/-- What is written of the text of a participant. -/
def sourceDeliveries (sources : List (TextId × TextSource)) (e : TextId × TextSource) :
    List Delivery :=
  if e.2.output = [] then []
  else
    sources.flatMap fun t =>
      if t.2.inWorkers ∧ t.1 ≠ e.1 then t.2.deliver e.1 e.2.output else []

/-- What is written of the text of a private source. -/
def privateDeliveries (s : TextMixer) (e : TextId × TextPrivate) : List Delivery :=
  if e.2.output = [] then []
  else (s.source? e.2.target).toList.flatMap (TextSource.deliver e.1 e.2.output)

section Written

variable {t : TextMixer}

theorem TextSource.deliver_eq_of_seat {source source' : TextSource}
    (h : source.seat = source'.seat) (id : TextId) (text : WString) :
    source.deliver id text = source'.deliver id text := by
  obtain ⟨haddress, -, hown⟩ := seat_eq h
  have howner : source.worker.owner? id = source'.worker.owner? id := hown id
  rw [deliver, deliver, howner, haddress]

theorem Alike.sourceDeliveries_eq (h : Alike s t) (e : TextId × TextSource) :
    sourceDeliveries t.sources e = sourceDeliveries s.sources e := by
  have hseats (sources : List (TextId × TextSource)) : (sources.flatMap fun t =>
        if t.2.inWorkers ∧ t.1 ≠ e.1 then t.2.deliver e.1 e.2.output else []) =
      (sources.map fun t => (t.1, t.2.seat)).flatMap fun t =>
        if t.2.2.1 ∧ t.1 ≠ e.1 then
          (t.2.2.2 e.1).toList.map fun owner => ⟨t.2.1, owner, e.2.output⟩
        else [] := by
    rw [List.flatMap_map]
    rfl
  rw [sourceDeliveries, sourceDeliveries, hseats, hseats, h.sources]

theorem Alike.privateDeliveries_eq (h : Alike s t) (e : TextId × TextPrivate) :
    t.privateDeliveries e = s.privateDeliveries e := by
  have hmap := h.map_source? e.2.target
  rw [privateDeliveries, privateDeliveries]
  rcases ht : t.source? e.2.target with _ | target'
  · rw [ht, Option.map_none, eq_comm, Option.map_eq_none_iff] at hmap
    rw [hmap]
  · obtain ⟨target, hs, hseat⟩ := h.source? ht
    rw [hs, Option.toList_some, Option.toList_some, List.flatMap_singleton, List.flatMap_singleton,
      TextSource.deliver_eq_of_seat hseat]

theorem written_mixSource (e : TextId × TextSource) :
    (s.mixSource e).written = s.written ++ sourceDeliveries s.sources e := by
  rw [mixSource, sourceDeliveries]
  split
  · rw [List.append_nil]
  · rfl

theorem written_mixPrivate (e : TextId × TextPrivate) :
    (s.mixPrivate e).written = s.written ++ s.privateDeliveries e := by
  rw [mixPrivate, privateDeliveries]
  split
  · rw [List.append_nil]
  · rfl

theorem written_foldl_mixSource (es : List (TextId × TextSource)) (h : Alike s t) :
    (es.foldl mixSource t).written = t.written ++ es.flatMap (sourceDeliveries s.sources) := by
  induction es generalizing t with
  | nil => rw [List.foldl_nil, List.flatMap_nil, List.append_nil]
  | cons e es ih =>
    rw [List.foldl_cons, ih (h.trans (alike_mixSource e)), written_mixSource, List.flatMap_cons,
      h.sourceDeliveries_eq, List.append_assoc]

theorem written_foldl_mixPrivate (es : List (TextId × TextPrivate)) (h : Alike s t) :
    (es.foldl mixPrivate t).written = t.written ++ es.flatMap s.privateDeliveries := by
  induction es generalizing t with
  | nil => rw [List.foldl_nil, List.flatMap_nil, List.append_nil]
  | cons e es ih =>
    rw [List.foldl_cons, ih (h.trans (alike_mixPrivate e)), written_mixPrivate, List.flatMap_cons,
      h.privateDeliveries_eq, List.append_assoc]

theorem written_mixText (waited : TextId → TextId → Nat) : (s.mixText waited).written =
    s.written ++
      (s.sources.flatMap (sourceDeliveries s.sources) ++ s.privates.flatMap s.privateDeliveries) := by
  change (s.privates.foldl mixPrivate (s.sources.foldl mixSource s)).written = _
  rw [written_foldl_mixPrivate _ (alike_foldl (fun _ => alike_mixSource) s.sources),
    written_foldl_mixSource _ (.refl s), List.append_assoc]

end Written

/-- The entries stand in the order of their ids, none twice. -/
structure Ordered (s : TextMixer) : Prop where
  sources : SortedMap.Sorted s.sources
  privates : SortedMap.Sorted s.privates

theorem Ordered.of_alike {t : TextMixer} (h : s.Ordered) (halike : Alike s t) : t.Ordered := by
  have hkeys := congrArg (List.map Prod.fst) halike.sources
  have hkeys' := congrArg (List.map Prod.fst) halike.privates
  rw [List.map_map, List.map_map] at hkeys hkeys'
  exact ⟨h.sources.of_keys hkeys, h.privates.of_keys hkeys'⟩

theorem Ordered.mapSources (h : s.Ordered) (f : TextId → TextSource → TextSource) :
    (s.mapSources f).Ordered :=
  ⟨h.sources.of_keys (SortedMap.keys_mapWithKey f s.sources), h.privates⟩

theorem ordered_step (h : s.Ordered) (op : Operation) : (s.step op).Ordered := by
  cases op with
  | createMixer id name =>
    change (s.createMixer id name).Ordered
    rw [createMixer]
    split
    · exact h
    · exact ⟨h.sources.set _ _, h.privates⟩
  | initMixer id =>
    change (s.initMixer id).Ordered
    rw [initMixer]
    split
    · exact h
    · exact h.mapSources _
  | deleteMixer id =>
    change (s.deleteMixer id).Ordered
    rw [deleteMixer]
    split
    · exact h
    · refine Ordered.mapSources ?_ _
      exact ⟨h.sources.filter _, h.privates⟩
  | createPrivate id target name =>
    change (s.createPrivate id target name).Ordered
    rw [createPrivate]
    split
    · exact h
    · exact ⟨h.sources, h.privates.set _ _⟩
  | initPrivate id =>
    change (s.initPrivate id).Ordered
    rw [initPrivate]
    split
    · exact h
    · refine Ordered.mapSources ?_ _
      exact ⟨h.sources, h.privates.of_keys (SortedMap.keys_modify ..)⟩
  | deletePrivate id =>
    change (s.deletePrivate id).Ordered
    rw [deletePrivate]
    split
    · exact h
    · refine Ordered.mapSources ?_ _
      exact ⟨h.sources, h.privates.filter _⟩
  | sendText id text => exact h.of_alike (alike_sendText id text)
  | sendPrivate id text => exact h.of_alike (alike_sendPrivate id text)
  | mixText waited => exact h.of_alike (alike_mixText waited)

theorem routed_step {op : Operation} (h : s.Routed) (hop : s.Routable op) : (s.step op).Routed := by
  cases op with
  | createMixer id name => exact routed_createMixer h hop
  | initMixer id => exact routed_initMixer h hop
  | deleteMixer id => exact routed_deleteMixer h hop
  | createPrivate id target name => exact routed_createPrivate h
  | initPrivate id => exact routed_initPrivate h hop
  | deletePrivate id => exact routed_deletePrivate h hop
  | sendText id text => exact h.of_alike (alike_sendText id text)
  | sendPrivate id text => exact h.of_alike (alike_sendPrivate id text)
  | mixText waited => exact h.of_alike (alike_mixText waited)

theorem Routed.mixText_due (h : s.Routed) (hordered : s.Ordered) {waited : TextId → TextId → Nat}
    (hop : s.Routable (.mixText waited)) :
    (s.mixText waited).written = s.written ++ s.due (.mixText waited) := by
  have hsource : ∀ e ∈ s.sources, sourceDeliveries s.sources e = dueSource s.sources e := by
    intro e he
    rw [sourceDeliveries, dueSource]
    split
    case isTrue => rfl
    case isFalse houtput =>
      refine List.flatMap_congr fun t ht => ?_
      split
      case isTrue hto =>
        have howner : t.2.worker.owner? e.1 = some (.source e.2.address) :=
          h.sources t.1 t.2 e.1 e.2 (hordered.sources.get?_of_mem ht) hto.1
            (hordered.sources.get?_of_mem he) (hop.1 e he houtput) hto.2.symm
        rw [TextSource.deliver, howner]
        rfl
      case isFalse => rfl
  have hprivate : ∀ e ∈ s.privates, s.privateDeliveries e = s.duePrivate e := by
    intro e he
    rw [privateDeliveries, duePrivate]
    split
    case isTrue => rfl
    case isFalse houtput =>
      rcases htarget : s.source? e.2.target with _ | target
      · rfl
      · have howner : target.worker.owner? e.1 = some (.priv e.2.address) :=
          h.privates e.1 e.2 target (hordered.privates.get?_of_mem he) (hop.2 e he houtput) htarget
        rw [Option.toList_some, List.flatMap_singleton, TextSource.deliver, howner]
        rfl
  have hsources : s.sources.flatMap (sourceDeliveries s.sources) =
      s.sources.flatMap (dueSource s.sources) :=
    List.flatMap_congr hsource
  have hprivates : s.privates.flatMap s.privateDeliveries = s.privates.flatMap s.duePrivate :=
    List.flatMap_congr hprivate
  rw [written_mixText, due, hsources, hprivates]

theorem written_step_of_ne {op : Operation} (h : ∀ waited, op ≠ .mixText waited) :
    (s.step op).written = s.written := by
  cases op with
  | createMixer id name =>
    change (s.createMixer id name).written = _
    rw [createMixer]
    split <;> rfl
  | initMixer id =>
    change (s.initMixer id).written = _
    rw [initMixer]
    split <;> rfl
  | deleteMixer id =>
    change (s.deleteMixer id).written = _
    rw [deleteMixer]
    split <;> rfl
  | createPrivate id target name =>
    change (s.createPrivate id target name).written = _
    rw [createPrivate]
    split <;> rfl
  | initPrivate id =>
    change (s.initPrivate id).written = _
    rw [initPrivate]
    split <;> rfl
  | deletePrivate id =>
    change (s.deletePrivate id).written = _
    rw [deletePrivate]
    split <;> rfl
  | sendText id text => rfl
  | sendPrivate id text => rfl
  | mixText waited => exact absurd rfl (h waited)

theorem routed_init : Routed {} where
  kept _ _ _ _ h := absurd h (Option.some_ne_none _).symm
  sources _ _ _ _ h := absurd h (Option.some_ne_none _).symm
  privates _ _ _ h := absurd h (Option.some_ne_none _).symm

end McuMediaServer.TextMixer
