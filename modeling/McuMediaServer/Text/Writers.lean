import McuMediaServer.Text.Worker
import Mathlib.Algebra.Order.BigOperators.Group.List
import Mathlib.Algebra.Order.Group.Nat

/-!
# The writers of a worker

What an operation leaves of the writers of a worker: whose text the writer of an id writes
(`owner?`), which only `addWritter` and `removeWritter` change, and that the current writer is one
of them (`Held`).
-/

namespace McuMediaServer.TextMixerWorker

open Amf (WString)

variable {τ : Type*}

/-! ## Who the writers are -/

/-- Whose text the writer of an id writes. -/
def owner? (s : TextMixerWorker τ) (id : TextId) : Option τ :=
  (SortedMap.get? id s.writters).map TextWritter.owner

theorem map_owner_modify {f : TextWritter τ → TextWritter τ} (hf : ∀ text, (f text).owner = text.owner)
    (id k : TextId) (writters : List (TextId × TextWritter τ)) :
    (SortedMap.get? k (SortedMap.modify id f writters)).map TextWritter.owner =
      (SortedMap.get? k writters).map TextWritter.owner := by
  rw [SortedMap.get?_modify]
  split
  · rw [Option.map_map]
    exact congrArg (Option.map · _) (funext hf)
  · rfl

theorem owner_remove (len : Nat) (text : TextWritter τ) : (text.remove len).owner = text.owner := rfl

theorem owner_spoke (cut : Cut) (text : TextWritter τ) : (text.spoke cut).owner = text.owner := rfl

theorem owner_stopWaiting (text : TextWritter τ) : text.stopWaiting.owner = text.owner := rfl

theorem owner_push (text : TextWritter τ) (data : WString) : (text.push data).owner = text.owner := by
  unfold TextWritter.push
  split <;> rfl

theorem owner_writeText (data pending : WString) (text : TextWritter τ) :
    (text.writeText pending data).owner = text.owner := by
  induction data generalizing pending text with
  | nil =>
    rw [TextWritter.writeText]
    split
    · rfl
    · exact owner_push text pending
  | cons c data ih =>
    rw [TextWritter.writeText]
    split
    · rw [ih]
      split
      · rfl
      · exact owner_push text pending
    · exact ih _ _

theorem map_owner_lookFor (waited : TextId → Nat) (current : Option TextId) (k : TextId)
    (writters : List (TextId × TextWritter τ)) (best : Candidate) :
    (SortedMap.get? k (lookFor waited current writters best).1).map TextWritter.owner =
      (SortedMap.get? k writters).map TextWritter.owner := by
  induction writters generalizing best with
  | nil => rfl
  | cons e writters ih =>
    rw [lookFor]
    split_ifs <;> simp only [SortedMap.get?_cons] <;> split <;> first | rfl | exact ih _

theorem get?_lookFor_current (waited : TextId → Nat) (id : TextId)
    (writters : List (TextId × TextWritter τ)) (best : Candidate) :
    SortedMap.get? id (lookFor waited (some id) writters best).1 = SortedMap.get? id writters := by
  induction writters generalizing best with
  | nil => rfl
  | cons e writters ih =>
    rw [lookFor]
    split_ifs with hpassed hrealtime hwaiting
    · simp only [SortedMap.get?_cons, ih]
    · simp only [SortedMap.get?_cons, ih]
    · have hne : id ≠ e.1 := fun heq => hpassed (.inl (congrArg some heq))
      simp only [SortedMap.get?_cons, ih, if_neg hne]
    · rfl

theorem orElse_eq {best : Candidate} {k id : TextId}
    (h : (best.orElse k).nextCurrentParticipant = some id) :
    best.nextCurrentParticipant = some id ∨ k = id := by
  rw [Candidate.orElse] at h
  split at h
  · exact .inr (Option.some.inj h)
  · exact .inl h

theorem offer_eq {best : Candidate} {k id : TextId} {waitingTime : Nat}
    (h : (best.offer k waitingTime).nextCurrentParticipant = some id) :
    best.nextCurrentParticipant = some id ∨ k = id := by
  rw [Candidate.offer] at h
  split at h
  · exact .inr (Option.some.inj h)
  · exact .inl h

variable {id : TextId}

theorem exists_of_lookFor (waited : TextId → Nat) (current : Option TextId)
    (writters : List (TextId × TextWritter τ)) (best : Candidate)
    (h : (lookFor waited current writters best).2.nextCurrentParticipant = some id) :
    best.nextCurrentParticipant = some id ∨ ∃ text, (id, text) ∈ writters ∧ text.textQueue ≠ [] := by
  induction writters generalizing best with
  | nil => exact .inl h
  | cons e writters ih =>
    have hlater (h : ∃ text, (id, text) ∈ writters ∧ text.textQueue ≠ []) :
        ∃ text, (id, text) ∈ e :: writters ∧ text.textQueue ≠ [] := by
      obtain ⟨text, hmem, htext⟩ := h
      exact ⟨text, List.mem_cons_of_mem _ hmem, htext⟩
    rw [lookFor] at h
    split_ifs at h with hpassed hrealtime hwaiting
    · exact (ih _ h).imp_right hlater
    all_goals rw [not_or] at hpassed
    · rcases ih _ h with hbest | hlaterOne
      · rcases (orElse_eq hbest).imp_left offer_eq with (hbest | rfl) | rfl
        · exact .inl hbest
        · exact .inr ⟨e.2, List.mem_cons_self, hpassed.2⟩
        · exact .inr ⟨e.2, List.mem_cons_self, hpassed.2⟩
      · exact .inr (hlater hlaterOne)
    · rcases ih _ h with hbest | hlaterOne
      · rcases orElse_eq hbest with hbest | rfl
        · exact .inl hbest
        · exact .inr ⟨e.2, List.mem_cons_self, hpassed.2⟩
      · exact .inr (hlater hlaterOne)
    · obtain rfl := Option.some.inj h
      exact .inr ⟨e.2, List.mem_cons_self, hpassed.2⟩

variable {waited : TextId → Nat}

theorem exists_of_nextToFlush {writters : List (TextId × TextWritter τ)}
    (h : (nextToFlush waited writters).nextCurrentParticipant = some id) :
    ∃ text, (id, text) ∈ writters ∧ text.textQueue ≠ [] := by
  induction writters using List.reverseRecOn with
  | nil => cases h
  | append_singleton writters e ih =>
    have hbefore (h : (nextToFlush waited writters).nextCurrentParticipant = some id) :
        ∃ text, (id, text) ∈ writters ++ [e] ∧ text.textQueue ≠ [] := by
      obtain ⟨text, hmem, htext⟩ := ih h
      exact ⟨text, List.mem_append_left _ hmem, htext⟩
    have hlast : e.2.textQueue ≠ [] → e.1 = id →
        ∃ text, (id, text) ∈ writters ++ [e] ∧ text.textQueue ≠ [] := by
      rintro htext rfl
      exact ⟨e.2, List.mem_append_right _ (List.mem_singleton_self e), htext⟩
    rw [nextToFlush, List.foldl_concat, ← nextToFlush] at h
    split_ifs at h with hempty hwaiting
    · exact hbefore h
    · rcases (offer_eq h).imp_left orElse_eq with (h | h) | h
      · exact hbefore h
      · exact hlast hempty h
      · exact hlast hempty h
    · exact (orElse_eq h).elim hbefore (hlast hempty)

/-! ## The current writer -/

/-- The current writer is one of the writers. -/
def Held (s : TextMixerWorker τ) : Prop :=
  ∀ id, s.currentWritter = some id → (s.owner? id).isSome

variable {s t : TextMixerWorker τ}

variable {text : TextWritter τ}

theorem current?_eq_some (h : s.current? = some (id, text)) :
    s.currentWritter = some id ∧ SortedMap.get? id s.writters = some text := by
  obtain ⟨k, hk, hget⟩ := Option.bind_eq_some_iff.1 h
  obtain ⟨text', htext, heq⟩ := Option.map_eq_some_iff.1 hget
  cases heq
  exact ⟨hk, htext⟩

theorem owner?_eq (h : SortedMap.get? id s.writters = some text) : s.owner? id = some text.owner := by
  rw [owner?, h, Option.map_some]

theorem isSome_owner? : (s.owner? id).isSome ↔ id ∈ s.writters.map Prod.fst := by
  rw [owner?, Option.isSome_map, SortedMap.isSome_get?]

theorem Held.currentWritter_eq_none (h : s.Held) (hnone : s.current? = none) :
    s.currentWritter = none := by
  rcases hid : s.currentWritter with _ | id
  · rfl
  · have hsome := h id hid
    rw [owner?, Option.isSome_map] at hsome
    rw [current?, hid, Option.bind_some, Option.map_eq_none_iff] at hnone
    rw [hnone] at hsome
    cases hsome

theorem held_of_none (h : s.currentWritter = none) : s.Held :=
  fun id hid => absurd (h.symm.trans hid) (Option.some_ne_none id).symm

theorem Held.of_owner? (h : s.Held) (hcurrent : t.currentWritter = s.currentWritter)
    (howner : ∀ id, s.currentWritter = some id → t.owner? id = s.owner? id) : t.Held := by
  intro id hid
  rw [howner id (hcurrent ▸ hid)]
  exact h id (hcurrent ▸ hid)

@[simp]
theorem owner?_writeText (id k : TextId) (data : WString) :
    (s.writeText id data).owner? k = s.owner? k :=
  map_owner_modify (owner_writeText data []) ..

@[simp]
theorem owner?_speak (id k : TextId) (text : TextWritter τ) (cut : Cut) :
    (s.speak id text cut).owner? k = s.owner? k :=
  map_owner_modify (owner_spoke cut) ..

@[simp]
theorem owner?_switchTo (next : Option TextId) (message : Bool) (k : TextId) :
    (s.switchTo next message).owner? k = s.owner? k := by
  rw [switchTo]
  split
  · rfl
  · split
    · rfl
    · split
      · exact map_owner_modify owner_stopWaiting ..
      · rfl

@[simp]
theorem owner?_flushCurrent (id k : TextId) (text : TextWritter τ) :
    (s.flushCurrent id text).owner? k = s.owner? k := by
  rw [flushCurrent]
  split
  · rfl
  · exact map_owner_modify (owner_remove _) ..

theorem owner?_addWritter (owner : τ) (id k : TextId) (name : WString) (realtime : Bool) :
    (s.addWritter owner id name realtime).owner? k =
      if k = id ∧ s.owner? id = none then some owner else s.owner? k := by
  rw [addWritter, ← Option.isSome_map, ← owner?]
  split
  case isTrue hsome =>
    rw [if_neg]
    rintro ⟨-, hnone⟩
    rw [hnone] at hsome
    cases hsome
  case isFalse hnone =>
    rw [Option.not_isSome_iff_eq_none] at hnone
    rw [owner?, owner?, SortedMap.get?_set]
    by_cases hk : k = id
    · rw [if_pos hk, if_pos ⟨hk, hnone⟩, Option.map_some]
    · rw [if_neg hk, if_neg fun h => hk h.1, owner?]

theorem owner?_removeWritter (id k : TextId) :
    (s.removeWritter id).owner? k = if k = id then none else s.owner? k := by
  rw [removeWritter]
  split
  case isTrue hnone =>
    rw [Option.isNone_iff_eq_none] at hnone
    split
    case isTrue hk => rw [hk, owner?, hnone, Option.map_none]
    case isFalse => rfl
  case isFalse =>
    have hfilter (t : TextMixerWorker τ) :
        owner? { t with writters := t.writters.filter fun e => e.1 ≠ id } k =
          if k = id then none else t.owner? k := by
      rw [owner?, SortedMap.get?_filter (fun k => k ≠ id)]
      by_cases hk : k = id
      · rw [if_pos hk, if_neg (by simpa using hk), Option.map_none]
      · rw [if_neg hk, if_pos (by simpa using hk), owner?]
    dsimp only
    split
    · exact hfilter _
    · exact hfilter s

@[simp]
theorem owner?_processText (waited : TextId → Nat) (k : TextId) :
    (s.processText waited).owner? k = s.owner? k := by
  have hfound := map_owner_lookFor waited s.currentWritter k s.writters {}
  unfold processText
  generalize lookFor waited s.currentWritter s.writters {} = found at hfound
  dsimp only
  split
  · exact (owner?_switchTo ..).trans hfound
  · split
    · split
      · exact (owner?_switchTo ..).trans hfound
      · exact hfound
    · split
      · exact (owner?_switchTo ..).trans ((owner?_speak ..).trans hfound)
      · exact (owner?_speak ..).trans hfound

theorem held_switchTo {next : Option TextId} {message : Bool} (h : s.Held)
    (hnext : ∀ id, next = some id → (s.owner? id).isSome) : (s.switchTo next message).Held := by
  have howner (id : TextId) : (s.switchTo next message).owner? id = s.owner? id := owner?_switchTo ..
  have hcurrent : (s.switchTo next message).currentWritter = next ∨
      (s.switchTo next message).currentWritter = s.currentWritter := by
    rw [switchTo]
    split
    · exact .inr rfl
    · split
      · exact .inl rfl
      · split
        · exact .inl rfl
        · exact .inr rfl
  intro id hid
  rw [howner]
  rcases hcurrent with heq | heq
  · exact hnext id (heq ▸ hid)
  · exact h id (heq ▸ hid)

theorem isSome_owner?_lookFor
    (h : (lookFor waited s.currentWritter s.writters {}).2.nextCurrentParticipant = some id) :
    (s.owner? id).isSome := by
  rcases exists_of_lookFor waited s.currentWritter s.writters {} h with h | ⟨text, hmem, -⟩
  · cases h
  · exact isSome_owner?.2 (List.mem_map_of_mem hmem)

theorem held_processText (h : s.Held) : (s.processText waited).Held := by
  have hfound (k : TextId) := map_owner_lookFor waited s.currentWritter k s.writters {}
  have hsome (id : TextId) := @isSome_owner?_lookFor _ id waited s
  unfold processText
  generalize lookFor waited s.currentWritter s.writters {} = found at hfound hsome
  dsimp only
  have hheld : Held { s with writters := found.1 } := h.of_owner? rfl fun id _ => hfound id
  have hnext (id : TextId) (hid : found.2.nextCurrentParticipant = some id) :
      (({ s with writters := found.1 } : TextMixerWorker τ).owner? id).isSome := by
    rw [owner?, hfound]
    exact hsome id hid
  split
  · exact held_switchTo hheld hnext
  · split
    · split
      · exact held_switchTo hheld hnext
      · exact hheld
    · have hspoken (id : TextId) (text : TextWritter τ) (cut : Cut) :
          (speak { s with writters := found.1 } id text cut).Held :=
        hheld.of_owner? rfl fun k _ => owner?_speak ..
      split
      · refine held_switchTo (hspoken _ _ _) fun k hk => ?_
        rw [owner?_speak]
        exact hnext k hk
      · exact hspoken _ _ _

theorem held_flushRound (h : s.Held) : (s.flushRound waited).Held := by
  unfold flushRound
  split
  · exact h
  · intro id hid
    obtain ⟨text, hmem, -⟩ := exists_of_nextToFlush hid
    exact isSome_owner?.2 (List.mem_map_of_mem hmem)

theorem held_flushLoop {waited : Nat → TextId → Nat} {rounds : Nat} (h : s.Held) :
    (flushLoop waited rounds s).Held := by
  induction rounds generalizing s with
  | zero => exact h
  | succ rounds ih =>
    rw [flushLoop]
    split
    · exact h
    · exact ih (held_flushRound h)

theorem held_step {op : Operation τ} (h : s.Held) : (s.step op).Held := by
  cases op with
  | addWritter owner id name realtime =>
    intro k hk
    have hcurrent : (s.addWritter owner id name realtime).currentWritter = s.currentWritter := by
      rw [addWritter]
      split <;> rfl
    change ((s.addWritter owner id name realtime).owner? k).isSome
    rw [owner?_addWritter]
    split
    · rfl
    · exact h k (hcurrent ▸ hk)
  | writeText id data => exact h.of_owner? rfl fun _ _ => owner?_writeText ..
  | removeWritter id =>
    intro k hk
    have hcurrent : (s.removeWritter id).currentWritter = some k →
        k ≠ id ∧ s.currentWritter = some k ∨ SortedMap.get? id s.writters = none := by
      rw [removeWritter]
      split
      case isTrue hnone => exact fun _ => .inr (Option.isNone_iff_eq_none.1 hnone)
      case isFalse =>
        dsimp only
        split
        case isTrue => exact fun hk => absurd hk (Option.some_ne_none k).symm
        case isFalse hne =>
          intro hk'
          refine .inl ⟨?_, hk'⟩
          rintro rfl
          exact hne hk'
    change ((s.removeWritter id).owner? k).isSome
    rcases hcurrent hk with ⟨hne, hk⟩ | hnone
    · rw [owner?_removeWritter, if_neg hne]
      exact h k hk
    · have hsame : s.removeWritter id = s := if_pos (Option.isNone_iff_eq_none.2 hnone)
      rw [hsame]
      exact h k (hsame ▸ hk)
  | addReader id =>
    change (s.addReader id).Held
    rw [addReader]
    split <;> exact h
  | removeReader id => exact h
  | processText waited => exact held_processText h
  | flushText waited => exact held_flushLoop h

/-! ## The flush ends -/

theorem keys_lookFor (waited : TextId → Nat) (current : Option TextId)
    (writters : List (TextId × TextWritter τ)) (best : Candidate) :
    (lookFor waited current writters best).1.map Prod.fst = writters.map Prod.fst := by
  induction writters generalizing best with
  | nil => rfl
  | cons e writters ih =>
    rw [lookFor]
    split_ifs
    · exact congrArg (e.1 :: ·) (ih _)
    · exact congrArg (e.1 :: ·) (ih _)
    · exact congrArg (e.1 :: ·) (ih _)
    · rfl

theorem keys_switchTo (next : Option TextId) (message : Bool) :
    (s.switchTo next message).writters.map Prod.fst = s.writters.map Prod.fst := by
  rw [switchTo]
  split
  · rfl
  · split
    · rfl
    · split
      · exact SortedMap.keys_modify ..
      · rfl

theorem keys_processText (waited : TextId → Nat) :
    (s.processText waited).writters.map Prod.fst = s.writters.map Prod.fst := by
  have hfound := keys_lookFor waited s.currentWritter s.writters {}
  unfold processText
  generalize lookFor waited s.currentWritter s.writters {} = found at hfound
  dsimp only
  split
  · exact (keys_switchTo ..).trans hfound
  · split
    · split
      · exact (keys_switchTo ..).trans hfound
      · exact hfound
    · split
      · exact (keys_switchTo ..).trans ((SortedMap.keys_modify ..).trans hfound)
      · exact (SortedMap.keys_modify ..).trans hfound

theorem keys_flushRound (waited : TextId → Nat) :
    (s.flushRound waited).writters.map Prod.fst = s.writters.map Prod.fst := by
  unfold flushRound
  split
  · rfl
  · dsimp only
    rw [flushCurrent]
    split
    · rfl
    · exact SortedMap.keys_modify ..

theorem keys_flushLoop (waited : Nat → TextId → Nat) (rounds : Nat) :
    (flushLoop waited rounds s).writters.map Prod.fst = s.writters.map Prod.fst := by
  induction rounds generalizing s with
  | zero => rfl
  | succ rounds ih =>
    rw [flushLoop]
    split
    · rfl
    · exact ih.trans (keys_flushRound _)

theorem sorted_step {op : Operation τ} (h : SortedMap.Sorted s.writters) :
    SortedMap.Sorted (s.step op).writters := by
  cases op with
  | addWritter owner id name realtime =>
    change SortedMap.Sorted (s.addWritter owner id name realtime).writters
    rw [addWritter]
    split
    · exact h
    · exact h.set _ _
  | writeText id data => exact h.of_keys (SortedMap.keys_modify ..)
  | removeWritter id =>
    change SortedMap.Sorted (s.removeWritter id).writters
    rw [removeWritter]
    split
    · exact h
    · dsimp only
      split <;> exact h.filter _
  | addReader id =>
    change SortedMap.Sorted (s.addReader id).writters
    rw [addReader]
    split <;> exact h
  | removeReader id => exact h
  | processText waited => exact h.of_keys (keys_processText waited)
  | flushText waited => exact h.of_keys (keys_flushLoop waited _)

theorem queued_modify_lt {len : Nat} (hlen : 0 < len)
    (hget : SortedMap.get? id s.writters = some text) (htext : text.textQueue ≠ []) :
    queued { s with writters := SortedMap.modify id (TextWritter.remove len) s.writters } <
      s.queued := by
  have hmem := SortedMap.mem_of_get? hget
  rw [queued, queued, SortedMap.modify, List.map_map]
  refine List.sum_lt_sum _ _ (fun e _ => ?_) ⟨(id, text), hmem, ?_⟩
  · rw [Function.comp_apply]
    split
    · exact List.length_drop ▸ Nat.sub_le ..
    · exact Nat.le_refl _
  · rw [Function.comp_apply, if_pos rfl]
    have hpos := List.length_pos_iff.2 htext
    exact List.length_drop ▸ Nat.sub_lt hpos hlen

theorem exists_current?_flushRound (hsorted : SortedMap.Sorted s.writters)
    {current : TextId × TextWritter τ} (h : (s.flushRound waited).current? = some current)
    (hsome : s.current? ≠ none) : current.2.textQueue ≠ [] := by
  have hkeys := hsorted.of_keys (keys_flushRound waited)
  obtain ⟨hid, hget⟩ := current?_eq_some h
  obtain ⟨⟨id, text⟩, hcurrent⟩ := Option.ne_none_iff_exists'.1 hsome
  rw [flushRound, hcurrent] at hid hget hkeys
  obtain ⟨text', hmem, htext⟩ := exists_of_nextToFlush hid
  have hget' := hkeys.get?_of_mem hmem
  obtain rfl := Option.some.inj (hget.symm.trans hget')
  exact htext

theorem flushLoop_ends {waited : Nat → TextId → Nat} {rounds : Nat} (hheld : s.Held)
    (hsorted : SortedMap.Sorted s.writters)
    (htext : ∀ current ∈ s.current?, current.2.textQueue ≠ []) (hrounds : s.queued < rounds) :
    (flushLoop waited rounds s).currentWritter = none := by
  induction rounds generalizing s with
  | zero => exact absurd hrounds (Nat.not_lt_zero _)
  | succ rounds ih =>
    rw [flushLoop]
    split
    case isTrue hnone => exact Option.isNone_iff_eq_none.1 hnone
    case isFalse hsome =>
      rcases hcurrent : s.current? with _ | ⟨id, text⟩
      · exact absurd (Option.isNone_iff_eq_none.2 (hheld.currentWritter_eq_none hcurrent)) hsome
      · have hne : s.current? ≠ none := hcurrent ▸ Option.some_ne_none _
        refine ih (held_flushRound hheld) (hsorted.of_keys (keys_flushRound _))
          (fun current h => exists_current?_flushRound hsorted h hne) ?_
        have hlen : 0 < size - maxLabelSize := by decide
        have hlt := queued_modify_lt hlen
          (current?_eq_some hcurrent).2 (htext _ hcurrent)
        have hqueued : (s.flushRound (waited rounds)).queued =
            queued { s with
              writters :=
                SortedMap.modify id (TextWritter.remove (size - maxLabelSize)) s.writters } := by
          unfold flushRound
          rw [hcurrent]
          dsimp only
          rw [flushCurrent, if_neg (htext _ hcurrent)]
          rfl
        omega

/-- **The flush ends.** It leaves no current writer, within as many rounds as there are characters
queued, and two. -/
theorem flushText_currentWritter {waited : Nat → TextId → Nat} (hheld : s.Held)
    (hsorted : SortedMap.Sorted s.writters) : (s.flushText waited).currentWritter = none := by
  rw [flushText, flushLoop]
  split
  case isTrue hnone => exact Option.isNone_iff_eq_none.1 hnone
  case isFalse hsome =>
    have hne : s.current? ≠ none := fun hnone =>
      hsome (Option.isNone_iff_eq_none.2 (hheld.currentWritter_eq_none hnone))
    refine flushLoop_ends (held_flushRound hheld) (hsorted.of_keys (keys_flushRound _))
      (fun current h => exists_current?_flushRound hsorted h hne) (Nat.lt_succ_of_le ?_)
    rcases hcurrent : s.current? with _ | ⟨id, text⟩
    · exact absurd hcurrent hne
    · unfold flushRound
      rw [hcurrent]
      dsimp only
      rw [flushCurrent]
      split
      case isTrue => exact Nat.le_refl _
      case isFalse htext =>
        exact (queued_modify_lt (by decide) (current?_eq_some hcurrent).2 htext).le

/-- In every run the loop over the queues ends, with nobody left who has text. -/
theorem flush_ends (ops : List (Operation τ)) (waited : Nat → TextId → Nat) :
    ((StepRun.run step {} ops).flushText waited).currentWritter = none := by
  have hinit : ({} : TextMixerWorker τ).Held ∧ SortedMap.Sorted ({} : TextMixerWorker τ).writters :=
    ⟨held_of_none rfl, List.Pairwise.nil⟩
  have hinv := StepRun.invariant_of_meets (C := fun _ _ => True)
    (I := fun _ (t : TextMixerWorker τ) => t.Held ∧ SortedMap.Sorted t.writters) hinit
    (fun _ _ h _ => ⟨held_step h.1, sorted_step h.2⟩) ops
    (StepRun.meets_of_forall (fun _ _ => trivial) ops)
  exact flushText_currentWritter hinv.1 hinv.2

end McuMediaServer.TextMixerWorker
