import Mathlib.Logic.Function.Basic
import Mathlib.Data.List.Basic
import Mathlib.Tactic.Common

/-!
# Subscriptions stored on both sides

Sources keep the consumers that are registered with them, and consumers keep a pointer to the source
they are joined to, one for each kind of thing a source can deliver. The two sides are separate
data, and both the sources and the consumers come and go. `Subscriptions` is the memory that holds
them: an object that is not there is `none`, and an operation that touches such an object fails.

`Lawful` says that the two sides tell the same story: a pointer of a kind leads to a source exactly
if the source is of that kind and the consumer is registered with it. The operations are given by
what they do to the two relations `Registered` and `Joined`, and keep `Lawful` by these alone.
-/

/-- Sources with the consumers registered with them, and consumers with a pointer for each kind. -/
structure Subscriptions (S C K : Type*) where
  listeners : S → Option (List C)
  joined : C → Option (K → Option S)

namespace Subscriptions

variable {S C K : Type*}

/-- There is nothing. -/
def empty : Subscriptions S C K where
  listeners _ := none
  joined _ := none

section Relations

variable (g : Subscriptions S C K)

/-- The source exists. -/
def SourceAlive (s : S) : Prop := (g.listeners s).isSome

/-- The consumer exists. -/
def ConsumerAlive (c : C) : Prop := (g.joined c).isSome

instance (c : C) : Decidable (g.ConsumerAlive c) :=
  inferInstanceAs (Decidable (_ = true))

/-- The source exists and has the consumer among its listeners. -/
def Registered (s : S) (c : C) : Prop := ∃ ls, g.listeners s = some ls ∧ c ∈ ls

/-- The consumer exists and its pointer of kind `k` is the source. -/
def Joined (c : C) (k : K) (s : S) : Prop := ∃ f, g.joined c = some f ∧ f k = some s

end Relations

theorem Registered.alive {g : Subscriptions S C K} {s : S} {c : C} (h : g.Registered s c) :
    g.SourceAlive s := by
  obtain ⟨ls, hls, -⟩ := h
  simp [SourceAlive, hls]

theorem Joined.alive {g : Subscriptions S C K} {c : C} {k : K} {s : S} (h : g.Joined c k s) :
    g.ConsumerAlive c := by
  obtain ⟨f, hf, -⟩ := h
  simp [ConsumerAlive, hf]

section Congruence

variable {g g' : Subscriptions S C K}

/-- The objects of two memories are the same. -/
structure SameObjects (g g' : Subscriptions S C K) : Prop where
  sourceAlive : ∀ s, g'.SourceAlive s ↔ g.SourceAlive s
  consumerAlive : ∀ c, g'.ConsumerAlive c ↔ g.ConsumerAlive c

theorem SameObjects.trans {g'' : Subscriptions S C K}
    (h : SameObjects g g')
    (h' : SameObjects g' g'') : SameObjects g g'' where
  sourceAlive s := (h'.sourceAlive s).trans (h.sourceAlive s)
  consumerAlive c := (h'.consumerAlive c).trans (h.consumerAlive c)

theorem consumerAlive_congr (h : g'.joined = g.joined) (c : C) :
    g'.ConsumerAlive c ↔ g.ConsumerAlive c := by
  rw [ConsumerAlive, ConsumerAlive, h]

theorem joined_congr (h : g'.joined = g.joined) (c : C) (k : K) (s : S) :
    g'.Joined c k s ↔ g.Joined c k s := by
  rw [Joined, Joined, h]

theorem sourceAlive_congr (h : g'.listeners = g.listeners) (s : S) :
    g'.SourceAlive s ↔ g.SourceAlive s := by
  rw [SourceAlive, SourceAlive, h]

theorem registered_congr (h : g'.listeners = g.listeners) (s : S) (c : C) :
    g'.Registered s c ↔ g.Registered s c := by
  rw [Registered, Registered, h]

end Congruence

/-- The two sides agree. A pointer of kind `k` leads to a source exactly if the source is of this
kind and has the consumer registered, and a consumer that reacts to the end of its source by
clearing the pointer `slot` has no other pointer. -/
structure Lawful (kind : S → K) (slot : C → Option K) (g : Subscriptions S C K) : Prop where
  joined_iff : ∀ c k s, g.Joined c k s ↔ g.Registered s c ∧ kind s = k
  slot_eq : ∀ c k s k', g.Joined c k s → slot c = some k' → k = k'

theorem lawful_empty (kind : S → K) (slot : C → Option K) :
    (empty : Subscriptions S C K).Lawful kind slot where
  joined_iff c k s := by simp [Joined, Registered, empty]
  slot_eq c k s k' h := by simp [Joined, empty] at h

section Lawful

variable {kind : S → K} {slot : C → Option K} {g : Subscriptions S C K}

theorem Lawful.sourceAlive (h : g.Lawful kind slot) {c : C} {k : K} {s : S} (hj : g.Joined c k s) :
    g.SourceAlive s :=
  ((h.joined_iff c k s).1 hj).1.alive

theorem Lawful.consumerAlive (h : g.Lawful kind slot) {s : S} {c : C} (hr : g.Registered s c) :
    g.ConsumerAlive c :=
  ((h.joined_iff c (kind s) s).2 ⟨hr, rfl⟩).alive

theorem Lawful.registered_iff (h : g.Lawful kind slot) (s : S) (c : C) :
    g.Registered s c ↔ ∃ k, g.Joined c k s := by
  constructor
  · exact fun hr => ⟨kind s, (h.joined_iff c (kind s) s).2 ⟨hr, rfl⟩⟩
  · rintro ⟨k, hj⟩
    exact ((h.joined_iff c k s).1 hj).1

theorem Lawful.of_iff {g' : Subscriptions S C K} (h : g.Lawful kind slot)
    (hr : ∀ s c, g'.Registered s c ↔ g.Registered s c)
    (hj : ∀ c k s, g'.Joined c k s ↔ g.Joined c k s) : g'.Lawful kind slot where
  joined_iff c k s := by rw [hj, hr, h.joined_iff]
  slot_eq c k s k' hjoin := h.slot_eq c k s k' ((hj c k s).1 hjoin)

end Lawful

/-! ## Creating and freeing objects -/

section Sources

variable [DecidableEq S]

/-- A source without listeners is created. -/
def newSource (g : Subscriptions S C K) (s : S) : Subscriptions S C K :=
  { g with listeners := Function.update g.listeners s (some []) }

/-- The source is gone, with its list of listeners. -/
def freeSource (g : Subscriptions S C K) (s : S) : Subscriptions S C K :=
  { g with listeners := Function.update g.listeners s none }

variable (g : Subscriptions S C K) (s s' : S) (c : C) (k : K)

@[simp]
theorem sourceAlive_newSource :
    (g.newSource s).SourceAlive s' ↔ s' = s ∨ g.SourceAlive s' := by
  rcases eq_or_ne s' s with rfl | hne <;> simp [SourceAlive, newSource, *]

@[simp]
theorem consumerAlive_newSource :
    (g.newSource s).ConsumerAlive c ↔ g.ConsumerAlive c := Iff.rfl

@[simp]
theorem joined_newSource : (g.newSource s).Joined c k s' ↔ g.Joined c k s' := Iff.rfl

@[simp]
theorem registered_newSource :
    (g.newSource s).Registered s' c ↔ s' ≠ s ∧ g.Registered s' c := by
  rcases eq_or_ne s' s with rfl | hne <;> simp [Registered, newSource, *]

@[simp]
theorem sourceAlive_freeSource :
    (g.freeSource s).SourceAlive s' ↔ s' ≠ s ∧ g.SourceAlive s' := by
  rcases eq_or_ne s' s with rfl | hne <;> simp [SourceAlive, freeSource, *]

@[simp]
theorem consumerAlive_freeSource :
    (g.freeSource s).ConsumerAlive c ↔ g.ConsumerAlive c := Iff.rfl

@[simp]
theorem joined_freeSource : (g.freeSource s).Joined c k s' ↔ g.Joined c k s' := Iff.rfl

@[simp]
theorem registered_freeSource :
    (g.freeSource s).Registered s' c ↔ s' ≠ s ∧ g.Registered s' c := by
  rcases eq_or_ne s' s with rfl | hne <;> simp [Registered, freeSource, *]

end Sources

section Consumers

variable [DecidableEq C]

/-- A consumer that is joined to nothing is created. -/
def newConsumer (g : Subscriptions S C K) (c : C) : Subscriptions S C K :=
  { g with joined := Function.update g.joined c (some fun _ => none) }

/-- The consumer is gone, with its pointers. -/
def freeConsumer (g : Subscriptions S C K) (c : C) : Subscriptions S C K :=
  { g with joined := Function.update g.joined c none }

variable (g : Subscriptions S C K) (s : S) (c c' : C) (k : K)

@[simp]
theorem sourceAlive_newConsumer :
    (g.newConsumer c).SourceAlive s ↔ g.SourceAlive s := Iff.rfl

@[simp]
theorem consumerAlive_newConsumer :
    (g.newConsumer c).ConsumerAlive c' ↔ c' = c ∨ g.ConsumerAlive c' := by
  rcases eq_or_ne c' c with rfl | hne <;> simp [ConsumerAlive, newConsumer, *]

@[simp]
theorem registered_newConsumer :
    (g.newConsumer c).Registered s c' ↔ g.Registered s c' := Iff.rfl

@[simp]
theorem joined_newConsumer :
    (g.newConsumer c).Joined c' k s ↔ c' ≠ c ∧ g.Joined c' k s := by
  rcases eq_or_ne c' c with rfl | hne <;> simp [Joined, newConsumer, *]

@[simp]
theorem sourceAlive_freeConsumer :
    (g.freeConsumer c).SourceAlive s ↔ g.SourceAlive s := Iff.rfl

@[simp]
theorem consumerAlive_freeConsumer :
    (g.freeConsumer c).ConsumerAlive c' ↔ c' ≠ c ∧ g.ConsumerAlive c' := by
  rcases eq_or_ne c' c with rfl | hne <;> simp [ConsumerAlive, freeConsumer, *]

@[simp]
theorem registered_freeConsumer :
    (g.freeConsumer c).Registered s c' ↔ g.Registered s c' := Iff.rfl

@[simp]
theorem joined_freeConsumer :
    (g.freeConsumer c).Joined c' k s ↔ c' ≠ c ∧ g.Joined c' k s := by
  rcases eq_or_ne c' c with rfl | hne <;> simp [Joined, freeConsumer, *]

end Consumers

/-! ## Registering and joining -/

section Registering

variable [DecidableEq S] [DecidableEq C]

/-- The source registers the consumer. -/
def addListener (g : Subscriptions S C K) (s : S) (c : C) : Option (Subscriptions S C K) :=
  (g.listeners s).map fun ls =>
    { g with listeners := Function.update g.listeners s (some (List.insert c ls)) }

/-- The source forgets the consumer. -/
def removeListener (g : Subscriptions S C K) (s : S) (c : C) : Option (Subscriptions S C K) :=
  (g.listeners s).map fun ls =>
    { g with listeners := Function.update g.listeners s (some (List.filter (· ≠ c) ls)) }

/-- The consumer leaves the source its pointer of kind `k` leads to, if any. -/
def leave (g : Subscriptions S C K) (c : C) (k : K) : Option (Subscriptions S C K) :=
  (g.joined c).bind fun f =>
    match f k with
    | none => some g
    | some s => g.removeListener s c

variable {g g' : Subscriptions S C K} {s : S} {c : C} {k : K}

theorem exists_addListener (h : g.SourceAlive s) : ∃ g', g.addListener s c = some g' := by
  obtain ⟨ls, hls⟩ := Option.isSome_iff_exists.1 h
  exact ⟨_, Option.map_eq_some_iff.2 ⟨ls, hls, rfl⟩⟩

theorem exists_removeListener (h : g.SourceAlive s) : ∃ g', g.removeListener s c = some g' := by
  obtain ⟨ls, hls⟩ := Option.isSome_iff_exists.1 h
  exact ⟨_, Option.map_eq_some_iff.2 ⟨ls, hls, rfl⟩⟩

theorem addListener_spec (h : g.addListener s c = some g') :
    g'.joined = g.joined ∧ (∀ s', g'.SourceAlive s' ↔ g.SourceAlive s') ∧
      ∀ s' c', g'.Registered s' c' ↔ g.Registered s' c' ∨ (s' = s ∧ c' = c) := by
  simp only [addListener, Option.map_eq_some_iff] at h
  obtain ⟨ls, hls, rfl⟩ := h
  refine ⟨rfl, fun s' => ?_, fun s' c' => ?_⟩
  · rcases eq_or_ne s' s with rfl | hne <;> simp [SourceAlive, *]
  · rcases eq_or_ne s' s with rfl | hne
    · simp [Registered, hls, List.mem_insert_iff, or_comm]
    · simp [Registered, hne]

theorem removeListener_spec (h : g.removeListener s c = some g') :
    g'.joined = g.joined ∧ (∀ s', g'.SourceAlive s' ↔ g.SourceAlive s') ∧
      ∀ s' c', g'.Registered s' c' ↔ g.Registered s' c' ∧ ¬(s' = s ∧ c' = c) := by
  simp only [removeListener, Option.map_eq_some_iff] at h
  obtain ⟨ls, hls, rfl⟩ := h
  refine ⟨rfl, fun s' => ?_, fun s' c' => ?_⟩
  · rcases eq_or_ne s' s with rfl | hne <;> simp [SourceAlive, *]
  · rcases eq_or_ne s' s with rfl | hne
    · simp [Registered, hls]
    · simp [Registered, hne]

theorem leave_spec (h : g.leave c k = some g') :
    g'.joined = g.joined ∧ (∀ s', g'.SourceAlive s' ↔ g.SourceAlive s') ∧
      ∀ s' c', g'.Registered s' c' ↔ g.Registered s' c' ∧ ¬(c' = c ∧ g.Joined c k s') := by
  simp only [leave, Option.bind_eq_some_iff] at h
  obtain ⟨f, hf, h⟩ := h
  have hjoined : ∀ s', g.Joined c k s' ↔ f k = some s' := fun s' => by simp [Joined, hf]
  cases hk : f k with
  | none =>
    rw [hk] at h
    obtain rfl : g = g' := by simpa using h
    exact ⟨rfl, fun _ => Iff.rfl, fun s' c' => by simp [hjoined, hk]⟩
  | some s =>
    rw [hk] at h
    obtain ⟨hj, ha, hr⟩ := removeListener_spec h
    refine ⟨hj, ha, fun s' c' => ?_⟩
    rw [hr, hjoined, hk, Option.some.injEq]
    grind

theorem exists_leave (hc : g.ConsumerAlive c) (hs : ∀ s, g.Joined c k s → g.SourceAlive s) :
    ∃ g', g.leave c k = some g' := by
  obtain ⟨f, hf⟩ := Option.isSome_iff_exists.1 hc
  cases hk : f k with
  | none => exact ⟨g, by simp [leave, hf, hk]⟩
  | some s =>
    obtain ⟨g', hg'⟩ := exists_removeListener (c := c) (hs s ⟨f, hf, hk⟩)
    exact ⟨g', by simp [leave, hf, hk, hg']⟩

end Registering

section Joining

variable [DecidableEq C] [DecidableEq K]

/-- The consumer sets its pointer of kind `k`. -/
def setJoined (g : Subscriptions S C K) (c : C) (k : K) (join : Option S) :
    Option (Subscriptions S C K) :=
  (g.joined c).map fun f =>
    { g with joined := Function.update g.joined c (some (Function.update f k join)) }

/-- The consumer is told that its source ends: it clears the pointer `slot`, or ignores the call
when it has none. -/
def endStream (slot : C → Option K) (g : Subscriptions S C K) (c : C) :
    Option (Subscriptions S C K) :=
  match slot c with
  | some k => g.setJoined c k none
  | none => (g.joined c).map fun _ => g

variable {g g' : Subscriptions S C K} {c : C} {k : K} {join : Option S} {slot : C → Option K}

theorem exists_setJoined (h : g.ConsumerAlive c) : ∃ g', g.setJoined c k join = some g' := by
  obtain ⟨f, hf⟩ := Option.isSome_iff_exists.1 h
  exact ⟨_, Option.map_eq_some_iff.2 ⟨f, hf, rfl⟩⟩

theorem setJoined_spec (h : g.setJoined c k join = some g') :
    g'.listeners = g.listeners ∧ (∀ c', g'.ConsumerAlive c' ↔ g.ConsumerAlive c') ∧
      ∀ c' k' s, g'.Joined c' k' s ↔
        if c' = c ∧ k' = k then join = some s else g.Joined c' k' s := by
  simp only [setJoined, Option.map_eq_some_iff] at h
  obtain ⟨f, hf, rfl⟩ := h
  refine ⟨rfl, fun c' => ?_, fun c' k' s => ?_⟩
  · rcases eq_or_ne c' c with rfl | hne <;> simp [ConsumerAlive, *]
  · rcases eq_or_ne c' c with rfl | hne
    · rcases eq_or_ne k' k with rfl | hk <;> simp [Joined, *]
    · simp [Joined, hne]

theorem endStream_spec (h : g.endStream slot c = some g') :
    g'.listeners = g.listeners ∧ (∀ c', g'.ConsumerAlive c' ↔ g.ConsumerAlive c') ∧
      ∀ c' k s, g'.Joined c' k s ↔ g.Joined c' k s ∧ ¬(c' = c ∧ slot c = some k) := by
  unfold endStream at h
  cases hslot : slot c with
  | none =>
    rw [hslot] at h
    obtain ⟨f, -, rfl⟩ := Option.map_eq_some_iff.1 h
    exact ⟨rfl, fun _ => Iff.rfl, fun c' k s => by simp⟩
  | some k₀ =>
    rw [hslot] at h
    obtain ⟨hl, ha, hj⟩ := setJoined_spec h
    refine ⟨hl, ha, fun c' k s => ?_⟩
    rw [hj]
    grind

theorem exists_endStream (hc : g.ConsumerAlive c) : ∃ g', g.endStream slot c = some g' := by
  unfold endStream
  cases slot c with
  | none =>
    obtain ⟨f, hf⟩ := Option.isSome_iff_exists.1 hc
    exact ⟨g, by simp [hf]⟩
  | some k => exact exists_setJoined hc

/-- Telling a list of consumers that the stream ends clears the pointers they keep for it. -/
theorem foldlM_endStream_spec {ls : List C} (h : ls.foldlM (endStream slot) g = some g') :
    g'.listeners = g.listeners ∧ (∀ c', g'.ConsumerAlive c' ↔ g.ConsumerAlive c') ∧
      ∀ c' k s, g'.Joined c' k s ↔ g.Joined c' k s ∧ ¬(c' ∈ ls ∧ slot c' = some k) := by
  induction ls generalizing g with
  | nil =>
    obtain rfl : g = g' := by simpa using h
    exact ⟨rfl, fun _ => Iff.rfl, fun c' k s => by simp⟩
  | cons c ls ih =>
    rw [List.foldlM_cons, Option.bind_eq_bind, Option.bind_eq_some_iff] at h
    obtain ⟨g₁, hend, hfold⟩ := h
    obtain ⟨hl₁, ha₁, hj₁⟩ := endStream_spec hend
    obtain ⟨hl, ha, hj⟩ := ih hfold
    refine ⟨hl.trans hl₁, fun c' => (ha c').trans (ha₁ c'), fun c' k s => ?_⟩
    rw [hj, hj₁]
    grind

theorem exists_foldlM_endStream {ls : List C} (h : ∀ c ∈ ls, g.ConsumerAlive c) :
    ∃ g', ls.foldlM (endStream slot) g = some g' := by
  induction ls generalizing g with
  | nil => exact ⟨g, rfl⟩
  | cons c ls ih =>
    obtain ⟨g₁, hend⟩ : ∃ g₁, g.endStream slot c = some g₁ := exists_endStream (h c (by simp))
    obtain ⟨-, ha₁, -⟩ := endStream_spec hend
    obtain ⟨g', hfold⟩ := ih fun c' hc' => (ha₁ c').2 (h c' (by simp [hc']))
    exact ⟨g', by rw [List.foldlM_cons, hend]; exact hfold⟩

end Joining

section Attaching

variable [DecidableEq S] [DecidableEq C] [DecidableEq K]

/-- The consumer leaves the source of its pointer of kind `k` and clears the pointer. -/
def detach (g : Subscriptions S C K) (c : C) (k : K) : Option (Subscriptions S C K) := do
  let g ← g.leave c k
  g.setJoined c k none

/-- The consumer leaves the source of its pointer of kind `k`, sets the pointer and registers with
the source it now leads to, if any. -/
def attach (g : Subscriptions S C K) (c : C) (k : K) (join : Option S) :
    Option (Subscriptions S C K) := do
  let g ← g.leave c k
  let g ← g.setJoined c k join
  match join with
  | none => some g
  | some s => g.addListener s c

/-- The source tells all its listeners that it ends, and is gone. -/
def destroySource (slot : C → Option K) (g : Subscriptions S C K) (s : S) :
    Option (Subscriptions S C K) :=
  (g.listeners s).bind fun ls => (ls.foldlM (endStream slot) g).map fun g => g.freeSource s

variable {g g' : Subscriptions S C K} {c : C} {k : K} {s : S} {join : Option S}
  {kind : S → K} {slot : C → Option K}

/-- What attaching does: the source the pointer led to forgets the consumer, the pointer leads to
the new source, and this one has the consumer registered. -/
theorem attach_spec (h : g.attach c k join = some g') :
    SameObjects g g' ∧
      (∀ c' k' s, g'.Joined c' k' s ↔ if c' = c ∧ k' = k then join = some s else g.Joined c' k' s) ∧
      ∀ s c', g'.Registered s c' ↔
        (g.Registered s c' ∧ ¬(c' = c ∧ g.Joined c k s)) ∨ (c' = c ∧ join = some s) := by
  simp only [attach, Option.bind_eq_bind, Option.bind_eq_some_iff] at h
  obtain ⟨g₁, hleave, g₂, hset, hadd⟩ := h
  obtain ⟨hj₁, hs₁, hr₁⟩ := leave_spec hleave
  obtain ⟨hl₂, hc₂, hj₂⟩ := setJoined_spec hset
  have hsame : SameObjects g g₂ :=
    ⟨fun s => (sourceAlive_congr hl₂ s).trans (hs₁ s),
      fun c' => (hc₂ c').trans (consumerAlive_congr hj₁ c')⟩
  have hjoined : ∀ c' k' s, g₂.Joined c' k' s ↔
      if c' = c ∧ k' = k then join = some s else g.Joined c' k' s := fun c' k' s => by
    rw [hj₂, joined_congr hj₁]
  have hreg : ∀ s c', g₂.Registered s c' ↔ g.Registered s c' ∧ ¬(c' = c ∧ g.Joined c k s) :=
    fun s c' => (registered_congr hl₂ s c').trans (hr₁ s c')
  cases join with
  | none =>
    obtain rfl : g₂ = g' := by simpa using hadd
    exact ⟨hsame, hjoined, fun s c' => by simp [hreg]⟩
  | some s₀ =>
    obtain ⟨hj₃, hs₃, hr₃⟩ := addListener_spec hadd
    refine ⟨hsame.trans ⟨hs₃, consumerAlive_congr hj₃⟩, fun c' k' s => ?_, fun s c' => ?_⟩
    · rw [joined_congr hj₃, hjoined]
    · rw [hr₃, hreg, Option.some.injEq]
      grind

/-- Attaching touches no object but the consumer, the source it leaves and the one it joins. -/
theorem exists_attach (hc : g.ConsumerAlive c) (hs : ∀ s, g.Joined c k s → g.SourceAlive s)
    (hjoin : ∀ s ∈ join, g.SourceAlive s) : ∃ g', g.attach c k join = some g' := by
  obtain ⟨g₁, hleave⟩ := exists_leave hc hs
  obtain ⟨hj₁, hs₁, -⟩ := leave_spec hleave
  obtain ⟨g₂, hset⟩ : ∃ g₂, g₁.setJoined c k join = some g₂ :=
    exists_setJoined ((consumerAlive_congr hj₁ c).2 hc)
  obtain ⟨hl₂, -, -⟩ := setJoined_spec hset
  cases join with
  | none => exact ⟨g₂, by simp [attach, hleave, hset]⟩
  | some s =>
    obtain ⟨g₃, hadd⟩ := exists_addListener (c := c)
      ((sourceAlive_congr hl₂ s).2 ((hs₁ s).2 (hjoin s rfl)))
    exact ⟨g₃, by simp [attach, hleave, hset, hadd]⟩

theorem detach_eq_attach : g.detach c k = g.attach c k none := by
  simp only [detach, attach, Option.bind_eq_bind]
  cases g.leave c k with
  | none => rfl
  | some g => cases hset : g.setJoined c k none <;> simp [hset]

/-- **Attaching keeps the agreement**, when the new source is there, is of the kind of the pointer,
and the pointer is one the consumer may use. -/
theorem Lawful.attach (h : g.Lawful kind slot) (hc : g.ConsumerAlive c)
    (hslot : ∀ k', slot c = some k' → k = k')
    (hjoin : ∀ s ∈ join, g.SourceAlive s ∧ kind s = k) :
    ∃ g', g.attach c k join = some g' ∧ g'.Lawful kind slot ∧ SameObjects g g' := by
  obtain ⟨g', hg'⟩ := exists_attach hc (fun s hs => h.sourceAlive hs) fun s hs => (hjoin s hs).1
  obtain ⟨hsame, hj, hr⟩ := attach_spec hg'
  refine ⟨g', hg', ⟨fun c' k' s => ?_, fun c' k' s k'' => ?_⟩, hsame⟩
  · rw [hj, hr]
    have hiff := h.joined_iff c' k' s
    have hiff' := h.joined_iff c k s
    have hkind := fun hs => (hjoin s hs).2
    grind
  · rw [hj]
    have := h.slot_eq c' k' s k''
    grind

/-- A lawful consumer detaches without touching an object that is gone. -/
theorem Lawful.detach (h : g.Lawful kind slot) (hc : g.ConsumerAlive c) :
    ∃ g', g.detach c k = some g' ∧ g'.Lawful kind slot ∧ SameObjects g g' ∧
      ∀ c' k' s, g'.Joined c' k' s ↔ g.Joined c' k' s ∧ ¬(c' = c ∧ k' = k) := by
  obtain ⟨g', hg'⟩ : ∃ g', g.attach c k none = some g' :=
    exists_attach hc (fun s hs => h.sourceAlive hs) (by simp)
  obtain ⟨hsame, hj, hr⟩ := attach_spec hg'
  refine ⟨g', detach_eq_attach.trans hg', ⟨fun c' k' s => ?_, fun c' k' s k'' => ?_⟩, hsame,
    fun c' k' s => ?_⟩
  · rw [hj, hr]
    have hiff := h.joined_iff c' k' s
    have hiff' := h.joined_iff c k s
    grind
  · rw [hj]
    have := h.slot_eq c' k' s k''
    grind
  · rw [hj]
    grind

/-- What the end of a source does: the source is gone, and of the consumers registered with it those
that react have cleared the pointer they keep for it. -/
theorem destroySource_spec (h : g.destroySource slot s = some g') :
    (∀ s', g'.SourceAlive s' ↔ s' ≠ s ∧ g.SourceAlive s') ∧
      (∀ c, g'.ConsumerAlive c ↔ g.ConsumerAlive c) ∧
      (∀ c k s', g'.Joined c k s' ↔ g.Joined c k s' ∧ ¬(g.Registered s c ∧ slot c = some k)) ∧
      ∀ s' c, g'.Registered s' c ↔ s' ≠ s ∧ g.Registered s' c := by
  simp only [destroySource, Option.bind_eq_some_iff, Option.map_eq_some_iff] at h
  obtain ⟨ls, hls, g₁, hfold, rfl⟩ := h
  obtain ⟨hl, ha, hj⟩ := foldlM_endStream_spec hfold
  have hmem : ∀ c, g.Registered s c ↔ c ∈ ls := fun c => by simp [Registered, hls]
  refine ⟨fun s' => ?_, fun c => ?_, fun c k s' => ?_, fun s' c => ?_⟩
  · rw [sourceAlive_freeSource, sourceAlive_congr hl]
  · rw [consumerAlive_freeSource, ha]
  · rw [joined_freeSource, hj, hmem]
  · rw [registered_freeSource, registered_congr hl]

/-- **The end of a source keeps the agreement**, when all consumers registered with it react. -/
theorem Lawful.destroySource (h : g.Lawful kind slot) (hs : g.SourceAlive s)
    (hreact : ∀ c, g.Registered s c → slot c ≠ none) :
    ∃ g', g.destroySource slot s = some g' ∧ g'.Lawful kind slot := by
  obtain ⟨ls, hls⟩ := Option.isSome_iff_exists.1 hs
  have hmem : ∀ c ∈ ls, g.ConsumerAlive c := fun c hc => h.consumerAlive ⟨ls, hls, hc⟩
  obtain ⟨g₁, hfold⟩ : ∃ g₁, ls.foldlM (endStream slot) g = some g₁ :=
    exists_foldlM_endStream hmem
  have hg' : g.destroySource slot s = some (g₁.freeSource s) := by
    simp [Subscriptions.destroySource, hls, hfold]
  obtain ⟨-, -, hj, hr⟩ := destroySource_spec hg'
  refine ⟨_, hg', ⟨fun c k s' => ?_, fun c k s' k' => ?_⟩⟩
  · rw [hj, hr]
    have hiff := h.joined_iff c k s'
    have hself := h.joined_iff c (kind s) s
    have hslot := h.slot_eq c (kind s) s
    have hslot' := h.slot_eq c k s'
    have hre := hreact c
    constructor
    · rintro ⟨hjoin, hnot⟩
      refine ⟨⟨?_, (hiff.1 hjoin).1⟩, (hiff.1 hjoin).2⟩
      rintro rfl
      obtain ⟨k₀, hk₀⟩ := Option.ne_none_iff_exists'.1 (hre (hiff.1 hjoin).1)
      exact hnot ⟨(hiff.1 hjoin).1, hk₀.trans (congrArg some (hslot' k₀ hjoin hk₀).symm)⟩
    · rintro ⟨⟨hne, hreg⟩, hkind⟩
      refine ⟨hiff.2 ⟨hreg, hkind⟩, ?_⟩
      rintro ⟨hregs, hk⟩
      -- Two pointers of the same kind are one pointer, which leads to one source.
      obtain rfl : kind s = k := hslot k (hself.2 ⟨hregs, rfl⟩) hk
      obtain ⟨f, hf, hfs⟩ := hself.2 ⟨hregs, rfl⟩
      obtain ⟨f', hf', hfs'⟩ := hiff.2 ⟨hreg, hkind⟩
      obtain rfl : f = f' := Option.some.inj (hf.symm.trans hf')
      exact hne (Option.some.inj (hfs'.symm.trans hfs))
  · rw [hj]
    exact fun hjoin => h.slot_eq c k s' k' hjoin.1

end Attaching

/-! ## Objects that come and go -/

section Lifetimes

variable {g g' g'' : Subscriptions S C K} {kind : S → K} {slot : C → Option K} {s : S} {c : C}

theorem Lawful.newSource [DecidableEq S] (h : g.Lawful kind slot) (hs : ¬g.SourceAlive s) :
    (g.newSource s).Lawful kind slot :=
  h.of_iff (fun s' c => by
    rw [registered_newSource, and_iff_right_iff_imp]
    rintro hr rfl
    exact hs hr.alive) fun _ _ _ => Iff.rfl

theorem Lawful.newConsumer [DecidableEq C] (h : g.Lawful kind slot) (hc : ¬g.ConsumerAlive c) :
    (g.newConsumer c).Lawful kind slot :=
  h.of_iff (fun _ _ => Iff.rfl) fun c' k s => by
    rw [joined_newConsumer, and_iff_right_iff_imp]
    rintro hj rfl
    exact hc hj.alive

theorem Lawful.freeConsumer [DecidableEq C] (h : g.Lawful kind slot)
    (hc : ∀ k s, ¬g.Joined c k s) : (g.freeConsumer c).Lawful kind slot :=
  h.of_iff (fun _ _ => Iff.rfl) fun c' k s => by
    rw [joined_freeConsumer, and_iff_right_iff_imp]
    rintro hj rfl
    exact hc k s hj

/-- The agreement holds after sources `A` and consumers `B` have come, and no consumer was
registered. -/
structure Gains (kind : S → K) (slot : C → Option K) (A : S → Prop) (B : C → Prop)
    (g g' : Subscriptions S C K) : Prop where
  lawful : g'.Lawful kind slot
  registered : ∀ s c, g'.Registered s c → g.Registered s c
  sourceAlive : ∀ s, g'.SourceAlive s ↔ g.SourceAlive s ∨ A s
  consumerAlive : ∀ c, g'.ConsumerAlive c ↔ g.ConsumerAlive c ∨ B c

namespace Gains

variable {A A' : S → Prop} {B B' : C → Prop}

theorem refl (h : g.Lawful kind slot) :
    Gains kind slot (fun _ => False) (fun _ => False) g g where
  lawful := h
  registered _ _ h := h
  sourceAlive _ := by simp
  consumerAlive _ := by simp

theorem trans (h : Gains kind slot A B g g') (h' : Gains kind slot A' B' g' g'') :
    Gains kind slot (fun s => A s ∨ A' s) (fun c => B c ∨ B' c) g g'' where
  lawful := h'.lawful
  registered s c hr := h.registered s c (h'.registered s c hr)
  sourceAlive s := by rw [h'.sourceAlive, h.sourceAlive, or_assoc]
  consumerAlive c := by rw [h'.consumerAlive, h.consumerAlive, or_assoc]

theorem congr (h : Gains kind slot A B g g') (hA : ∀ s, A s ↔ A' s) (hB : ∀ c, B c ↔ B' c) :
    Gains kind slot A' B' g g' where
  lawful := h.lawful
  registered := h.registered
  sourceAlive s := by rw [h.sourceAlive, hA]
  consumerAlive c := by rw [h.consumerAlive, hB]

theorem newSource [DecidableEq S] (h : g.Lawful kind slot) (hs : ¬g.SourceAlive s) :
    Gains kind slot (· = s) (fun _ => False) g (g.newSource s) where
  lawful := h.newSource hs
  registered _ _ hr := ((registered_newSource ..).1 hr).2
  sourceAlive s' := by rw [sourceAlive_newSource, or_comm]
  consumerAlive _ := by simp

theorem newConsumer [DecidableEq C] (h : g.Lawful kind slot) (hc : ¬g.ConsumerAlive c) :
    Gains kind slot (fun _ => False) (· = c) g (g.newConsumer c) where
  lawful := h.newConsumer hc
  registered _ _ hr := hr
  sourceAlive _ := by simp
  consumerAlive c' := by rw [consumerAlive_newConsumer, or_comm]

/-- **One object after the other.** When each step brings the objects of its index, and these are
not those of another index, the steps for a list without repetition bring the objects of all its
members. -/
theorem foldl {ι : Type*} {f : Subscriptions S C K → ι → Subscriptions S C K}
    {A : ι → S → Prop} {B : ι → C → Prop}
    (hstep : ∀ i g, g.Lawful kind slot → (∀ s, A i s → ¬g.SourceAlive s) →
      (∀ c, B i c → ¬g.ConsumerAlive c) → Gains kind slot (A i) (B i) g (f g i))
    (hA : ∀ i j s, A i s → A j s → i = j) (hB : ∀ i j c, B i c → B j c → i = j)
    {is : List ι} (hnd : is.Nodup) {g : Subscriptions S C K} (hg : g.Lawful kind slot)
    (hsource : ∀ i ∈ is, ∀ s, A i s → ¬g.SourceAlive s)
    (hconsumer : ∀ i ∈ is, ∀ c, B i c → ¬g.ConsumerAlive c) :
    Gains kind slot (fun s => ∃ i ∈ is, A i s) (fun c => ∃ i ∈ is, B i c) g (is.foldl f g) := by
  induction is generalizing g with
  | nil => exact (Gains.refl hg).congr (by simp) (by simp)
  | cons i is ih =>
    obtain ⟨hi, hnd⟩ := List.nodup_cons.1 hnd
    have hfirst := hstep i g hg (hsource i (by simp)) (hconsumer i (by simp))
    have hrest := ih hnd hfirst.lawful
      (fun j hj s hs => by
        rw [hfirst.sourceAlive, not_or]
        exact ⟨hsource j (by simp [hj]) s hs, fun his => hi (hA i j s his hs ▸ hj)⟩)
      (fun j hj c hc => by
        rw [hfirst.consumerAlive, not_or]
        exact ⟨hconsumer j (by simp [hj]) c hc, fun hic => hi (hB i j c hic hc ▸ hj)⟩)
    exact (hfirst.trans hrest).congr (by simp) (by simp)

end Gains

/-- The agreement holds after sources `A` and consumers `B` are gone, and no pointer was set. -/
structure Loses (kind : S → K) (slot : C → Option K) (A : S → Prop) (B : C → Prop)
    (g g' : Subscriptions S C K) : Prop where
  lawful : g'.Lawful kind slot
  joined : ∀ c k s, g'.Joined c k s → g.Joined c k s
  sourceAlive : ∀ s, g'.SourceAlive s ↔ g.SourceAlive s ∧ ¬A s
  consumerAlive : ∀ c, g'.ConsumerAlive c ↔ g.ConsumerAlive c ∧ ¬B c

namespace Loses

variable {A A' : S → Prop} {B B' : C → Prop}

theorem refl (h : g.Lawful kind slot) :
    Loses kind slot (fun _ => False) (fun _ => False) g g where
  lawful := h
  joined _ _ _ h := h
  sourceAlive _ := by simp
  consumerAlive _ := by simp

theorem trans (h : Loses kind slot A B g g') (h' : Loses kind slot A' B' g' g'') :
    Loses kind slot (fun s => A s ∨ A' s) (fun c => B c ∨ B' c) g g'' where
  lawful := h'.lawful
  joined c k s hj := h.joined c k s (h'.joined c k s hj)
  sourceAlive s := by rw [h'.sourceAlive, h.sourceAlive, and_assoc, not_or]
  consumerAlive c := by rw [h'.consumerAlive, h.consumerAlive, and_assoc, not_or]

theorem congr (h : Loses kind slot A B g g') (hA : ∀ s, A s ↔ A' s) (hB : ∀ c, B c ↔ B' c) :
    Loses kind slot A' B' g g' where
  lawful := h.lawful
  joined := h.joined
  sourceAlive s := by rw [h.sourceAlive, hA]
  consumerAlive c := by rw [h.consumerAlive, hB]

theorem registered (h : Loses kind slot A B g g') (hg : g.Lawful kind slot)
    (hr : g'.Registered s c) : g.Registered s c :=
  ((hg.joined_iff c (kind s) s).1
    (h.joined c (kind s) s ((h.lawful.joined_iff c (kind s) s).2 ⟨hr, rfl⟩))).1

/-- **Losing one object after the other.** When each step loses the objects of its index, and what a
step needs is not spoilt by the steps for other indices, the steps for a list without repetition
lose the objects of all its members. -/
theorem exists_foldlM {ι : Type*} {f : Subscriptions S C K → ι → Option (Subscriptions S C K)}
    {A : ι → S → Prop} {B : ι → C → Prop} {P : ι → Subscriptions S C K → Prop}
    (hstep : ∀ i g, g.Lawful kind slot → P i g →
      ∃ g', f g i = some g' ∧ Loses kind slot (A i) (B i) g g')
    (hkeeps : ∀ i j g g', i ≠ j → g.Lawful kind slot → Loses kind slot (A i) (B i) g g' →
      P j g → P j g')
    {is : List ι} (hnd : is.Nodup) {g : Subscriptions S C K} (hg : g.Lawful kind slot)
    (hpre : ∀ i ∈ is, P i g) :
    ∃ g', is.foldlM f g = some g' ∧
      Loses kind slot (fun s => ∃ i ∈ is, A i s) (fun c => ∃ i ∈ is, B i c) g g' := by
  induction is generalizing g with
  | nil => exact ⟨g, rfl, (Loses.refl hg).congr (by simp) (by simp)⟩
  | cons i is ih =>
    obtain ⟨hi, hnd⟩ := List.nodup_cons.1 hnd
    obtain ⟨g₁, h₁, hloses₁⟩ := hstep i g hg (hpre i (by simp))
    obtain ⟨g', hfold, hloses⟩ := ih hnd hloses₁.lawful fun j hj =>
      hkeeps i j g g₁ (fun hij => hi (hij ▸ hj)) hg hloses₁ (hpre j (by simp [hj]))
    refine ⟨g', by rw [List.foldlM_cons, h₁]; exact hfold, ?_⟩
    exact (hloses₁.trans hloses).congr (by simp) (by simp)

end Loses

theorem Lawful.loses_source [DecidableEq S] [DecidableEq C] [DecidableEq K]
    (h : g.Lawful kind slot) (hs : g.SourceAlive s)
    (hreact : ∀ c, g.Registered s c → slot c ≠ none) :
    ∃ g', g.destroySource slot s = some g' ∧
      Loses kind slot (· = s) (fun _ => False) g g' := by
  obtain ⟨g', hg', hlawful⟩ := h.destroySource hs hreact
  obtain ⟨hsource, hconsumer, hj, -⟩ := destroySource_spec hg'
  exact ⟨g', hg', hlawful, fun c k s' hjoin => ((hj c k s').1 hjoin).1,
    fun s' => by rw [hsource, and_comm], fun c' => by simp [hconsumer]⟩

theorem Lawful.loses_consumer [DecidableEq C] (h : g.Lawful kind slot)
    (hc : ∀ k s, ¬g.Joined c k s) :
    Loses kind slot (fun _ => False) (· = c) g (g.freeConsumer c) where
  lawful := h.freeConsumer hc
  joined _ _ _ hj := ((joined_freeConsumer ..).1 hj).2
  sourceAlive _ := by simp
  consumerAlive _ := by rw [consumerAlive_freeConsumer, and_comm]

/-- A consumer that detaches is there still. -/
theorem Lawful.loses_detach [DecidableEq S] [DecidableEq C] [DecidableEq K]
    (h : g.Lawful kind slot) (hc : g.ConsumerAlive c) (k : K) (hslot : slot c = some k) :
    ∃ g', g.detach c k = some g' ∧
      Loses kind slot (fun _ => False) (fun _ => False) g g' ∧ ∀ k s, ¬g'.Joined c k s := by
  obtain ⟨g', hg', hlawful, hsame, hj⟩ := h.detach (k := k) hc
  refine ⟨g', hg', ⟨hlawful, fun c' k' s hjoin => ((hj c' k' s).1 hjoin).1,
    fun s => by simp [hsame.sourceAlive], fun c' => by simp [hsame.consumerAlive]⟩,
    fun k' s hjoin => ?_⟩
  obtain ⟨hjoin, hne⟩ := (hj c k' s).1 hjoin
  exact hne ⟨rfl, h.slot_eq c k' s k hjoin hslot⟩

/-- What every way of ending objects leaves alone: the pointers of the consumers that do not react,
and the absence of a source. -/
structure Ends (slot : C → Option K) (g g' : Subscriptions S C K) : Prop where
  joined : ∀ c, slot c = none → g'.joined c = g.joined c
  sourceAlive : ∀ s, g'.SourceAlive s → g.SourceAlive s

namespace Ends

theorem refl : Ends slot g g := ⟨fun _ _ => rfl, fun _ h => h⟩

theorem trans (h : Ends slot g g') (h' : Ends slot g' g'') : Ends slot g g'' where
  joined c hc := (h'.joined c hc).trans (h.joined c hc)
  sourceAlive s hs := h.sourceAlive s (h'.sourceAlive s hs)

/-- Steps that end objects, one after the other, leave none of the sources they end. -/
theorem foldlM {ι : Type*} {f : Subscriptions S C K → ι → Option (Subscriptions S C K)}
    {source : ι → S} {P : ι → Prop} (hstep : ∀ g i g', f g i = some g' →
      Ends slot g g' ∧ (P i → ¬g'.SourceAlive (source i))) {is : List ι}
    (h : is.foldlM f g = some g') :
    Ends slot g g' ∧ ∀ i ∈ is, P i → ¬g'.SourceAlive (source i) := by
  induction is generalizing g with
  | nil =>
    obtain rfl : g = g' := by simpa using h
    exact ⟨refl, by simp⟩
  | cons i is ih =>
    rw [List.foldlM_cons, Option.bind_eq_bind, Option.bind_eq_some_iff] at h
    obtain ⟨g₁, h₁, hfold⟩ := h
    obtain ⟨hends₁, hgone⟩ := hstep g i g₁ h₁
    obtain ⟨hends, hrest⟩ := ih hfold
    refine ⟨hends₁.trans hends, fun j hj hP => ?_⟩
    rcases List.mem_cons.1 hj with rfl | hj
    · exact fun halive => hgone hP (hends.sourceAlive _ halive)
    · exact hrest j hj hP

section Operations

variable [DecidableEq C]

theorem freeConsumer (hc : slot c ≠ none) : Ends slot g (g.freeConsumer c) where
  joined c' hc' := by
    have hne : c' ≠ c := fun heq => hc (heq ▸ hc')
    exact Function.update_of_ne hne ..
  sourceAlive _ hs := hs

variable [DecidableEq K]

theorem setJoined {k : K} {join : Option S} (hc : slot c ≠ none)
    (h : g.setJoined c k join = some g') : Ends slot g g' := by
  obtain ⟨f, -, rfl⟩ := Option.map_eq_some_iff.1 h
  refine ⟨fun c' hc' => ?_, fun s hs => hs⟩
  have hne : c' ≠ c := fun heq => hc (heq ▸ hc')
  exact Function.update_of_ne hne ..

theorem endStream (h : g.endStream slot c = some g') : Ends slot g g' := by
  unfold Subscriptions.endStream at h
  cases hslot : slot c with
  | none =>
    rw [hslot] at h
    obtain ⟨f, -, rfl⟩ := Option.map_eq_some_iff.1 h
    exact refl
  | some k =>
    rw [hslot] at h
    exact setJoined (by simp [hslot]) h

variable [DecidableEq S]

theorem detach {k : K} (hc : slot c ≠ none) (h : g.detach c k = some g') : Ends slot g g' := by
  simp only [Subscriptions.detach, Option.bind_eq_bind, Option.bind_eq_some_iff] at h
  obtain ⟨g₁, hleave, hset⟩ := h
  obtain ⟨hj, hs, -⟩ := leave_spec hleave
  have hends : Ends slot g g₁ := ⟨fun c' _ => congrFun hj c', fun s hs' => (hs s).1 hs'⟩
  exact hends.trans (setJoined hc hset)

theorem destroySource (h : g.destroySource slot s = some g') :
    Ends slot g g' ∧ ¬g'.SourceAlive s := by
  refine ⟨?_, fun hs => ((destroySource_spec h).1 s).1 hs |>.1 rfl⟩
  simp only [Subscriptions.destroySource, Option.bind_eq_some_iff, Option.map_eq_some_iff] at h
  obtain ⟨ls, -, g₁, hfold, rfl⟩ := h
  have hends : Ends slot g g₁ := by
    clear * - hfold
    induction ls generalizing g with
    | nil =>
      obtain rfl : g = g₁ := by simpa using hfold
      exact refl
    | cons c ls ih =>
      rw [List.foldlM_cons, Option.bind_eq_bind, Option.bind_eq_some_iff] at hfold
      obtain ⟨g₂, hend, hfold⟩ := hfold
      exact (endStream hend).trans (ih hfold)
  exact hends.trans ⟨fun _ _ => rfl, fun s' hs => ((sourceAlive_freeSource ..).1 hs).2⟩

end Operations

end Ends

end Lifetimes

end Subscriptions
