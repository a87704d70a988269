import McuMediaServer.Base.Subscriptions
import McuMediaServer.Amf.Utf8
import Mathlib.Data.List.Dedup

/-!
# The streams of a broadcast session

A broadcast session keeps a media stream for each name that was published. It is attached to the net
stream of the publisher, and the net streams of the watchers are attached to it. Each attachment is
kept as a listener of the one stream and as the pointer `attached` of the other, and both ends call
each other back while they change it.

The net streams override the callback `onDetached` with one that assigns to its parameter, which has
the name of the member it means. `attach_spec` says that attaching keeps the two ends in agreement
all the same, and `close_spec` that closing a net stream leaves it alone.
-/

namespace McuMediaServer.Broadcast

open Amf (WString)

/-- A piped stream of the session: the media stream of a name, or a net stream of a connection,
which is numbered. -/
inductive Stream where
  | media (name : WString)
  | publisher (connection number : Nat)
  | watcher (connection number : Nat)
  deriving DecidableEq

namespace Stream

/-- The streams that were published under a name. -/
def IsMedia : Stream → Prop
  | media _ => True
  | _ => False

instance (s : Stream) : Decidable s.IsMedia := by
  cases s <;> unfold IsMedia <;> infer_instance

/-- The net streams of watchers. -/
def IsWatcher : Stream → Prop
  | watcher _ _ => True
  | _ => False

/-- The pointer a stream clears when it is told that it is detached: `attached`, or none for the net
streams, which override the callback. -/
def slot : Stream → Option Unit
  | media _ => some ()
  | _ => none

/-- How streams are attached: media streams to publishers, watchers to media streams. -/
def Feeds : Stream → Stream → Prop
  | publisher _ _, media _ => True
  | media _, watcher _ _ => True
  | _, _ => False

end Stream

/-- The streams in memory, each with its listeners among the streams and its pointer `attached`.
Reference: `rtmpstream.h:186`, `rtmpstream.h:221`. -/
abbrev Memory := Subscriptions Stream Stream Unit

/-! ## Attaching -/

/-- What is sent through a stream is handed on by its listeners. There is no value when a listener
is gone. Reference: `rtmpstream.cpp:111`, `SendStreamEnd`. -/
def send : Nat → Memory → Stream → Option Unit
  | 0, _, _ => none
  | fuel + 1, memory, stream => do
    let listeners ← memory.listeners stream
    listeners.forM (send fuel memory)

/-- A stream is told that it is detached from another one; `remove` is `RemoveMediaListener`, which
a media stream calls when it is attached to yet another stream. A net stream assigns to a parameter.
Reference: `rtmpstream.cpp:251`, `broadcastsession.cpp:359`, `broadcastsession.cpp:421`. -/
def onDetached (remove : Memory → Stream → Stream → Option Memory) (memory : Memory)
    (self stream : Stream) : Option Memory := do
  let pointers ← memory.joined self
  match self with
  | .media _ =>
    let memory ←
      if pointers () ≠ some stream then
        match pointers () with
        | some attached => remove memory attached self
        | none => none
      else some memory
    memory.setJoined self () none
  | .publisher .. | .watcher .. => some memory

/-- Reference: `rtmpstream.cpp:53`. -/
def removeMediaListener : Nat → Memory → Stream → Stream → Option Memory
  | 0, _, _, _ => none
  | fuel + 1, memory, self, listener => do
    let listeners ← memory.listeners self
    if listener ∈ listeners then
      let memory ← onDetached (removeMediaListener fuel) memory listener self
      memory.removeListener self listener
    else some memory

/-- How deep the callbacks go: a stream that is detached from one that it is not attached to calls
the one it is attached to, and is called back once more. -/
def depth : Nat := 3

/-- Tell all listeners, which are a set. Reference: `rtmpstream.cpp:39`. -/
def removeAllMediaListeners (memory : Memory) (self : Stream) : Option Memory := do
  let listeners ← memory.listeners self
  let memory ← listeners.dedup.foldlM
    (fun memory listener => onDetached (removeMediaListener depth) memory listener self) memory
  return memory.newSource self

/-- A listener is removed through a pointer, unless it is null. -/
def removeFrom (memory : Memory) (stream : Option Stream) (self : Stream) : Option Memory :=
  match stream with
  | some stream => removeMediaListener depth memory stream self
  | none => some memory

/-- A stream leaves the one it is attached to. -/
def leave (memory : Memory) (self : Stream) : Option Memory := do
  let pointers ← memory.joined self
  removeFrom memory (pointers ()) self

/-- Reference: `rtmpstream.cpp:242`. -/
def onAttached (memory : Memory) (self stream : Stream) : Option Memory := do
  let memory ← leave memory self
  memory.setJoined self () (some stream)

/-- The new listener is sent what is kept for it; a cached stream does so behind the others.
Reference: `rtmpstream.cpp:25`, `rtmpstream.cpp:200`, `rtmpstream.cpp:458`. -/
def addMediaListener (memory : Memory) (self listener : Stream) : Option Memory := do
  let _ ← if self.IsMedia then some () else send depth memory listener
  let memory ← memory.addListener self listener
  let memory ← onAttached memory listener self
  let _ ← if self.IsMedia then send depth memory listener else some ()
  return memory

/-- A listener is added through a pointer, unless it is null. -/
def addTo (memory : Memory) (stream : Option Stream) (self : Stream) : Option Memory :=
  match stream with
  | some stream => addMediaListener memory stream self
  | none => some memory

/-- Reference: `rtmpstream.cpp:214`. -/
def attach (memory : Memory) (self : Stream) (stream : Option Stream) : Option Memory := do
  let pointers ← memory.joined self
  if stream = pointers () then
    return memory
  let memory ← leave memory self
  let memory ← addTo memory stream self
  memory.setJoined self () stream

/-- Reference: `rtmpstream.cpp:232`. -/
def detach (memory : Memory) (self : Stream) : Option Memory := do
  let memory ← leave memory self
  memory.setJoined self () none

/-- Close a net stream, whose pointer `stream` is given. Only a publisher sends the end of its
stream. Reference: `broadcastsession.cpp:339`, `broadcastsession.cpp:403`. -/
def close (memory : Memory) (self : Stream) (stream : Option Stream) : Option Memory := do
  let _ ←
    match self with
    | .publisher .. => send depth memory self
    | _ => some ()
  let memory ← removeFrom memory stream self
  let memory ← removeAllMediaListeners memory self
  detach memory self

/-- The destructor of the piped stream, and the end of its memory. Reference: `rtmpstream.cpp:182`,
`rtmpstream.cpp:19`. -/
def free (memory : Memory) (self : Stream) : Option Memory := do
  let memory ← detach memory self
  let memory ← removeAllMediaListeners memory self
  return (memory.freeSource self).freeConsumer self

/-- Delete a net stream. Reference: `broadcastsession.cpp:321`, `broadcastsession.cpp:377`. -/
def deleteNetStream (memory : Memory) (self : Stream) (stream : Option Stream) : Option Memory := do
  let memory ← close memory self stream
  free memory self

/-- A new stream. Reference: `rtmpstream.cpp:147`. -/
def newStream (memory : Memory) (self : Stream) : Memory :=
  (memory.newSource self).newConsumer self

/-! ## Agreement -/

/-- The two ends of all attachments agree, and attach what a session attaches. -/
structure Sound (memory : Memory) : Prop where
  lawful : memory.Lawful (fun _ => ()) Stream.slot
  alive_iff : ∀ s, memory.SourceAlive s ↔ memory.ConsumerAlive s
  feeds : ∀ t s, memory.Registered t s → t.Feeds s

section Relations

variable {g g' : Memory} {s t : Stream}

theorem Sound.joined_iff (h : Sound g) (s t : Stream) : g.Joined s () t ↔ g.Registered t s := by
  rw [h.lawful.joined_iff]
  exact and_iff_left rfl

theorem Sound.listener_alive (h : Sound g) (hr : g.Registered t s) : g.SourceAlive s :=
  (h.alive_iff s).2 (h.lawful.consumerAlive hr)

theorem joined_unique {t' : Stream} (h : g.Joined s () t) (h' : g.Joined s () t') : t = t' := by
  obtain ⟨f, hf, ht⟩ := h
  obtain ⟨f', hf', ht'⟩ := h'
  obtain rfl := Option.some.inj (hf.symm.trans hf')
  exact Option.some.inj (ht.symm.trans ht')

theorem Sound.restrict (h : Sound g) (hsame : Subscriptions.SameObjects g g')
    {P : Stream → Stream → Prop} (hr : ∀ t s, g'.Registered t s ↔ g.Registered t s ∧ P t s)
    (hj : ∀ s k t, g'.Joined s k t ↔ g.Joined s k t ∧ P t s) : Sound g' where
  lawful :=
    { joined_iff := fun s k t => by rw [hj, hr, h.lawful.joined_iff, and_right_comm]
      slot_eq := fun _ _ _ _ _ _ => rfl }
  alive_iff s := by rw [hsame.sourceAlive, hsame.consumerAlive, h.alive_iff]
  feeds t s hreg := h.feeds t s ((hr t s).1 hreg).1

theorem Sound.replace (h : Sound g) (hsame : Subscriptions.SameObjects g g') {self : Stream}
    {target : Option Stream} (htarget : ∀ t ∈ target, t.Feeds self)
    (hr : ∀ t s, g'.Registered t s ↔ if s = self then target = some t else g.Registered t s)
    (hj : ∀ s k t, g'.Joined s k t ↔ if s = self then target = some t else g.Joined s k t) :
    Sound g' where
  lawful :=
    { joined_iff := fun s k t => by
        rw [hj, hr]
        split
        · exact (and_iff_left rfl).symm
        · exact h.lawful.joined_iff s k t
      slot_eq := fun _ _ _ _ _ _ => rfl }
  alive_iff s := by rw [hsame.sourceAlive, hsame.consumerAlive, h.alive_iff]
  feeds t s hreg := by
    rw [hr] at hreg
    split at hreg
    case isTrue heq => exact heq ▸ htarget t hreg
    case isFalse => exact h.feeds t s hreg

end Relations

section Send

variable {g : Memory} {s : Stream}

theorem send_succ (fuel : Nat) (hs : g.SourceAlive s)
    (h : ∀ c, g.Registered s c → send fuel g c = some ()) : send (fuel + 1) g s = some () := by
  obtain ⟨ls, hls⟩ := Option.isSome_iff_exists.1 hs
  rw [send, hls]
  have hall : ∀ c ∈ ls, send fuel g c = some () := fun c hc => h c ⟨ls, hls, hc⟩
  change ls.forM (send fuel g) = some ()
  rw [List.forM_eq_forM]
  clear hls
  induction ls with
  | nil => rfl
  | cons c ls ih =>
    rw [List.forM_cons, hall c List.mem_cons_self]
    exact ih fun c' hc' => hall c' (List.mem_cons_of_mem _ hc')

theorem send_eq_some (hfeeds : ∀ t s, g.Registered t s → t.Feeds s)
    (halive : ∀ t s, g.Registered t s → g.SourceAlive s) (hs : g.SourceAlive s) :
    send depth g s = some () := by
  have hwatcher : ∀ fuel s, g.SourceAlive s → (∀ c, ¬s.Feeds c) →
      send (fuel + 1) g s = some () := fun fuel s hs hnone =>
    send_succ fuel hs fun c hc => absurd (hfeeds s c hc) (hnone c)
  have hmedia : ∀ fuel s, g.SourceAlive s → s.IsMedia → send (fuel + 2) g s = some () := by
    intro fuel s hs hm
    refine send_succ (fuel + 1) hs fun c hc => hwatcher fuel c (halive s c hc) ?_
    have hfeed := hfeeds s c hc
    cases s <;> cases c <;> simp_all [Stream.Feeds, Stream.IsMedia]
  rw [depth]
  cases hkind : s with
  | media name => exact hmedia 1 _ (hkind ▸ hs) trivial
  | watcher c n => exact hwatcher 2 _ (hkind ▸ hs) fun _ => id
  | publisher c n =>
    refine send_succ 2 (hkind ▸ hs) fun m hm => hmedia 0 m (halive _ m hm) ?_
    have hfeed := hfeeds _ m hm
    cases m <;> simp_all [Stream.Feeds, Stream.IsMedia]

end Send

section Detaching

variable {g : Memory} {self t : Stream}

theorem onDetached_eq (remove : Memory → Stream → Stream → Option Memory)
    (h : self.IsMedia → g.Joined self () t) :
    onDetached remove g self t = g.endStream Stream.slot self := by
  unfold onDetached Subscriptions.endStream
  cases self with
  | media name =>
    obtain ⟨f, hf, ht⟩ := h trivial
    simp [hf, ht, Stream.slot]
  | publisher c n =>
    simp only [Stream.slot]
    cases g.joined (.publisher c n) <;> rfl
  | watcher c n =>
    simp only [Stream.slot]
    cases g.joined (.watcher c n) <;> rfl

theorem slot_eq_some_iff (s : Stream) (k : Unit) : s.slot = some k ↔ s.IsMedia := by
  cases s <;> simp [Stream.slot, Stream.IsMedia]

theorem removeMediaListener_spec (fuel : Nat) (ht : g.SourceAlive t) (hself : g.ConsumerAlive self)
    (hjoined : self.IsMedia → g.Registered t self → g.Joined self () t) :
    ∃ g', removeMediaListener (fuel + 1) g t self = some g' ∧ Subscriptions.SameObjects g g' ∧
      (∀ s c, g'.Registered s c ↔ g.Registered s c ∧ ¬(s = t ∧ c = self)) ∧
      ∀ c k s, g'.Joined c k s ↔
        g.Joined c k s ∧ ¬(c = self ∧ self.IsMedia ∧ g.Registered t self) := by
  obtain ⟨ls, hls⟩ := Option.isSome_iff_exists.1 ht
  have hmem : g.Registered t self ↔ self ∈ ls := by simp [Subscriptions.Registered, hls]
  rw [removeMediaListener, hls]
  simp only [Option.bind_eq_bind, Option.bind_some]
  rcases Classical.em (self ∈ ls) with hin | hout
  · rw [if_pos hin, onDetached_eq _ fun hm => hjoined hm (hmem.2 hin)]
    obtain ⟨g₁, hend⟩ : ∃ g₁, g.endStream Stream.slot self = some g₁ :=
      Subscriptions.exists_endStream hself
    obtain ⟨hl₁, ha₁, hj₁⟩ := Subscriptions.endStream_spec hend
    obtain ⟨g₂, hremove⟩ := Subscriptions.exists_removeListener (g := g₁) (c := self)
      ((Subscriptions.sourceAlive_congr hl₁ t).2 ht)
    obtain ⟨hj₂, hs₂, hr₂⟩ := Subscriptions.removeListener_spec hremove
    refine ⟨g₂, by rw [hend]; exact hremove, ⟨fun s => ?_, fun c => ?_⟩, fun s c => ?_,
      fun c k s => ?_⟩
    · rw [hs₂, Subscriptions.sourceAlive_congr hl₁]
    · rw [Subscriptions.consumerAlive_congr hj₂, ha₁]
    · rw [hr₂, Subscriptions.registered_congr hl₁]
    · rw [Subscriptions.joined_congr hj₂, hj₁, slot_eq_some_iff, and_iff_left (hmem.2 hin)]
  · rw [if_neg hout]
    have hnot : ¬g.Registered t self := fun h => hout (hmem.1 h)
    refine ⟨g, rfl, ⟨fun _ => Iff.rfl, fun _ => Iff.rfl⟩, fun s c => ?_, fun c k s => ?_⟩
    · rw [iff_self_and]
      rintro hr ⟨rfl, rfl⟩
      exact hnot hr
    · rw [iff_self_and]
      exact fun _ h => hnot h.2.2

theorem leave_spec (hself : g.ConsumerAlive self)
    (halive : ∀ t, g.Joined self () t → g.SourceAlive t) :
    ∃ g', leave g self = some g' ∧ Subscriptions.SameObjects g g' ∧
      (∀ s c, g'.Registered s c ↔ g.Registered s c ∧ ¬(c = self ∧ g.Joined self () s)) ∧
      (∀ c k s, g'.Joined c k s → g.Joined c k s) ∧
      ∀ c k s, c ≠ self → (g'.Joined c k s ↔ g.Joined c k s) := by
  obtain ⟨f, hf⟩ := Option.isSome_iff_exists.1 hself
  have hjoined : ∀ t, g.Joined self () t ↔ f () = some t := fun t => by
    simp [Subscriptions.Joined, hf]
  rw [leave, hf]
  simp only [Option.bind_eq_bind, Option.bind_some]
  cases hpointer : f () with
  | none =>
    refine ⟨g, rfl, ⟨fun _ => Iff.rfl, fun _ => Iff.rfl⟩, fun s c => ?_, fun _ _ _ => id,
      fun _ _ _ _ => Iff.rfl⟩
    rw [iff_self_and]
    rintro - ⟨-, hjoin⟩
    rw [hjoined, hpointer] at hjoin
    cases hjoin
  | some old =>
    have hold : g.Joined self () old := (hjoined old).2 hpointer
    obtain ⟨g', hremove, hsame, hr, hj⟩ :=
      removeMediaListener_spec 2 (halive old hold) hself fun _ _ => hold
    refine ⟨g', hremove, hsame, fun s c => ?_, fun c k s h => ((hj c k s).1 h).1,
      fun c k s hne => ?_⟩
    · rw [hr, hjoined, hpointer, Option.some.injEq, and_comm (a := s = old), eq_comm (a := s)]
    · rw [hj]
      exact and_iff_left fun h => hne h.1

theorem detach_spec (hg : Sound g) (hself : g.ConsumerAlive self) :
    ∃ g', detach g self = some g' ∧ Sound g' ∧ Subscriptions.SameObjects g g' ∧
      (∀ t s, g'.Registered t s ↔ g.Registered t s ∧ s ≠ self) ∧
      ∀ s k t, g'.Joined s k t ↔ g.Joined s k t ∧ s ≠ self := by
  obtain ⟨g₁, hleave, hsame₁, hr₁, -, hj₁⟩ :=
    leave_spec hself fun t ht => hg.lawful.sourceAlive ht
  obtain ⟨g₂, hset⟩ : ∃ g₂, g₁.setJoined self () none = some g₂ :=
    Subscriptions.exists_setJoined ((hsame₁.consumerAlive self).2 hself)
  obtain ⟨hl₂, hc₂, hj₂⟩ := Subscriptions.setJoined_spec hset
  have hsame : Subscriptions.SameObjects g g₂ := hsame₁.trans
    ⟨Subscriptions.sourceAlive_congr hl₂, hc₂⟩
  have hr : ∀ t s, g₂.Registered t s ↔ g.Registered t s ∧ s ≠ self := fun t s => by
    rw [Subscriptions.registered_congr hl₂, hr₁]
    refine and_congr_right fun hreg => not_congr ?_
    constructor
    · exact fun h => h.1
    · rintro rfl
      exact ⟨rfl, (hg.joined_iff s t).2 hreg⟩
  have hj : ∀ s k t, g₂.Joined s k t ↔ g.Joined s k t ∧ s ≠ self := fun s k t => by
    rw [hj₂]
    rcases eq_or_ne s self with rfl | hne
    · simp
    · rw [if_neg fun h => hne h.1, hj₁ s k t hne, and_iff_left hne]
  refine ⟨g₂, ?_, hg.restrict hsame hr hj, hsame, hr, hj⟩
  rw [detach, hleave]
  exact hset

end Detaching

section Attaching

variable {g : Memory} {self t : Stream}

theorem setJoined_self {g' : Memory} {target : Option Stream}
    (h : g.setJoined self () target = some g') (s t : Stream) (k : Unit) :
    g'.Joined s k t ↔ if s = self then target = some t else g.Joined s k t := by
  obtain ⟨-, -, hj⟩ := Subscriptions.setJoined_spec h
  rw [hj]
  exact iff_of_eq (if_congr (and_iff_left rfl) rfl rfl)

theorem addMediaListener_spec (hfeeds : ∀ t s, g.Registered t s → t.Feeds s)
    (halive : ∀ t s, g.Registered t s → g.SourceAlive s) (hself : g.SourceAlive self)
    (hconsumer : g.ConsumerAlive self) (ht : g.SourceAlive t) (hfeed : t.Feeds self)
    (hjoined : ∀ s, g.Joined self () s → g.SourceAlive s) (hnot : ¬g.Joined self () t)
    (hnone : ∀ s, ¬g.Registered s self) :
    ∃ g', addMediaListener g t self = some g' ∧ Subscriptions.SameObjects g g' ∧
      (∀ s c, g'.Registered s c ↔ if c = self then some t = some s else g.Registered s c) ∧
      ∀ c k s, g'.Joined c k s ↔ if c = self then some t = some s else g.Joined c k s := by
  obtain ⟨g₂, hadd⟩ := Subscriptions.exists_addListener (c := self) ht
  obtain ⟨hj₂, hs₂, hr₂⟩ := Subscriptions.addListener_spec hadd
  have hsame₂ : Subscriptions.SameObjects g g₂ := ⟨hs₂, Subscriptions.consumerAlive_congr hj₂⟩
  obtain ⟨g₃, hleave, hsame₃, hr₃, -, hj₃⟩ := leave_spec (g := g₂)
    ((hsame₂.consumerAlive self).2 hconsumer) fun s hs =>
      (hs₂ s).2 (hjoined s ((Subscriptions.joined_congr hj₂ self () s).1 hs))
  obtain ⟨g₄, hset⟩ : ∃ g₄, g₃.setJoined self () (some t) = some g₄ :=
    Subscriptions.exists_setJoined
      ((hsame₃.consumerAlive self).2 ((hsame₂.consumerAlive self).2 hconsumer))
  obtain ⟨hl₄, hc₄, -⟩ := Subscriptions.setJoined_spec hset
  have hsame : Subscriptions.SameObjects g g₄ := (hsame₂.trans hsame₃).trans
    ⟨Subscriptions.sourceAlive_congr hl₄, hc₄⟩
  -- of the two ends only the new one is left
  have hr : ∀ s c, g₄.Registered s c ↔ if c = self then some t = some s else g.Registered s c := by
    intro s c
    rw [Subscriptions.registered_congr hl₄, hr₃, Subscriptions.joined_congr hj₂, hr₂]
    rcases eq_or_ne c self with rfl | hne
    · rw [if_pos rfl, Option.some.injEq]
      constructor
      · rintro ⟨hreg | heq, -⟩
        · exact absurd hreg (hnone s)
        · exact heq.1.symm
      · rintro rfl
        exact ⟨.inr ⟨rfl, rfl⟩, fun h => hnot h.2⟩
    · rw [if_neg hne, or_iff_left fun h => hne h.2]
      exact and_iff_left fun h => hne h.1
  have hj : ∀ c k s, g₄.Joined c k s ↔ if c = self then some t = some s else g.Joined c k s := by
    intro c k s
    rw [setJoined_self hset]
    rcases eq_or_ne c self with rfl | hne
    · rw [if_pos rfl, if_pos rfl]
    · rw [if_neg hne, if_neg hne, hj₃ c k s hne, Subscriptions.joined_congr hj₂]
  have hfeeds₄ : ∀ t s, g₄.Registered t s → t.Feeds s := by
    intro s c hreg
    rw [hr] at hreg
    split at hreg
    case isTrue heq => exact heq ▸ Option.some.inj hreg ▸ hfeed
    case isFalse => exact hfeeds s c hreg
  have halive₄ : ∀ t s, g₄.Registered t s → g₄.SourceAlive s := by
    intro s c hreg
    rw [hr] at hreg
    rw [hsame.sourceAlive]
    split at hreg
    case isTrue heq => exact heq ▸ hself
    case isFalse => exact halive s c hreg
  refine ⟨g₄, ?_, hsame, hr, hj⟩
  have hattached : onAttached g₂ self t = some g₄ := by
    rw [onAttached, hleave]
    exact hset
  have hsend := send_eq_some hfeeds halive hself
  have hsend₄ := send_eq_some hfeeds₄ halive₄ ((hsame.sourceAlive self).2 hself)
  unfold addMediaListener
  rcases Classical.em t.IsMedia with hm | hm
  · simp only [if_pos hm, hadd, hattached, hsend₄, Option.bind_eq_bind, Option.bind_some]
    rfl
  · simp only [if_neg hm, hadd, hattached, hsend, Option.bind_eq_bind, Option.bind_some]
    rfl

/-- **Attaching** replaces the attachment of a stream, from both ends. -/
theorem attach_spec (hg : Sound g) (self : Stream) (target : Option Stream)
    (hself : g.SourceAlive self) (htarget : ∀ t ∈ target, g.SourceAlive t ∧ t.Feeds self) :
    ∃ g', attach g self target = some g' ∧ Sound g' ∧ Subscriptions.SameObjects g g' ∧
      ∀ s k t, g'.Joined s k t ↔ if s = self then target = some t else g.Joined s k t := by
  have hconsumer := (hg.alive_iff self).1 hself
  obtain ⟨f, hf⟩ := Option.isSome_iff_exists.1 hconsumer
  have hjoined : ∀ t, g.Joined self () t ↔ f () = some t := fun t => by
    simp [Subscriptions.Joined, hf]
  unfold attach
  rw [hf]
  simp only [Option.bind_eq_bind, Option.bind_some]
  rcases Classical.em (target = f ()) with heq | hne
  · rw [if_pos heq]
    refine ⟨g, rfl, hg, ⟨fun _ => Iff.rfl, fun _ => Iff.rfl⟩, fun s k t => ?_⟩
    rcases eq_or_ne s self with rfl | hs
    · rw [if_pos rfl, heq]
      exact hjoined t
    · rw [if_neg hs]
  · rw [if_neg hne]
    obtain ⟨g₁, hleave, hsame₁, hr₁, hkeep₁, hj₁⟩ :=
      leave_spec hconsumer fun t ht => hg.lawful.sourceAlive ht
    have hr₁' : ∀ t s, g₁.Registered t s ↔ g.Registered t s ∧ s ≠ self := fun t s => by
      rw [hr₁]
      refine and_congr_right fun hreg => not_congr ⟨fun h => h.1, ?_⟩
      rintro rfl
      exact ⟨rfl, (hg.joined_iff s t).2 hreg⟩
    rw [hleave]
    simp only [Option.bind_some]
    -- the state before the pointer is set
    obtain ⟨g₂, hmiddle, hsame₂, hr₂, hj₂⟩ : ∃ g₂,
        addTo g₁ target self = some g₂ ∧ Subscriptions.SameObjects g₁ g₂ ∧
        (∀ t s, g₂.Registered t s ↔ if s = self then target = some t else g₁.Registered t s) ∧
        ∀ s k t, s ≠ self → (g₂.Joined s k t ↔ g₁.Joined s k t) := by
      cases htgt : target with
      | none =>
        refine ⟨g₁, rfl, ⟨fun _ => Iff.rfl, fun _ => Iff.rfl⟩, fun t s => ?_,
          fun _ _ _ _ => Iff.rfl⟩
        rcases eq_or_ne s self with rfl | hs
        · rw [if_pos rfl]
          exact iff_of_false (fun h => ((hr₁' t s).1 h).2 rfl) (Option.some_ne_none t).symm
        · rw [if_neg hs]
      | some t =>
        obtain ⟨htalive, hfeed⟩ := htarget t htgt
        obtain ⟨g₂, hadd, hsame₂, hr₂, hj₂⟩ := addMediaListener_spec (g := g₁)
          (fun t s hreg => hg.feeds t s ((hr₁' t s).1 hreg).1)
          (fun t s hreg => (hsame₁.sourceAlive s).2 (hg.listener_alive ((hr₁' t s).1 hreg).1))
          ((hsame₁.sourceAlive self).2 hself) ((hsame₁.consumerAlive self).2 hconsumer)
          ((hsame₁.sourceAlive t).2 htalive) hfeed
          (fun s hs => (hsame₁.sourceAlive s).2 (hg.lawful.sourceAlive (hkeep₁ _ _ _ hs)))
          (fun h => hne (htgt.trans ((hjoined t).1 (hkeep₁ _ _ _ h)).symm))
          fun s h => ((hr₁' s self).1 h).2 rfl
        refine ⟨g₂, hadd, hsame₂, hr₂, fun s k u hs => ?_⟩
        rw [hj₂, if_neg hs]
    rw [hmiddle]
    simp only [Option.bind_some]
    have hsame₁₂ := hsame₁.trans hsame₂
    obtain ⟨g₃, hset⟩ : ∃ g₃, g₂.setJoined self () target = some g₃ :=
      Subscriptions.exists_setJoined ((hsame₁₂.consumerAlive self).2 hconsumer)
    obtain ⟨hl₃, hc₃, -⟩ := Subscriptions.setJoined_spec hset
    have hsame : Subscriptions.SameObjects g g₃ := hsame₁₂.trans
      ⟨Subscriptions.sourceAlive_congr hl₃, hc₃⟩
    have hj : ∀ s k t, g₃.Joined s k t ↔ if s = self then target = some t else g.Joined s k t := by
      intro s k t
      rw [setJoined_self hset]
      rcases eq_or_ne s self with rfl | hs
      · rw [if_pos rfl, if_pos rfl]
      · rw [if_neg hs, if_neg hs, hj₂ s k t hs, hj₁ s k t hs]
    have hr : ∀ t s, g₃.Registered t s ↔
        if s = self then target = some t else g.Registered t s := by
      intro t s
      rw [Subscriptions.registered_congr hl₃, hr₂]
      rcases eq_or_ne s self with rfl | hs
      · rw [if_pos rfl, if_pos rfl]
      · rw [if_neg hs, if_neg hs, hr₁', and_iff_left hs]
    exact ⟨g₃, hset, hg.replace hsame (fun t ht => (htarget t ht).2) hr hj, hsame, hj⟩

end Attaching

section Closing

variable {g : Memory} {self : Stream}

theorem foldlM_onDetached_eq {remove : Memory → Stream → Stream → Option Memory}
    {ls : List Stream} (hnodup : ls.Nodup)
    (hjoined : ∀ s ∈ ls, s.IsMedia → g.Joined s () self) :
    ls.foldlM (fun memory listener => onDetached remove memory listener self) g =
      ls.foldlM (Subscriptions.endStream Stream.slot) g := by
  induction ls generalizing g with
  | nil => rfl
  | cons s ls ih =>
    obtain ⟨hs, hnodup⟩ := List.nodup_cons.1 hnodup
    rw [List.foldlM_cons, List.foldlM_cons, onDetached_eq _ (hjoined s List.mem_cons_self)]
    cases hend : g.endStream Stream.slot s with
    | none => rfl
    | some g₁ =>
      obtain ⟨-, -, hj₁⟩ := Subscriptions.endStream_spec hend
      refine ih hnodup fun s' hs' hm => (hj₁ s' () self).2 ⟨?_, ?_⟩
      · exact hjoined s' (List.mem_cons_of_mem _ hs') hm
      · rintro ⟨rfl, -⟩
        exact hs hs'

theorem removeAllMediaListeners_spec (hself : g.SourceAlive self)
    (halive : ∀ s, g.Registered self s → g.ConsumerAlive s)
    (hjoined : ∀ s, g.Registered self s → s.IsMedia → g.Joined s () self) :
    ∃ g', removeAllMediaListeners g self = some g' ∧ Subscriptions.SameObjects g g' ∧
      (∀ t s, g'.Registered t s ↔ g.Registered t s ∧ t ≠ self) ∧
      ∀ s k t, g'.Joined s k t ↔ g.Joined s k t ∧ ¬(g.Registered self s ∧ s.IsMedia) := by
  obtain ⟨ls, hls⟩ := Option.isSome_iff_exists.1 hself
  have hmem : ∀ s, g.Registered self s ↔ s ∈ ls := fun s => by simp [Subscriptions.Registered, hls]
  obtain ⟨g₁, hfold⟩ : ∃ g₁, ls.dedup.foldlM (Subscriptions.endStream Stream.slot) g = some g₁ :=
    Subscriptions.exists_foldlM_endStream fun s hs =>
      halive s ((hmem s).2 (List.mem_dedup.1 hs))
  obtain ⟨hl, ha, hj⟩ := Subscriptions.foldlM_endStream_spec hfold
  refine ⟨g₁.newSource self, ?_, ⟨fun s => ?_, fun s => ?_⟩, fun t s => ?_, fun s k t => ?_⟩
  · rw [removeAllMediaListeners, hls]
    simp only [Option.bind_eq_bind, Option.bind_some]
    rw [foldlM_onDetached_eq ls.nodup_dedup fun s hs =>
      hjoined s ((hmem s).2 (List.mem_dedup.1 hs)), hfold]
    rfl
  · rw [Subscriptions.sourceAlive_newSource, Subscriptions.sourceAlive_congr hl]
    constructor
    · rintro (rfl | hs)
      · exact hself
      · exact hs
    · exact .inr
  · rw [Subscriptions.consumerAlive_newSource, ha]
  · rw [Subscriptions.registered_newSource, Subscriptions.registered_congr hl, and_comm]
  · rw [Subscriptions.joined_newSource, hj, slot_eq_some_iff, List.mem_dedup, hmem]

/-- **Closing** a net stream leaves it attached to nothing and nothing attached to it. -/
theorem close_spec (hg : Sound g) (hself : g.SourceAlive self) (hnet : ¬self.IsMedia)
    {stream : Option Stream} (hstream : ∀ t ∈ stream, g.SourceAlive t) :
    ∃ g', close g self stream = some g' ∧ Sound g' ∧ Subscriptions.SameObjects g g' ∧
      ∀ s k t, g'.Joined s k t ↔ g.Joined s k t ∧ s ≠ self ∧ t ≠ self := by
  have hconsumer := (hg.alive_iff self).1 hself
  have hsend := send_eq_some hg.feeds (fun t s hreg => hg.listener_alive hreg) hself
  -- the stream leaves the one its own pointer leads to, the other pointer stays
  obtain ⟨g₁, hremove, hsame₁, hr₁, hj₁⟩ : ∃ g₁, removeFrom g stream self = some g₁ ∧
      Subscriptions.SameObjects g g₁ ∧
      (∀ t s, g₁.Registered t s ↔ g.Registered t s ∧ ¬(stream = some t ∧ s = self)) ∧
      ∀ s k t, g₁.Joined s k t ↔ g.Joined s k t := by
    cases stream with
    | none =>
      exact ⟨g, rfl, ⟨fun _ => Iff.rfl, fun _ => Iff.rfl⟩,
        fun t s => (and_iff_left fun h => nomatch h.1).symm, fun _ _ _ => Iff.rfl⟩
    | some t =>
      obtain ⟨g₁, hremove, hsame₁, hr₁, hj₁⟩ := removeMediaListener_spec 2 (hstream t rfl)
        hconsumer fun hm => absurd hm hnet
      refine ⟨g₁, hremove, hsame₁, fun t' s => ?_, fun s k t => ?_⟩
      · rw [hr₁, Option.some.injEq, eq_comm (a := t)]
      · rw [hj₁]
        exact and_iff_left fun h => hnet h.2.1
  have hlistener : ∀ s, g₁.Registered self s → s.IsMedia ∧ g.Registered self s := by
    intro s hreg
    have hreg := ((hr₁ self s).1 hreg).1
    have hfeed := hg.feeds self s hreg
    refine ⟨?_, hreg⟩
    cases self <;> cases s <;> simp_all [Stream.Feeds, Stream.IsMedia]
  have hnotself : ¬g₁.Registered self self := fun h => hnet (hlistener self h).1
  obtain ⟨g₂, hall, hsame₂, hr₂, hj₂⟩ := removeAllMediaListeners_spec (g := g₁)
    ((hsame₁.sourceAlive self).2 hself)
    (fun s hreg => (hsame₁.consumerAlive s).2 (hg.lawful.consumerAlive (hlistener s hreg).2))
    fun s hreg _ => (hj₁ s () self).2 ((hg.joined_iff s self).2 (hlistener s hreg).2)
  have hsame₁₂ := hsame₁.trans hsame₂
  obtain ⟨g₃, hleave, hsame₃, hr₃, -, hj₃⟩ := leave_spec (g := g₂)
    ((hsame₁₂.consumerAlive self).2 hconsumer) fun t ht =>
      (hsame₁₂.sourceAlive t).2 (hg.lawful.sourceAlive ((hj₁ self () t).1 ((hj₂ self () t).1 ht).1))
  obtain ⟨g₄, hset⟩ : ∃ g₄, g₃.setJoined self () none = some g₄ :=
    Subscriptions.exists_setJoined
      ((hsame₃.consumerAlive self).2 ((hsame₁₂.consumerAlive self).2 hconsumer))
  obtain ⟨hl₄, hc₄, -⟩ := Subscriptions.setJoined_spec hset
  have hsame : Subscriptions.SameObjects g g₄ := (hsame₁₂.trans hsame₃).trans
    ⟨Subscriptions.sourceAlive_congr hl₄, hc₄⟩
  have hj : ∀ s k t, g₄.Joined s k t ↔ g.Joined s k t ∧ s ≠ self ∧ t ≠ self := by
    intro s k t
    rw [setJoined_self hset]
    rcases eq_or_ne s self with rfl | hs
    · simp
    · rw [if_neg hs, hj₃ s k t hs, hj₂, hj₁, and_iff_right hs]
      refine and_congr_right fun hjoin => not_congr ?_
      constructor
      · rintro ⟨hreg, -⟩
        exact joined_unique hjoin ((hg.joined_iff s self).2 (hlistener s hreg).2)
      · rintro rfl
        have hreg := (hg.joined_iff s t).1 hjoin
        have hreg₁ : g₁.Registered t s := (hr₁ t s).2 ⟨hreg, fun h => hs h.2⟩
        exact ⟨hreg₁, (hlistener s hreg₁).1⟩
  have hr : ∀ t s, g₄.Registered t s ↔ g.Registered t s ∧ s ≠ self ∧ t ≠ self := by
    intro t s
    rw [Subscriptions.registered_congr hl₄, hr₃, hr₂, hr₁]
    rcases eq_or_ne s self with rfl | hs
    · refine iff_of_false ?_ fun h => h.2.1 rfl
      rintro ⟨⟨⟨hreg, -⟩, -⟩, hnot⟩
      refine hnot ⟨rfl, (hj₂ s () t).2 ⟨(hj₁ s () t).2 ((hg.joined_iff s t).2 hreg), ?_⟩⟩
      exact fun h => hnotself h.1
    · simp [hs]
  refine ⟨g₄, ?_, hg.restrict hsame hr hj, hsame, hj⟩
  have hdetach : detach g₂ self = some g₄ := by
    rw [detach, hleave]
    exact hset
  unfold close
  cases self with
  | media name => exact absurd trivial hnet
  | publisher c n =>
    simp only [hsend, hremove, hall, hdetach, Option.bind_eq_bind, Option.bind_some]
  | watcher c n => simp only [hremove, hall, hdetach, Option.bind_eq_bind, Option.bind_some]

/-- Streams are gone, and no attachment has come. -/
abbrev Loses (gone : Stream → Prop) (g g' : Memory) : Prop :=
  Subscriptions.Loses (fun _ => ()) Stream.slot gone gone g g'

theorem Sound.loses {g' : Memory} {gone : Stream → Prop} (h : Sound g) (hloses : Loses gone g g') :
    Sound g' where
  lawful := hloses.lawful
  alive_iff s := by rw [hloses.sourceAlive, hloses.consumerAlive, h.alive_iff]
  feeds t s hreg := h.feeds t s (hloses.registered h.lawful hreg)

theorem Sound.exists_foldlM {ι : Type*} {f : Memory → ι → Option Memory} {A : ι → Stream → Prop}
    {P : ι → Memory → Prop}
    (hstep : ∀ i g, Sound g → P i g → ∃ g', f g i = some g' ∧ Loses (A i) g g')
    (hkeeps : ∀ i j g g', i ≠ j → Loses (A i) g g' → P j g → P j g') {is : List ι}
    (hnodup : is.Nodup) (h : Sound g) (hpre : ∀ i ∈ is, P i g) :
    ∃ g', is.foldlM f g = some g' ∧ Loses (fun s => ∃ i ∈ is, A i s) g g' :=
  Subscriptions.Loses.exists_foldlM (P := fun i g => Sound g ∧ P i g)
    (fun i g _ hP => hstep i g hP.1 hP.2)
    (fun i j g g' hne _ hloses hP => ⟨hP.1.loses hloses, hkeeps i j g g' hne hloses hP.2⟩)
    hnodup h.lawful fun i hi => ⟨h, hpre i hi⟩

theorem free_spec (hg : Sound g) (hself : g.SourceAlive self) (hto : ∀ t, ¬g.Joined self () t)
    (hfrom : ∀ s, ¬g.Joined s () self) :
    ∃ g', free g self = some g' ∧ Loses (· = self) g g' := by
  have hconsumer := (hg.alive_iff self).1 hself
  obtain ⟨g₁, hdetach, hg₁, hsame₁, -, hj₁⟩ := detach_spec hg hconsumer
  have hnone : ∀ s, ¬g₁.Registered self s := fun s hreg =>
    hfrom s ((hj₁ s () self).1 ((hg₁.joined_iff s self).2 hreg)).1
  obtain ⟨g₂, hall, hsame₂, hr₂, hj₂⟩ := removeAllMediaListeners_spec (g := g₁)
    ((hsame₁.sourceAlive self).2 hself) (fun s hreg => absurd hreg (hnone s))
    fun s hreg => absurd hreg (hnone s)
  have hg₂ : Sound g₂ := hg₁.restrict (P := fun t _ => t ≠ self) hsame₂ hr₂ fun s k t => by
    rw [hj₂]
    refine and_congr_right fun hjoin => iff_of_true (fun h => hnone s h.1) ?_
    rintro rfl
    exact hnone s ((hg₁.joined_iff s t).1 hjoin)
  have hsame := hsame₁.trans hsame₂
  have hj : ∀ s k t, g₂.Joined s k t → g.Joined s k t ∧ s ≠ self := fun s k t hjoin =>
    (hj₁ s k t).1 ((hj₂ s k t).1 hjoin).1
  have hnone₂ : ∀ s, ¬g₂.Joined s () self := fun s hjoin => hfrom s (hj s () self hjoin).1
  refine ⟨(g₂.freeSource self).freeConsumer self, ?_, ⟨fun s k t => ?_, fun _ _ _ _ _ _ => rfl⟩,
    fun s k t hjoin => ?_, fun s => ?_, fun s => ?_⟩
  · rw [free, hdetach]
    simp only [Option.bind_eq_bind, Option.bind_some, hall]
    rfl
  · rw [Subscriptions.joined_freeConsumer, Subscriptions.joined_freeSource,
      Subscriptions.registered_freeConsumer, Subscriptions.registered_freeSource,
      hg₂.joined_iff s t, and_iff_left rfl]
    refine and_congr_left fun hreg => iff_of_true ?_ ?_
    · rintro rfl
      exact (hj s () t ((hg₂.joined_iff s t).2 hreg)).2 rfl
    · rintro rfl
      exact hnone₂ s ((hg₂.joined_iff s t).2 hreg)
  · rw [Subscriptions.joined_freeConsumer, Subscriptions.joined_freeSource] at hjoin
    exact (hj s k t hjoin.2).1
  · rw [Subscriptions.sourceAlive_freeConsumer, Subscriptions.sourceAlive_freeSource,
      hsame.sourceAlive, and_comm]
  · rw [Subscriptions.consumerAlive_freeConsumer, Subscriptions.consumerAlive_freeSource,
      hsame.consumerAlive, and_comm]

/-- **Deleting** a net stream. -/
theorem deleteNetStream_spec (hg : Sound g) (hself : g.SourceAlive self) (hnet : ¬self.IsMedia)
    {stream : Option Stream} (hstream : ∀ t ∈ stream, g.SourceAlive t) :
    ∃ g', deleteNetStream g self stream = some g' ∧ Loses (· = self) g g' := by
  obtain ⟨g₁, hclose, hg₁, hsame₁, hj₁⟩ := close_spec hg hself hnet hstream
  obtain ⟨g₂, hfree, hloses⟩ := free_spec hg₁ ((hsame₁.sourceAlive self).2 hself)
    (fun t h => ((hj₁ self () t).1 h).2.1 rfl) fun s h => ((hj₁ s () self).1 h).2.2 rfl
  refine ⟨g₂, ?_, hloses.lawful, fun s k t hjoin => ?_, fun s => ?_, fun s => ?_⟩
  · rw [deleteNetStream, hclose]
    exact hfree
  · exact ((hj₁ s k t).1 (hloses.joined s k t hjoin)).1
  · rw [hloses.sourceAlive, hsame₁.sourceAlive]
  · rw [hloses.consumerAlive, hsame₁.consumerAlive]

theorem newStream_spec (hg : Sound g) (self : Stream) (hself : ¬g.SourceAlive self) :
    Sound (newStream g self) ∧
      (∀ s, (newStream g self).SourceAlive s ↔ g.SourceAlive s ∨ s = self) ∧
      ∀ s k t, (newStream g self).Joined s k t ↔ g.Joined s k t := by
  have hconsumer : ¬g.ConsumerAlive self := fun h => hself ((hg.alive_iff self).2 h)
  have hlawful := (hg.lawful.newSource hself).newConsumer (c := self) hconsumer
  refine ⟨⟨hlawful, fun s => ?_, fun t s hreg => ?_⟩, fun s => ?_, fun s k t => ?_⟩
  · rw [newStream, Subscriptions.sourceAlive_newConsumer, Subscriptions.sourceAlive_newSource,
      Subscriptions.consumerAlive_newConsumer, Subscriptions.consumerAlive_newSource, hg.alive_iff]
  · rw [newStream, Subscriptions.registered_newConsumer,
      Subscriptions.registered_newSource] at hreg
    exact hg.feeds t s hreg.2
  · rw [newStream, Subscriptions.sourceAlive_newConsumer, Subscriptions.sourceAlive_newSource,
      or_comm]
  · rw [newStream, Subscriptions.joined_newConsumer, Subscriptions.joined_newSource]
    refine and_iff_right_of_imp ?_
    rintro hjoin rfl
    exact hconsumer hjoin.alive

end Closing

end McuMediaServer.Broadcast
