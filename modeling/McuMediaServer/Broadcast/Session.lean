import McuMediaServer.Base.Run
import McuMediaServer.Broadcast.Streams

/-!
# Broadcast sessions

Publishers and watchers connect to a session and create net streams. A published name makes a media
stream, which lasts until the session ends; the net stream that published last feeds it. A watcher
attaches its net stream to the media stream of a name and keeps it in a pointer of its own.

`consistent_iff_clears` says that nothing ever calls into a stream that is gone, whatever the order
of the calls, and exactly when a net stream that was closed or detached still has a pointer.
-/

namespace McuMediaServer.Broadcast

open StepRun
open Amf (WString)

/-- Reference: `broadcastsession.h:67`, `NetConnection::Type`. -/
inductive ConnectionType where
  | publisher
  | watcher
  deriving DecidableEq

/-- The net stream with a number of a connection. Reference: `broadcastsession.cpp:280`. -/
def ConnectionType.netStream : ConnectionType → Nat → Nat → Stream
  | publisher, connection, number => .publisher connection number
  | watcher, connection, number => .watcher connection number

/-- A connection with the numbers of its net streams. Reference: `broadcastsession.h:64`,
`rtmpnetconnection.h:12`. -/
structure NetConnection where
  type : ConnectionType
  streams : List Nat := []

/-- Reference: `broadcastsession.h:13`. -/
structure BroadcastSession where
  inited : Bool := true
  memory : Memory := .empty
  /-- The pointers `stream` of the net streams. -/
  stream : Stream → Option Stream := fun _ => none
  /-- The names of the media streams; the stream of a name is `Stream.media name`. -/
  streams : List WString := []
  /-- The connections in memory. -/
  connections : Nat → Option NetConnection := fun _ => none
  publishers : List Nat := []
  watchers : List Nat := []
  /-- The number of the next connection or net stream. -/
  next : Nat := 0

namespace BroadcastSession

variable (s : BroadcastSession)

/-- A connection of a type has a net stream. -/
def has (type : ConnectionType) (connection number : Nat) : Bool :=
  match s.connections connection with
  | some conn => conn.type = type && conn.streams.contains number
  | none => false

/-- Reference: `broadcastsession.cpp:101`, `broadcastsession.cpp:126`. -/
def connect (type : ConnectionType) : BroadcastSession :=
  if s.inited then
    { s with
      connections := Function.update s.connections s.next (some { type })
      publishers := if type = .publisher then s.next :: s.publishers else s.publishers
      watchers := if type = .watcher then s.next :: s.watchers else s.watchers
      next := s.next + 1 }
  else s

/-- Reference: `broadcastsession.cpp:280`. -/
def createStream (connection : Nat) : BroadcastSession :=
  match s.connections connection with
  | some conn =>
    let self := conn.type.netStream connection s.next
    { s with
      memory := newStream s.memory self
      stream := Function.update s.stream self none
      connections := Function.update s.connections connection
        (some { conn with streams := s.next :: conn.streams })
      next := s.next + 1 }
  | none => s

/-- Reference: `broadcastsession.cpp:295`. -/
def deleteStream (connection number : Nat) : Option BroadcastSession :=
  match s.connections connection with
  | some conn =>
    if number ∈ conn.streams then do
      let self := conn.type.netStream connection number
      let memory ← deleteNetStream s.memory self (s.stream self)
      return { s with
        memory
        connections := Function.update s.connections connection
          (some { conn with streams := conn.streams.filter (· ≠ number) }) }
    else some s
  | none => some s

/-- The name in a url ends at its query. Reference: `broadcastsession.cpp:204`. -/
def nameOf (url : WString) : WString :=
  url.takeWhile (· ≠ '?'.toNat)

/-- Reference: `broadcastsession.cpp:324`, `broadcastsession.cpp:197`. -/
def doPublish (self : Stream) (url : WString) : Option BroadcastSession :=
  let name := nameOf url
  if name ∈ s.streams then do
    let memory ← attach s.memory (.media name) (some self)
    return { s with memory }
  else do
    let memory ← attach (newStream s.memory (.media name)) (.media name) (some self)
    return { s with memory, streams := name :: s.streams }

/-- Reference: `broadcastsession.cpp:382`, `broadcastsession.cpp:174`. -/
def doPlay (self : Stream) (url : WString) : Option BroadcastSession :=
  if url ∈ s.streams then do
    let memory ← attach s.memory self (some (.media url))
    return { s with memory, stream := Function.update s.stream self (some (.media url)) }
  else
    some { s with stream := Function.update s.stream self none }

/-- Reference: `broadcastsession.cpp:332`, `broadcastsession.cpp:397`. -/
def doClose (self : Stream) : Option BroadcastSession := do
  let memory ← close s.memory self (s.stream self)
  return { s with memory }

/-- Reference: `rtmpstream.cpp:232`. -/
def doDetach (self : Stream) : Option BroadcastSession := do
  let memory ← detach s.memory self
  return { s with memory }

/-- Delete a connection with its net streams. Reference: `rtmpnetconnection.cpp:3`. -/
def deleteConnection (connection : Nat) : Option BroadcastSession := do
  let conn ← s.connections connection
  let memory ← conn.streams.foldlM (fun memory number =>
    let self := conn.type.netStream connection number
    deleteNetStream memory self (s.stream self)) s.memory
  return { s with memory, connections := Function.update s.connections connection none }

/-- Reference: `broadcastsession.cpp:152`. -/
def onDisconnected (connection : Nat) : Option BroadcastSession :=
  match s.connections connection with
  | some conn =>
    deleteConnection { s with
      publishers :=
        if conn.type = .publisher then s.publishers.filter (· ≠ connection) else s.publishers
      watchers :=
        if conn.type = .watcher then s.watchers.filter (· ≠ connection) else s.watchers } connection
  | none => some s

/-- Delete the media streams. Reference: `broadcastsession.cpp:65`. -/
def deleteStreams : Option BroadcastSession := do
  let memory ← s.streams.foldlM (fun memory name => free memory (.media name)) s.memory
  return { s with memory, streams := [] }

/-- End the session: the connections of the watchers are deleted, those of the publishers and the
media streams. Reference: `broadcastsession.cpp:39`. -/
def endSession : Option BroadcastSession :=
  if s.inited then do
    let s ← s.watchers.foldlM deleteConnection { s with inited := false }
    let s ← s.publishers.foldlM deleteConnection { s with watchers := [] }
    deleteStreams { s with publishers := [] }
  else some s

/-- What the clients and the server call. A client has no other streams than those of its
connection. -/
inductive Input where
  | init
  | connect (type : ConnectionType)
  | createStream (connection : Nat)
  | deleteStream (connection number : Nat)
  | publish (connection number : Nat) (url : WString)
  | play (connection number : Nat) (url : WString)
  | send (type : ConnectionType) (connection number : Nat)
  | close (type : ConnectionType) (connection number : Nat)
  | detach (type : ConnectionType) (connection number : Nat)
  | disconnect (connection : Nat)
  | endSession

/-- The session after a call. There is no value when the call goes to a stream that is gone or
through a null pointer. -/
def step : Input → Option BroadcastSession
  | .init => some { s with inited := true }
  | .connect type => some (s.connect type)
  | .createStream connection => some (s.createStream connection)
  | .deleteStream connection number => s.deleteStream connection number
  | .publish connection number url =>
    if s.has .publisher connection number then s.doPublish (.publisher connection number) url
    else some s
  | .play connection number url =>
    if s.has .watcher connection number then s.doPlay (.watcher connection number) url
    else some s
  | .send type connection number =>
    if s.has type connection number then
      (Broadcast.send depth s.memory (type.netStream connection number)).map fun _ => s
    else some s
  | .close type connection number =>
    if s.has type connection number then s.doClose (type.netStream connection number) else some s
  | .detach type connection number =>
    if s.has type connection number then s.doDetach (type.netStream connection number) else some s
  | .disconnect connection => s.onDisconnected connection
  | .endSession => s.endSession

/-! ## What is kept -/

/-- The session or one of its connections holds a stream. -/
def Owns : Stream → Prop
  | .media name => name ∈ s.streams
  | .publisher connection number => s.has .publisher connection number
  | .watcher connection number => s.has .watcher connection number

/-- What holds in the middle of a call too: the attachments agree and are between the streams that
are held, and the pointers of watchers lead to media streams. -/
structure Core (s : BroadcastSession) : Prop where
  sound : Sound s.memory
  alive_iff : ∀ t, s.memory.SourceAlive t ↔ s.Owns t
  stream_eq : ∀ t m, s.stream t = some m → t.IsWatcher ∧ (s.Owns t → m.IsMedia ∧ s.Owns m)
  streams_nodup : s.streams.Nodup
  numbers : ∀ c conn, s.connections c = some conn →
    c < s.next ∧ conn.streams.Nodup ∧ ∀ n ∈ conn.streams, n < s.next

/-- What holds between calls: the connections are those of the two sets besides. -/
structure Inv (s : BroadcastSession) : Prop extends Core s where
  publishers_iff : ∀ c, c ∈ s.publishers ↔
    ∃ conn, s.connections c = some conn ∧ conn.type = .publisher
  watchers_iff : ∀ c, c ∈ s.watchers ↔ ∃ conn, s.connections c = some conn ∧ conn.type = .watcher
  publishers_nodup : s.publishers.Nodup
  watchers_nodup : s.watchers.Nodup

/-- A net stream that does not play or publish gets no pointer. -/
def Keeps (s s' : BroadcastSession) (plays : Stream → Prop) : Prop :=
  ∀ n, ¬n.IsMedia → ¬plays n → s'.Owns n →
    (∀ t, s'.memory.Joined n () t → s.Owns n ∧ s.memory.Joined n () t) ∧
    ∀ t, s'.stream n = some t → s.Owns n ∧ s.stream n = some t

variable {s' : BroadcastSession}

section Streams

variable {s : BroadcastSession} {type : ConnectionType} {c n : Nat} {t : Stream}

theorem has_iff : s.has type c n = true ↔
    ∃ conn, s.connections c = some conn ∧ conn.type = type ∧ n ∈ conn.streams := by
  unfold has
  cases s.connections c <;> simp

theorem owns_netStream : s.Owns (type.netStream c n) ↔ s.has type c n = true := by
  cases type <;> rfl

theorem not_isMedia_netStream : ¬(type.netStream c n).IsMedia := by
  cases type <;> exact id

theorem media_ne_netStream (name : WString) : .media name ≠ type.netStream c n := by
  cases type <;> exact fun h => nomatch h

theorem netStream_inj {type' : ConnectionType} {c' n' : Nat} :
    type.netStream c n = type'.netStream c' n' ↔ type = type' ∧ c = c' ∧ n = n' := by
  cases type <;> cases type' <;> simp [ConnectionType.netStream]

theorem exists_netStream (h : ¬t.IsMedia) : ∃ type c n, t = ConnectionType.netStream type c n := by
  cases t with
  | media name => exact absurd trivial h
  | publisher c n => exact ⟨.publisher, c, n, rfl⟩
  | watcher c n => exact ⟨.watcher, c, n, rfl⟩

theorem owns_congr {p : Stream → Prop} (hmedia : ∀ name, name ∈ s'.streams ↔ p (.media name))
    (hnet : ∀ type c n, s'.has type c n = true ↔ p (ConnectionType.netStream type c n))
    (t : Stream) : s'.Owns t ↔ p t := by
  rcases Classical.em t.IsMedia with hm | hm
  · cases t with
    | media name => exact hmedia name
    | publisher c n => exact absurd hm id
    | watcher c n => exact absurd hm id
  · obtain ⟨type, c, n, rfl⟩ := exists_netStream hm
    rw [owns_netStream, hnet]

theorem has_update {conn : NetConnection} (conn' : NetConnection)
    (hconn : s.connections c = some conn) (htype : conn'.type = conn.type)
    (hs' : s'.connections = Function.update s.connections c (some conn')) {p : Nat → Prop}
    (hstreams : ∀ n, n ∈ conn'.streams ↔ p n) (type' : ConnectionType) (c' n' : Nat) :
    s'.has type' c' n' = true ↔
      if c' = c then conn.type = type' ∧ p n' else s.has type' c' n' = true := by
  rw [has_iff, hs']
  rcases eq_or_ne c' c with rfl | hne
  · simp [htype, hstreams]
  · simp [has_iff, hne]

end Streams

section Attachments

variable {s : BroadcastSession} {memory : Memory}

theorem Core.withMemory (h : Core s) (hsound : Sound memory)
    (hsame : Subscriptions.SameObjects s.memory memory) (stream : Stream → Option Stream)
    (hstream : ∀ t m, stream t = some m → t.IsWatcher ∧ (s.Owns t → m.IsMedia ∧ s.Owns m)) :
    Core { s with memory, stream } where
  sound := hsound
  alive_iff t := (hsame.sourceAlive t).trans (h.alive_iff t)
  stream_eq := hstream
  streams_nodup := h.streams_nodup
  numbers := h.numbers

theorem Inv.withMemory (h : Inv s) (hsound : Sound memory)
    (hsame : Subscriptions.SameObjects s.memory memory) (stream : Stream → Option Stream)
    (hstream : ∀ t m, stream t = some m → t.IsWatcher ∧ (s.Owns t → m.IsMedia ∧ s.Owns m)) :
    Inv { s with memory, stream } where
  toCore := h.toCore.withMemory hsound hsame stream hstream
  publishers_iff := h.publishers_iff
  watchers_iff := h.watchers_iff
  publishers_nodup := h.publishers_nodup
  watchers_nodup := h.watchers_nodup

end Attachments

section Operations

variable {s : BroadcastSession} {c n : Nat} {url : WString}

theorem connect_spec (h : Inv s) (type : ConnectionType) :
    Inv (s.connect type) ∧ Keeps s (s.connect type) fun _ => False := by
  unfold connect
  rcases Classical.em (s.inited = true) with hinited | hinited
  · rw [if_pos hinited]
    have hfresh : s.connections s.next = none := by
      cases hconn : s.connections s.next with
      | none => rfl
      | some conn => exact absurd (h.numbers s.next conn hconn).1 (Nat.lt_irrefl _)
    have hnotp : s.next ∉ s.publishers := fun hmem => by
      obtain ⟨conn, hconn, -⟩ := (h.publishers_iff s.next).1 hmem
      rw [hfresh] at hconn
      cases hconn
    have hnotw : s.next ∉ s.watchers := fun hmem => by
      obtain ⟨conn, hconn, -⟩ := (h.watchers_iff s.next).1 hmem
      rw [hfresh] at hconn
      cases hconn
    have howns : ∀ t, Owns { s with
        connections := Function.update s.connections s.next (some { type })
        publishers := if type = .publisher then s.next :: s.publishers else s.publishers
        watchers := if type = .watcher then s.next :: s.watchers else s.watchers
        next := s.next + 1 } t ↔ s.Owns t := by
      refine owns_congr (fun name => Iff.rfl) fun type' c' n' => ?_
      rw [owns_netStream, has_iff, has_iff]
      rcases eq_or_ne c' s.next with rfl | hne
      · simp [hfresh]
      · simp [hne]
    refine ⟨⟨⟨h.sound, fun t => ?_, fun t m hm => ?_, h.streams_nodup, ?_⟩, ?_, ?_, ?_, ?_⟩, ?_⟩
    · rw [howns]
      exact h.alive_iff t
    · rw [howns, howns]
      exact h.stream_eq t m hm
    · intro c conn hconn
      change Function.update s.connections s.next (some { type }) c = some conn at hconn
      rcases eq_or_ne c s.next with rfl | hne
      · rw [Function.update_self] at hconn
        obtain rfl := Option.some.inj hconn
        exact ⟨Nat.lt_succ_self _, List.nodup_nil, fun n hn => absurd hn List.not_mem_nil⟩
      · rw [Function.update_of_ne hne] at hconn
        obtain ⟨hc, hnodup, hlt⟩ := h.numbers c conn hconn
        exact ⟨Nat.lt_succ_of_lt hc, hnodup, fun n hn => Nat.lt_succ_of_lt (hlt n hn)⟩
    · intro c
      have hiff := h.publishers_iff c
      rcases eq_or_ne c s.next with rfl | hne
      · cases type <;> simp [hnotp]
      · cases type <;> simp [hne, hiff]
    · intro c
      have hiff := h.watchers_iff c
      rcases eq_or_ne c s.next with rfl | hne
      · cases type <;> simp [hnotw]
      · cases type <;> simp [hne, hiff]
    · cases type with
      | publisher => exact List.nodup_cons.2 ⟨hnotp, h.publishers_nodup⟩
      | watcher => exact h.publishers_nodup
    · cases type with
      | publisher => exact h.watchers_nodup
      | watcher => exact List.nodup_cons.2 ⟨hnotw, h.watchers_nodup⟩
    · intro n _ _ hn
      rw [howns] at hn
      exact ⟨fun t ht => ⟨hn, ht⟩, fun t ht => ⟨hn, ht⟩⟩
  · rw [if_neg hinited]
    exact ⟨h, fun n _ _ hn => ⟨fun t ht => ⟨hn, ht⟩, fun t ht => ⟨hn, ht⟩⟩⟩

theorem Inv.ofCore (h : Inv s) (hcore : Core s')
    (hpublishers : s'.publishers = s.publishers) (hwatchers : s'.watchers = s.watchers)
    (htypes : ∀ c type, (∃ conn, s'.connections c = some conn ∧ conn.type = type) ↔
      ∃ conn, s.connections c = some conn ∧ conn.type = type) : Inv s' where
  toCore := hcore
  publishers_iff c := by rw [hpublishers, h.publishers_iff, htypes]
  watchers_iff c := by rw [hwatchers, h.watchers_iff, htypes]
  publishers_nodup := hpublishers ▸ h.publishers_nodup
  watchers_nodup := hwatchers ▸ h.watchers_nodup

theorem types_update {conn conn' : NetConnection} (hconn : s.connections c = some conn)
    (htype : conn'.type = conn.type) (c' : Nat) (type : ConnectionType) :
    (∃ d, Function.update s.connections c (some conn') c' = some d ∧ d.type = type) ↔
      ∃ d, s.connections c' = some d ∧ d.type = type := by
  rcases eq_or_ne c' c with rfl | hne
  · simp [hconn, htype]
  · simp [hne]

theorem createStream_spec (h : Inv s) (c : Nat) :
    Inv (s.createStream c) ∧ Keeps s (s.createStream c) fun _ => False := by
  unfold createStream
  cases hconn : s.connections c with
  | none => exact ⟨h, fun n _ _ hn => ⟨fun t ht => ⟨hn, ht⟩, fun t ht => ⟨hn, ht⟩⟩⟩
  | some conn =>
    obtain ⟨hc, hnodup, hlt⟩ := h.numbers c conn hconn
    have hnew : ¬s.Owns (conn.type.netStream c s.next) := by
      rw [owns_netStream, has_iff]
      rintro ⟨conn', hconn', -, hmem⟩
      exact absurd ((h.numbers c conn' hconn').2.2 s.next hmem) (Nat.lt_irrefl _)
    obtain ⟨hsound, halive, hjoined⟩ := newStream_spec h.sound (conn.type.netStream c s.next)
      fun ha => hnew ((h.alive_iff _).1 ha)
    simp only
    generalize hself : conn.type.netStream c s.next = self at *
    have howns : ∀ t, Owns { s with
        memory := newStream s.memory self
        stream := Function.update s.stream self none
        connections := Function.update s.connections c
          (some { conn with streams := s.next :: conn.streams })
        next := s.next + 1 } t ↔ s.Owns t ∨ t = self := by
      refine owns_congr (fun name => ?_) fun type' c' n' => ?_
      · rw [← hself]
        exact (or_iff_left (media_ne_netStream name)).symm
      · rw [has_update { conn with streams := s.next :: conn.streams } hconn rfl rfl
          (fun n => List.mem_cons), owns_netStream, ← hself, netStream_inj, has_iff]
        rcases eq_or_ne c' c with rfl | hne
        · simp only [hconn, if_true, Option.some.injEq, exists_eq_left', true_and]
          constructor
          · rintro ⟨rfl, rfl | hmem⟩
            · exact .inr ⟨rfl, rfl⟩
            · exact .inl ⟨rfl, hmem⟩
          · rintro (⟨rfl, hmem⟩ | ⟨rfl, rfl⟩)
            · exact ⟨rfl, .inr hmem⟩
            · exact ⟨rfl, .inl rfl⟩
        · simp [hne]
    refine ⟨h.ofCore ⟨hsound, fun t => ?_, fun t m hm => ?_, h.streams_nodup, ?_⟩ rfl rfl
      (types_update hconn rfl), ?_⟩
    · rw [howns, halive, h.alive_iff]
    · rw [howns, howns]
      change Function.update s.stream self none t = some m at hm
      rcases eq_or_ne t self with rfl | hne
      · rw [Function.update_self] at hm
        cases hm
      · rw [Function.update_of_ne hne] at hm
        obtain ⟨hw, hheld⟩ := h.stream_eq t m hm
        refine ⟨hw, fun ht => ?_⟩
        obtain ⟨hm', hown⟩ := hheld (ht.resolve_right hne)
        exact ⟨hm', .inl hown⟩
    · intro c' conn' hconn'
      change Function.update s.connections c _ c' = some conn' at hconn'
      rcases eq_or_ne c' c with rfl | hne
      · rw [Function.update_self] at hconn'
        obtain rfl := Option.some.inj hconn'
        refine ⟨Nat.lt_succ_of_lt hc, List.nodup_cons.2 ⟨fun hmem => ?_, hnodup⟩, ?_⟩
        · exact absurd (hlt s.next hmem) (Nat.lt_irrefl _)
        · intro n hn
          rcases List.mem_cons.1 hn with rfl | hn
          · exact Nat.lt_succ_self _
          · exact Nat.lt_succ_of_lt (hlt n hn)
      · rw [Function.update_of_ne hne] at hconn'
        obtain ⟨hc', hnodup', hlt'⟩ := h.numbers c' conn' hconn'
        exact ⟨Nat.lt_succ_of_lt hc', hnodup', fun n hn => Nat.lt_succ_of_lt (hlt' n hn)⟩
    · intro n _ _ hn
      rw [howns] at hn
      refine ⟨fun t ht => ?_, fun t ht => ?_⟩
      · have hjoin := (hjoined n () t).1 ht
        exact ⟨(h.alive_iff n).1 ((h.sound.alive_iff n).2 hjoin.alive), hjoin⟩
      · change Function.update s.stream self none n = some t at ht
        rcases eq_or_ne n self with rfl | hne
        · simp at ht
        · rw [Function.update_of_ne hne] at ht
          exact ⟨hn.resolve_right hne, ht⟩

theorem Core.stream_alive (h : Core s) {t m : Stream} (ht : s.Owns t) (hm : s.stream t = some m) :
    s.memory.SourceAlive m :=
  (h.alive_iff m).2 ((h.stream_eq t m hm).2 ht).2

theorem deleteStream_spec (h : Inv s) (c n : Nat) :
    ∃ s', s.deleteStream c n = some s' ∧ Inv s' ∧ Keeps s s' fun _ => False := by
  have hkeeps : Keeps s s fun _ => False := fun n _ _ hn =>
    ⟨fun t ht => ⟨hn, ht⟩, fun t ht => ⟨hn, ht⟩⟩
  unfold deleteStream
  cases hconn : s.connections c with
  | none => exact ⟨s, rfl, h, hkeeps⟩
  | some conn =>
    rcases Classical.em (n ∈ conn.streams) with hmem | hmem
    · simp only [if_pos hmem]
      have hhas : s.has conn.type c n = true := has_iff.2 ⟨conn, hconn, rfl, hmem⟩
      have hself := owns_netStream.2 hhas
      obtain ⟨g, hdelete, hloses⟩ := deleteNetStream_spec h.sound ((h.alive_iff _).2 hself)
        not_isMedia_netStream fun m hm => h.stream_alive hself hm
      have hstreams : ∀ n', n' ∈ conn.streams.filter (· ≠ n) ↔ n' ∈ conn.streams ∧ n' ≠ n :=
        fun n' => by rw [List.mem_filter, decide_eq_true_iff]
      have howns : ∀ t, Owns { s with
          memory := g
          connections := Function.update s.connections c
            (some { conn with streams := conn.streams.filter (· ≠ n) }) } t ↔
          s.Owns t ∧ t ≠ conn.type.netStream c n := by
        refine owns_congr (fun name => ?_) fun type' c' n' => ?_
        · exact (and_iff_left (media_ne_netStream name)).symm
        · rw [has_update { conn with streams := conn.streams.filter (· ≠ n) } hconn rfl rfl
            hstreams, owns_netStream, ne_eq (type'.netStream c' n'), netStream_inj, has_iff]
          rcases eq_or_ne c' c with rfl | hne
          · simp only [hconn, if_true, Option.some.injEq, exists_eq_left', true_and]
            grind
          · simp [hne]
      refine ⟨{ s with
          memory := g
          connections := Function.update s.connections c
            (some { conn with streams := conn.streams.filter (· ≠ n) }) }, by rw [hdelete]; rfl,
        h.ofCore ⟨h.sound.loses hloses, fun t => ?_, fun t m hm => ?_, h.streams_nodup, ?_⟩ rfl rfl
          (types_update hconn rfl), ?_⟩
      · rw [howns, hloses.sourceAlive, h.alive_iff]
      · rw [howns, howns]
        obtain ⟨hw, hheld⟩ := h.stream_eq t m hm
        refine ⟨hw, fun ht => ?_⟩
        obtain ⟨hm', hown⟩ := hheld ht.1
        refine ⟨hm', hown, ?_⟩
        rintro rfl
        exact not_isMedia_netStream hm'
      · intro c' conn' hconn'
        change Function.update s.connections c _ c' = some conn' at hconn'
        rcases eq_or_ne c' c with rfl | hne
        · rw [Function.update_self] at hconn'
          obtain rfl := Option.some.inj hconn'
          obtain ⟨hc, hnodup, hlt⟩ := h.numbers c' conn hconn
          exact ⟨hc, hnodup.filter _, fun n' hn' => hlt n' ((hstreams n').1 hn').1⟩
        · rw [Function.update_of_ne hne] at hconn'
          exact h.numbers c' conn' hconn'
      · intro n' _ _ hn'
        rw [howns] at hn'
        exact ⟨fun t ht => ⟨hn'.1, hloses.joined n' () t ht⟩, fun t ht => ⟨hn'.1, ht⟩⟩
    · simp only [if_neg hmem]
      exact ⟨s, rfl, h, hkeeps⟩

theorem doPublish_spec (h : Inv s) (hhas : s.has .publisher c n = true) (url : WString) :
    ∃ s', s.doPublish (.publisher c n) url = some s' ∧ Inv s' ∧ Keeps s s' fun _ => False := by
  have hself : s.memory.SourceAlive (.publisher c n) := (h.alive_iff _).2 hhas
  unfold doPublish
  rcases Classical.em (nameOf url ∈ s.streams) with hname | hname
  · simp only [if_pos hname]
    obtain ⟨g, hattach, hsound, hsame, hj⟩ := attach_spec h.sound (.media (nameOf url))
      (some (.publisher c n)) ((h.alive_iff (.media (nameOf url))).2 hname) (by
        intro t ht
        obtain rfl := Option.some.inj ht
        exact ⟨hself, trivial⟩)
    refine ⟨{ s with memory := g }, by rw [hattach]; rfl,
      h.withMemory hsound hsame s.stream h.stream_eq, fun n' hm _ hn' => ⟨fun t ht => ⟨hn', ?_⟩,
        fun t ht => ⟨hn', ht⟩⟩⟩
    rw [hj, if_neg] at ht
    · exact ht
    · rintro rfl
      exact hm trivial
  · simp only [if_neg hname]
    obtain ⟨hsound, halive, hjoined⟩ := newStream_spec h.sound (.media (nameOf url))
      fun ha => hname ((h.alive_iff (.media (nameOf url))).1 ha)
    obtain ⟨g, hattach, hsound', hsame, hj⟩ := attach_spec hsound (.media (nameOf url))
      (some (.publisher c n)) ((halive _).2 (.inr rfl)) (by
        intro t ht
        obtain rfl := Option.some.inj ht
        exact ⟨(halive _).2 (.inl hself), trivial⟩)
    have howns : ∀ t, Owns { s with memory := g, streams := nameOf url :: s.streams } t ↔
        s.Owns t ∨ t = .media (nameOf url) := by
      refine owns_congr (fun name => ?_) fun type' c' n' => ?_
      · rw [List.mem_cons, or_comm, Stream.media.injEq]
        rfl
      · rw [owns_netStream]
        exact (or_iff_left fun heq => media_ne_netStream _ heq.symm).symm
    refine ⟨{ s with memory := g, streams := nameOf url :: s.streams }, by rw [hattach]; rfl,
      h.ofCore ⟨hsound', fun t => ?_, fun t m hm => ?_,
        List.nodup_cons.2 ⟨hname, h.streams_nodup⟩, h.numbers⟩ rfl rfl fun _ _ => Iff.rfl, ?_⟩
    · rw [howns, hsame.sourceAlive, halive, h.alive_iff]
    · rw [howns, howns]
      obtain ⟨hw, hheld⟩ := h.stream_eq t m hm
      refine ⟨hw, ?_⟩
      rintro (ht | rfl)
      · exact ⟨(hheld ht).1, .inl (hheld ht).2⟩
      · exact absurd hw id
    · intro n' hm _ hn'
      rw [howns] at hn'
      have hne : n' ≠ .media (nameOf url) := by
        rintro rfl
        exact hm trivial
      have hn' := hn'.resolve_right hne
      refine ⟨fun t ht => ⟨hn', ?_⟩, fun t ht => ⟨hn', ht⟩⟩
      rw [hj, if_neg hne, hjoined] at ht
      exact ht

theorem doPlay_spec (h : Inv s) (hhas : s.has .watcher c n = true) (url : WString) :
    ∃ s', s.doPlay (.watcher c n) url = some s' ∧ Inv s' ∧ Keeps s s' (· = .watcher c n) := by
  unfold doPlay
  rcases Classical.em (url ∈ s.streams) with hname | hname
  · simp only [if_pos hname]
    obtain ⟨g, hattach, hsound, hsame, hj⟩ := attach_spec h.sound (.watcher c n) (some (.media url))
      ((h.alive_iff (.watcher c n)).2 hhas) (by
        intro t ht
        obtain rfl := Option.some.inj ht
        exact ⟨(h.alive_iff (.media url)).2 hname, trivial⟩)
    refine ⟨{ s with
        memory := g
        stream := Function.update s.stream (.watcher c n) (some (.media url)) },
      by rw [hattach]; rfl, h.withMemory hsound hsame _ fun t m hm => ?_,
      fun n' _ hne hn' => ⟨fun t ht => ⟨hn', ?_⟩, fun t ht => ⟨hn', ?_⟩⟩⟩
    · rcases eq_or_ne t (.watcher c n) with rfl | hne
      · rw [Function.update_self] at hm
        obtain rfl := Option.some.inj hm
        exact ⟨trivial, fun _ => ⟨trivial, hname⟩⟩
      · rw [Function.update_of_ne hne] at hm
        exact h.stream_eq t m hm
    · rw [hj, if_neg hne] at ht
      exact ht
    · change Function.update s.stream _ _ n' = some t at ht
      rw [Function.update_of_ne hne] at ht
      exact ht
  · simp only [if_neg hname]
    refine ⟨_, rfl, h.withMemory h.sound ⟨fun _ => Iff.rfl, fun _ => Iff.rfl⟩ _
      fun t m hm => ?_, fun n' _ hne hn' => ⟨fun t ht => ⟨hn', ht⟩, fun t ht => ⟨hn', ?_⟩⟩⟩
    · rcases eq_or_ne t (.watcher c n) with rfl | hne
      · rw [Function.update_self] at hm
        cases hm
      · rw [Function.update_of_ne hne] at hm
        exact h.stream_eq t m hm
    · change Function.update s.stream _ _ n' = some t at ht
      rw [Function.update_of_ne hne] at ht
      exact ht

theorem doClose_spec (h : Inv s) {type : ConnectionType} (hhas : s.has type c n = true) :
    ∃ s', s.doClose (type.netStream c n) = some s' ∧ Inv s' ∧ (Keeps s s' fun _ => False) ∧
      (∀ t, ¬s'.memory.Joined (type.netStream c n) () t) ∧ s'.stream = s.stream ∧
      s'.has type c n = true := by
  have hself := owns_netStream.2 hhas
  obtain ⟨g, hclose, hsound, hsame, hj⟩ := close_spec h.sound ((h.alive_iff _).2 hself)
    not_isMedia_netStream fun m hm => h.stream_alive hself hm
  refine ⟨{ s with memory := g }, ?_, h.withMemory hsound hsame s.stream h.stream_eq,
    fun n' _ _ hn' => ⟨fun t ht => ⟨hn', ((hj n' () t).1 ht).1⟩, fun t ht => ⟨hn', ht⟩⟩,
    fun t ht => ((hj _ () t).1 ht).2.1 rfl, rfl, hhas⟩
  rw [doClose, hclose]
  rfl

theorem doDetach_spec (h : Inv s) {type : ConnectionType} (hhas : s.has type c n = true) :
    ∃ s', s.doDetach (type.netStream c n) = some s' ∧ Inv s' ∧ (Keeps s s' fun _ => False) ∧
      (∀ t, ¬s'.memory.Joined (type.netStream c n) () t) ∧ s'.stream = s.stream ∧
      s'.has type c n = true := by
  have hself := owns_netStream.2 hhas
  obtain ⟨g, hdetach, hsound, hsame, -, hj⟩ := detach_spec h.sound
    ((h.sound.alive_iff _).1 ((h.alive_iff _).2 hself))
  refine ⟨{ s with memory := g }, ?_, h.withMemory hsound hsame s.stream h.stream_eq,
    fun n' _ _ hn' => ⟨fun t ht => ⟨hn', ((hj n' () t).1 ht).1⟩, fun t ht => ⟨hn', ht⟩⟩,
    fun t ht => ((hj _ () t).1 ht).2 rfl, rfl, hhas⟩
  rw [doDetach, hdetach]
  rfl

theorem send_spec (h : Inv s) {type : ConnectionType} (hhas : s.has type c n = true) :
    Broadcast.send depth s.memory (type.netStream c n) = some () :=
  send_eq_some h.sound.feeds (fun _ _ hreg => h.sound.listener_alive hreg)
    ((h.alive_iff _).2 (owns_netStream.2 hhas))

theorem deleteConnection_spec (h : Core s) {conn : NetConnection}
    (hconn : s.connections c = some conn) : ∃ g,
      s.deleteConnection c =
        some { s with memory := g, connections := Function.update s.connections c none } ∧
      Core { s with memory := g, connections := Function.update s.connections c none } ∧
      Keeps s { s with memory := g, connections := Function.update s.connections c none }
        fun _ => False := by
  have hhas : ∀ n ∈ conn.streams, s.Owns (conn.type.netStream c n) := fun n hn =>
    owns_netStream.2 (has_iff.2 ⟨conn, hconn, rfl, hn⟩)
  have hinj : ∀ n n', n ≠ n' → conn.type.netStream c n' ≠ conn.type.netStream c n :=
    fun n n' hne heq => hne (netStream_inj.1 heq).2.2.symm
  obtain ⟨g, hfold, hloses⟩ := h.sound.exists_foldlM
    (f := fun memory number =>
      deleteNetStream memory (conn.type.netStream c number)
        (s.stream (conn.type.netStream c number)))
    (A := fun n t => t = conn.type.netStream c n)
    (P := fun n g => g.SourceAlive (conn.type.netStream c n) ∧
      ∀ m ∈ s.stream (conn.type.netStream c n), g.SourceAlive m ∧ m.IsMedia)
    (fun n g hg hP => deleteNetStream_spec hg hP.1 not_isMedia_netStream fun m hm => (hP.2 m hm).1)
    (fun n n' g g' hne hloses hP => ⟨(hloses.sourceAlive _).2 ⟨hP.1, hinj n n' hne⟩, fun m hm =>
      ⟨(hloses.sourceAlive m).2 ⟨(hP.2 m hm).1, fun heq =>
        not_isMedia_netStream (heq ▸ (hP.2 m hm).2)⟩, (hP.2 m hm).2⟩⟩)
    (h.numbers c conn hconn).2.1
    fun n hn => ⟨(h.alive_iff _).2 (hhas n hn), fun m hm =>
      ⟨h.stream_alive (hhas n hn) hm, ((h.stream_eq _ m hm).2 (hhas n hn)).1⟩⟩
  have howns : ∀ t,
      Owns { s with memory := g, connections := Function.update s.connections c none } t ↔
        s.Owns t ∧ ¬∃ n ∈ conn.streams, t = conn.type.netStream c n := by
    refine owns_congr (fun name => ?_) fun type' c' n' => ?_
    · refine (and_iff_left ?_).symm
      rintro ⟨n, -, heq⟩
      exact media_ne_netStream name heq
    · rw [owns_netStream, has_iff, has_iff]
      simp only [netStream_inj]
      rcases eq_or_ne c' c with rfl | hne
      · simp only [Function.update_self, hconn, Option.some.injEq, exists_eq_left']
        grind
      · simp [hne]
  refine ⟨g, ?_, ⟨h.sound.loses hloses, fun t => ?_, fun t m hm => ?_, h.streams_nodup,
    fun c' conn' hconn' => ?_⟩, fun n' _ _ hn' => ?_⟩
  · rw [deleteConnection, hconn]
    simp only [Option.bind_eq_bind, Option.bind_some, hfold]
    rfl
  · rw [howns, hloses.sourceAlive, h.alive_iff]
  · rw [howns, howns]
    obtain ⟨hw, hheld⟩ := h.stream_eq t m hm
    refine ⟨hw, fun ht => ?_⟩
    obtain ⟨hm', hown⟩ := hheld ht.1
    refine ⟨hm', hown, ?_⟩
    rintro ⟨n, -, rfl⟩
    exact not_isMedia_netStream hm'
  · change Function.update s.connections c none c' = some conn' at hconn'
    rcases eq_or_ne c' c with rfl | hne
    · rw [Function.update_self] at hconn'
      cases hconn'
    · rw [Function.update_of_ne hne] at hconn'
      exact h.numbers c' conn' hconn'
  · rw [howns] at hn'
    exact ⟨fun t ht => ⟨hn'.1, hloses.joined n' () t ht⟩, fun t ht => ⟨hn'.1, ht⟩⟩

theorem onDisconnected_spec (h : Inv s) (c : Nat) :
    ∃ s', s.onDisconnected c = some s' ∧ Inv s' ∧ Keeps s s' fun _ => False := by
  unfold onDisconnected
  cases hconn : s.connections c with
  | none => exact ⟨s, rfl, h, fun n _ _ hn => ⟨fun t ht => ⟨hn, ht⟩, fun t ht => ⟨hn, ht⟩⟩⟩
  | some conn =>
    have hcore : Core { s with
        publishers :=
          if conn.type = .publisher then s.publishers.filter (· ≠ c) else s.publishers
        watchers := if conn.type = .watcher then s.watchers.filter (· ≠ c) else s.watchers } :=
      ⟨h.sound, h.alive_iff, h.stream_eq, h.streams_nodup, h.numbers⟩
    obtain ⟨g, hdelete, hcore', hkeeps⟩ := deleteConnection_spec hcore hconn
    refine ⟨_, hdelete, ⟨hcore', fun c' => ?_, fun c' => ?_, ?_, ?_⟩, hkeeps⟩
    · have hiff := h.publishers_iff c'
      simp only
      rcases eq_or_ne c' c with rfl | hne
      · rw [hconn] at hiff
        cases htype : conn.type <;> simp_all
      · cases htype : conn.type <;> simp [hne, hiff]
    · have hiff := h.watchers_iff c'
      simp only
      rcases eq_or_ne c' c with rfl | hne
      · rw [hconn] at hiff
        cases htype : conn.type <;> simp_all
      · cases htype : conn.type <;> simp [hne, hiff]
    · simp only
      split
      · exact h.publishers_nodup.filter _
      · exact h.publishers_nodup
    · simp only
      split
      · exact h.watchers_nodup.filter _
      · exact h.watchers_nodup

theorem foldlM_deleteConnection_spec (cs : List Nat) (hnodup : cs.Nodup) (h : Core s)
    (hcs : ∀ c ∈ cs, s.connections c ≠ none) :
    ∃ s', cs.foldlM deleteConnection s = some s' ∧ Core s' ∧
      (∀ c, s'.connections c = if c ∈ cs then none else s.connections c) ∧
      s'.publishers = s.publishers ∧ s'.watchers = s.watchers := by
  induction cs generalizing s with
  | nil => exact ⟨s, rfl, h, fun c => (if_neg List.not_mem_nil).symm, rfl, rfl⟩
  | cons c cs ih =>
    obtain ⟨hc, hnodup⟩ := List.nodup_cons.1 hnodup
    obtain ⟨conn, hconn⟩ := Option.ne_none_iff_exists'.1 (hcs c List.mem_cons_self)
    obtain ⟨g, hdelete, hcore, -⟩ := deleteConnection_spec h hconn
    obtain ⟨s', hfold, hcore', hconns, hpublishers, hwatchers⟩ := ih hnodup hcore fun c' hc' => by
      have hne : c' ≠ c := by
        rintro rfl
        exact hc hc'
      change Function.update s.connections c none c' ≠ none
      rw [Function.update_of_ne hne]
      exact hcs c' (List.mem_cons_of_mem _ hc')
    refine ⟨s', by rw [List.foldlM_cons, hdelete]; exact hfold, hcore', fun c' => ?_, hpublishers,
      hwatchers⟩
    rw [hconns]
    rcases eq_or_ne c' c with rfl | hne
    · simp
    · simp [hne]

theorem deleteStreams_spec (h : Core s) (hnone : ∀ c, s.connections c = none) :
    ∃ g, s.deleteStreams = some { s with memory := g, streams := [] } ∧
      Core { s with memory := g, streams := [] } := by
  have hhas : ∀ type c n, s.has type c n = false := fun type c n => by
    rw [has, hnone]
  have hmedia : ∀ t, s.memory.SourceAlive t → t.IsMedia := by
    intro t ht
    by_contra hm
    obtain ⟨type, c, n, rfl⟩ := exists_netStream hm
    have hown := owns_netStream.1 ((h.alive_iff _).1 ht)
    rw [hhas] at hown
    cases hown
  obtain ⟨g, hfold, hloses⟩ := h.sound.exists_foldlM
    (f := fun memory name => free memory (.media name))
    (A := fun name t => t = .media name)
    (P := fun name g => g.SourceAlive (.media name) ∧ ∀ t, g.SourceAlive t → t.IsMedia)
    (fun name g hsound hP => by
      obtain ⟨halive, hall⟩ := hP
      -- of two attached streams one is a net stream
      have halone : ∀ s t, ¬g.Joined s () t := by
        intro s t hjoin
        have hs := hall s ((hsound.alive_iff s).2 hjoin.alive)
        have ht := hall t (hsound.lawful.sourceAlive hjoin)
        have hfeed := hsound.feeds t s ((hsound.joined_iff s t).1 hjoin)
        cases s <;> cases t <;> simp_all [Stream.IsMedia, Stream.Feeds]
      exact free_spec hsound halive (fun t => halone _ t) fun s => halone s _)
    (fun name name' g g' hne hloses hP =>
      ⟨(hloses.sourceAlive _).2 ⟨hP.1, fun heq => hne (Stream.media.inj heq).symm⟩,
        fun t ht => hP.2 t ((hloses.sourceAlive t).1 ht).1⟩)
    h.streams_nodup fun name hname => ⟨(h.alive_iff (.media name)).2 hname, hmedia⟩
  refine ⟨g, ?_, h.sound.loses hloses, fun t => ?_, fun t m hm => ⟨(h.stream_eq t m hm).1, ?_⟩,
    List.nodup_nil, fun c conn hconn => ?_⟩
  · rw [deleteStreams, hfold]
    rfl
  · rw [hloses.sourceAlive]
    refine iff_of_false ?_ ?_
    · rintro ⟨halive, hnot⟩
      have hown := (h.alive_iff t).1 halive
      have hm := hmedia t halive
      cases t with
      | media name => exact hnot ⟨name, hown, rfl⟩
      | publisher c n => exact hm
      | watcher c n => exact hm
    · intro hown
      rcases Classical.em t.IsMedia with hm | hm
      · cases t with
        | media name => exact absurd hown List.not_mem_nil
        | publisher c n => exact hm
        | watcher c n => exact hm
      · obtain ⟨type, c, n, rfl⟩ := exists_netStream hm
        rw [owns_netStream] at hown
        change s.has type c n = true at hown
        rw [hhas] at hown
        cases hown
  · intro hown
    have hw := (h.stream_eq t m hm).1
    cases t with
    | media name => exact absurd hw id
    | publisher c n => exact absurd hw id
    | watcher c n =>
      change s.has .watcher c n = true at hown
      rw [hhas] at hown
      cases hown
  · change s.connections c = some conn at hconn
    rw [hnone] at hconn
    cases hconn

/-- **The end of a session** deletes everything. -/
theorem endSession_spec (h : Inv s) :
    ∃ s', s.endSession = some s' ∧ Inv s' ∧ Keeps s s' fun _ => False := by
  unfold endSession
  rcases Classical.em (s.inited = true) with hinited | hinited
  · rw [if_pos hinited]
    obtain ⟨s₁, hfold₁, hcore₁, hconns₁, hpublishers₁, -⟩ :=
      foldlM_deleteConnection_spec (s := { s with inited := false }) s.watchers h.watchers_nodup
        ⟨h.sound, h.alive_iff, h.stream_eq, h.streams_nodup, h.numbers⟩ fun c hc => by
          obtain ⟨conn, hconn, -⟩ := (h.watchers_iff c).1 hc
          exact Option.ne_none_iff_exists'.2 ⟨conn, hconn⟩
    have hpublisher : ∀ c ∈ s.publishers, s₁.connections c ≠ none := by
      intro c hc
      obtain ⟨conn, hconn, htype⟩ := (h.publishers_iff c).1 hc
      have hnot : c ∉ s.watchers := fun hw => by
        obtain ⟨conn', hconn', htype'⟩ := (h.watchers_iff c).1 hw
        rw [hconn] at hconn'
        obtain rfl := Option.some.inj hconn'
        rw [htype] at htype'
        cases htype'
      rw [hconns₁, if_neg hnot]
      exact Option.ne_none_iff_exists'.2 ⟨conn, hconn⟩
    obtain ⟨s₂, hfold₂, hcore₂, hconns₂, -, hwatchers₂⟩ :=
      foldlM_deleteConnection_spec (s := { s₁ with watchers := [] }) s₁.publishers
        (hpublishers₁ ▸ h.publishers_nodup)
        ⟨hcore₁.sound, hcore₁.alive_iff, hcore₁.stream_eq, hcore₁.streams_nodup, hcore₁.numbers⟩
        fun c hc => hpublisher c (hpublishers₁ ▸ hc)
    have hnone : ∀ c, s₂.connections c = none := by
      intro c
      rw [hconns₂]
      split
      case isTrue => rfl
      case isFalse hpub =>
        change s₁.connections c = none
        rw [hconns₁]
        split
        case isTrue => rfl
        case isFalse hwatch =>
          cases hconn : s.connections c with
          | none => rfl
          | some conn =>
            cases htype : conn.type with
            | publisher =>
              exact absurd (hpublishers₁ ▸ (h.publishers_iff c).2 ⟨conn, hconn, htype⟩) hpub
            | watcher => exact absurd ((h.watchers_iff c).2 ⟨conn, hconn, htype⟩) hwatch
    obtain ⟨g, hdelete, hcore⟩ := deleteStreams_spec (s := { s₂ with publishers := [] })
      ⟨hcore₂.sound, hcore₂.alive_iff, hcore₂.stream_eq, hcore₂.streams_nodup, hcore₂.numbers⟩
      hnone
    refine ⟨_, ?_, ⟨hcore, fun c => ?_, fun c => ?_, List.nodup_nil, ?_⟩, fun n hm _ hn => ?_⟩
    · simp only [hfold₁, hfold₂, Option.bind_eq_bind, Option.bind_some]
      exact hdelete
    · refine iff_of_false List.not_mem_nil ?_
      rintro ⟨conn, hconn, -⟩
      change s₂.connections c = some conn at hconn
      rw [hnone] at hconn
      cases hconn
    · refine iff_of_false (hwatchers₂ ▸ List.not_mem_nil) ?_
      rintro ⟨conn, hconn, -⟩
      change s₂.connections c = some conn at hconn
      rw [hnone] at hconn
      cases hconn
    · change s₂.watchers.Nodup
      rw [hwatchers₂]
      exact List.nodup_nil
    · obtain ⟨type, c, k, rfl⟩ := exists_netStream hm
      rw [owns_netStream, has_iff] at hn
      obtain ⟨conn, hconn, -⟩ := hn
      change s₂.connections c = some conn at hconn
      rw [hnone] at hconn
      cases hconn
  · rw [if_neg hinited]
    exact ⟨s, rfl, h, fun n _ _ hn => ⟨fun t ht => ⟨hn, ht⟩, fun t ht => ⟨hn, ht⟩⟩⟩

/-- The net stream that plays. -/
def Input.Plays : Input → Stream → Prop
  | .play c n _, t => t = .watcher c n
  | _, _ => False

/-- The net stream that is closed or detached. -/
def Input.releases : Input → Option (ConnectionType × Nat × Nat)
  | .close type c n | .detach type c n => some (type, c, n)
  | _ => none

theorem keeps_refl {plays : Stream → Prop} : Keeps s s plays :=
  fun _ _ _ hn => ⟨fun _ ht => ⟨hn, ht⟩, fun _ ht => ⟨hn, ht⟩⟩

/-- **Step lemma.** No call goes to a stream that is gone, what holds between calls is kept, and a
net stream that is closed or detached is attached to nothing. -/
theorem step_spec (h : Inv s) (i : Input) : ∃ s', s.step i = some s' ∧ Inv s' ∧
    Keeps s s' i.Plays ∧ ∀ type c n, i.releases = some (type, c, n) → s.has type c n = true →
      (∀ t, ¬s'.memory.Joined (type.netStream c n) () t) ∧ s'.stream = s.stream ∧
        s'.has type c n = true := by
  have hnot : ∀ {i : Input} {s' : BroadcastSession}, i.releases = none →
      ∀ type c n, i.releases = some (type, c, n) → s.has type c n = true →
        (∀ t, ¬s'.memory.Joined (type.netStream c n) () t) ∧ s'.stream = s.stream ∧
          s'.has type c n = true :=
    fun hnone _ _ _ hsome => nomatch hnone.symm.trans hsome
  cases i with
  | init =>
    exact ⟨{ s with inited := true }, rfl,
      ⟨⟨h.sound, h.alive_iff, h.stream_eq, h.streams_nodup, h.numbers⟩, h.publishers_iff,
        h.watchers_iff, h.publishers_nodup, h.watchers_nodup⟩, keeps_refl, hnot rfl⟩
  | connect type =>
    obtain ⟨hinv, hkeeps⟩ := connect_spec h type
    exact ⟨_, rfl, hinv, hkeeps, hnot rfl⟩
  | createStream c =>
    obtain ⟨hinv, hkeeps⟩ := createStream_spec h c
    exact ⟨_, rfl, hinv, hkeeps, hnot rfl⟩
  | deleteStream c n =>
    obtain ⟨s', hstep, hinv, hkeeps⟩ := deleteStream_spec h c n
    exact ⟨s', hstep, hinv, hkeeps, hnot rfl⟩
  | publish c n url =>
    rcases Classical.em (s.has .publisher c n = true) with hhas | hhas
    · obtain ⟨s', hstep, hinv, hkeeps⟩ := doPublish_spec h hhas url
      exact ⟨s', (if_pos hhas).trans hstep, hinv, hkeeps, hnot rfl⟩
    · exact ⟨s, if_neg hhas, h, keeps_refl, hnot rfl⟩
  | play c n url =>
    rcases Classical.em (s.has .watcher c n = true) with hhas | hhas
    · obtain ⟨s', hstep, hinv, hkeeps⟩ := doPlay_spec h hhas url
      exact ⟨s', (if_pos hhas).trans hstep, hinv, hkeeps, hnot rfl⟩
    · exact ⟨s, if_neg hhas, h, keeps_refl, hnot rfl⟩
  | send type c n =>
    rcases Classical.em (s.has type c n = true) with hhas | hhas
    · refine ⟨s, (if_pos hhas).trans ?_, h, keeps_refl, hnot rfl⟩
      rw [send_spec h hhas]
      rfl
    · exact ⟨s, if_neg hhas, h, keeps_refl, hnot rfl⟩
  | close type c n =>
    rcases Classical.em (s.has type c n = true) with hhas | hhas
    · obtain ⟨s', hstep, hinv, hkeeps, hreleased⟩ := doClose_spec h hhas
      refine ⟨s', (if_pos hhas).trans hstep, hinv, hkeeps, fun type' c' n' heq _ => ?_⟩
      cases heq
      exact hreleased
    · refine ⟨s, if_neg hhas, h, keeps_refl, fun type' c' n' heq hhas' => ?_⟩
      cases heq
      exact absurd hhas' hhas
  | detach type c n =>
    rcases Classical.em (s.has type c n = true) with hhas | hhas
    · obtain ⟨s', hstep, hinv, hkeeps, hreleased⟩ := doDetach_spec h hhas
      refine ⟨s', (if_pos hhas).trans hstep, hinv, hkeeps, fun type' c' n' heq _ => ?_⟩
      cases heq
      exact hreleased
    · refine ⟨s, if_neg hhas, h, keeps_refl, fun type' c' n' heq hhas' => ?_⟩
      cases heq
      exact absurd hhas' hhas
  | disconnect c =>
    obtain ⟨s', hstep, hinv, hkeeps⟩ := onDisconnected_spec h c
    exact ⟨s', hstep, hinv, hkeeps, hnot rfl⟩
  | endSession =>
    obtain ⟨s', hstep, hinv, hkeeps⟩ := endSession_spec h
    exact ⟨s', hstep, hinv, hkeeps, hnot rfl⟩

end Operations

theorem inv_init : Inv {} where
  sound :=
    { lawful := Subscriptions.lawful_empty ..
      alive_iff := fun _ => iff_of_false (fun h => nomatch h) fun h => nomatch h
      feeds := fun _ _ h => nomatch h.alive }
  alive_iff t := by
    refine iff_of_false (fun h => nomatch h) ?_
    cases t with
    | media name => exact List.not_mem_nil
    | publisher c n => exact fun h => nomatch h
    | watcher c n => exact fun h => nomatch h
  stream_eq _ _ h := nomatch h
  streams_nodup := List.nodup_nil
  numbers _ _ h := nomatch h
  publishers_iff _ := iff_of_false List.not_mem_nil fun ⟨_, h, _⟩ => nomatch h
  watchers_iff _ := iff_of_false List.not_mem_nil fun ⟨_, h, _⟩ => nomatch h
  publishers_nodup := List.nodup_nil
  watchers_nodup := List.nodup_nil

end BroadcastSession

/-! ## References -/

open BroadcastSession

/-- A session with the net streams that were closed or detached and have not played or published
since. -/
structure Observed where
  session : BroadcastSession := {}
  released : List Stream := []

namespace Observed

/-- The released net streams after a call. -/
def releasedAfter (o : Observed) : Input → List Stream
  | .close type c n | .detach type c n =>
    if o.session.has type c n then type.netStream c n :: o.released else o.released
  | .publish c n _ => o.released.filter (· ≠ .publisher c n)
  | .play c n _ => o.released.filter (· ≠ .watcher c n)
  | _ => o.released

/-- The session and its released net streams after a call. -/
def step (o : Observed) (i : Input) : Option Observed :=
  (o.session.step i).map fun session => { session, released := o.releasedAfter i }

/-- Attachments tell the same from both ends, no pointer leads to a stream that is gone, a net
stream that was closed or detached has none, a name is fed by one publisher, and the session can
end. -/
structure Consistent (o : Observed) : Prop where
  listener_iff : ∀ s t, o.session.memory.Registered t s ↔ o.session.memory.Joined s () t
  attached_exists : ∀ s t, o.session.memory.Joined s () t → o.session.memory.SourceAlive t
  stream_exists : ∀ n t, o.session.memory.SourceAlive n → o.session.stream n = some t →
    o.session.memory.SourceAlive t
  released_null : ∀ n ∈ o.released, o.session.memory.SourceAlive n →
    (∀ t, ¬o.session.memory.Joined n () t) ∧ o.session.stream n = none
  fed_once : ∀ name p p', o.session.memory.Registered p (.media name) →
    o.session.memory.Registered p' (.media name) → p = p'
  ends : (o.session.endSession).isSome

/-- A net stream is closed or detached while its own pointer is null: what it played last was not
found, or it has not played. -/
def Clears (o : Observed) (i : Input) : Prop :=
  ∀ type c n, i.releases = some (type, c, n) → o.session.has type c n = true →
    o.session.stream (type.netStream c n) = none

/-- The invariant of runs that meet the condition. -/
structure Orderly (o : Observed) : Prop where
  inv : Inv o.session
  released : ∀ n ∈ o.released, ¬n.IsMedia ∧ (o.session.Owns n →
    (∀ t, ¬o.session.memory.Joined n () t) ∧ o.session.stream n = none)

section Steps

variable {o : Observed} {i : Input}

theorem Orderly.consistent (h : Orderly o) : o.Consistent where
  listener_iff s t := (h.inv.sound.joined_iff s t).symm
  attached_exists _ _ hj := h.inv.sound.lawful.sourceAlive hj
  stream_exists n _ hn ht := h.inv.stream_alive ((h.inv.alive_iff n).1 hn) ht
  released_null n hn halive := (h.released n hn).2 ((h.inv.alive_iff n).1 halive)
  fed_once name p p' hp hp' :=
    joined_unique ((h.inv.sound.joined_iff _ p).2 hp) ((h.inv.sound.joined_iff _ p').2 hp')
  ends := by
    obtain ⟨s', hend, -⟩ := endSession_spec h.inv
    exact Option.isSome_iff_exists.2 ⟨s', hend⟩

theorem releasedAfter_of_releases {type : ConnectionType} {c k : Nat}
    (h : i.releases = some (type, c, k)) : o.releasedAfter i =
      if o.session.has type c k then type.netStream c k :: o.released else o.released := by
  cases i <;> cases h <;> rfl

theorem mem_releasedAfter {n : Stream} (hn : n ∈ o.releasedAfter i) :
    (n ∈ o.released ∧ ¬i.Plays n) ∨ ∃ type c k,
      i.releases = some (type, c, k) ∧ o.session.has type c k = true ∧ n = type.netStream c k := by
  cases hrel : i.releases with
  | some released =>
    obtain ⟨type, c, k⟩ := released
    rw [releasedAfter_of_releases hrel] at hn
    have hplays : ¬i.Plays n := by
      cases i <;> cases hrel <;> exact id
    split at hn
    case isTrue hhas =>
      rcases List.mem_cons.1 hn with rfl | hn
      · exact .inr ⟨type, c, k, rfl, hhas, rfl⟩
      · exact .inl ⟨hn, hplays⟩
    case isFalse => exact .inl ⟨hn, hplays⟩
  | none =>
    left
    cases i with
    | close type c k => cases hrel
    | detach type c k => cases hrel
    | publish c k url => exact ⟨(List.mem_filter.1 hn).1, id⟩
    | play c k url =>
      obtain ⟨hn, hne⟩ := List.mem_filter.1 hn
      exact ⟨hn, (of_decide_eq_true hne : n ≠ Stream.watcher c k)⟩
    | _ => exact ⟨hn, id⟩

theorem Orderly.step (h : Orderly o) (hclears : o.Clears i) :
    ∃ o', o.step i = some o' ∧ Orderly o' := by
  obtain ⟨session, hsession, hinv, hkeeps, hreleases⟩ := step_spec h.inv i
  refine ⟨{ session, released := o.releasedAfter i }, ?_, hinv, fun n hn => ?_⟩
  · rw [Observed.step, hsession]
    rfl
  · rcases mem_releasedAfter hn with ⟨hold, hplays⟩ | ⟨type, c, k, hrel, hhas, rfl⟩
    · obtain ⟨hm, hnull⟩ := h.released n hold
      refine ⟨hm, fun hown => ?_⟩
      obtain ⟨hjoined, hstream⟩ := hkeeps n hm hplays hown
      refine ⟨fun t ht => ?_, Option.eq_none_iff_forall_ne_some.2 fun t ht => ?_⟩
      · obtain ⟨hown', hjoin⟩ := hjoined t ht
        exact (hnull hown').1 t hjoin
      · obtain ⟨hown', heq⟩ := hstream t ht
        rw [(hnull hown').2] at heq
        cases heq
    · refine ⟨not_isMedia_netStream, fun _ => ?_⟩
      obtain ⟨hjoined, hstream, -⟩ := hreleases type c k hrel hhas
      exact ⟨hjoined, hstream ▸ hclears type c k hrel hhas⟩

theorem Orderly.clears (h : Orderly o) {o' : Observed} (hstep : o.step i = some o')
    (hconsistent : o'.Consistent) : o.Clears i := by
  intro type c k hrel hhas
  obtain ⟨session, hsession, hinv, -, hreleases⟩ := step_spec h.inv i
  obtain ⟨-, hstream, hhas'⟩ := hreleases type c k hrel hhas
  rw [Observed.step, hsession, Option.map_some, Option.some.injEq] at hstep
  obtain rfl := hstep
  have hmem : type.netStream c k ∈ o.releasedAfter i := by
    rw [releasedAfter_of_releases hrel, if_pos hhas]
    exact List.mem_cons_self
  have hnull := (hconsistent.released_null _ hmem ((hinv.alive_iff _).2 (owns_netStream.2 hhas'))).2
  exact hstream ▸ hnull

end Steps

/-- **Broadcast stream references.** At every point of a run no call has gone to a stream that is
gone, and all references are consistent, exactly if every net stream that is closed or detached has
no pointer of its own. -/
theorem consistent_iff_clears (inputs : List Input) :
    (∀ before, before <+: inputs →
      ∃ o, before.foldlM Observed.step {} = some o ∧ o.Consistent) ↔
      MeetsM Observed.step Clears {} inputs :=
  forall_prefix_foldlM_iff_meetsM (I := Orderly) (fun _ h => h.consistent)
    (fun _ _ h hclears => h.step hclears) (fun _ _ _ h hstep hP => h.clears hstep hP)
    ⟨inv_init, fun _ h => absurd h List.not_mem_nil⟩ inputs

/-- A watcher plays a published name and closes its net stream, for examples. -/
def playAndClose : List Input :=
  [.connect .publisher, .createStream 0, .publish 0 1 [97], .connect .watcher, .createStream 2,
    .play 2 3 [97], .close .watcher 2 3]

/-- The net stream keeps its pointer to the media stream it has left. -/
theorem not_consistent_closed :
    ¬ ∀ before, before <+: playAndClose →
      ∃ o, before.foldlM Observed.step {} = some o ∧ o.Consistent := by
  intro h
  obtain ⟨o, hrun, hconsistent⟩ := h playAndClose (List.prefix_refl _)
  have hstate : (playAndClose.foldlM Observed.step {}).map (fun o =>
      (o.released, (o.session.memory.listeners (.watcher 2 3)).isSome,
        o.session.stream (.watcher 2 3))) =
      some ([.watcher 2 3], true, some (.media [97])) := by
    decide
  rw [hrun, Option.map_some, Option.some.injEq, Prod.mk.injEq, Prod.mk.injEq] at hstate
  obtain ⟨hreleased, halive, hstream⟩ := hstate
  have hmem : Stream.watcher 2 3 ∈ o.released := by
    rw [hreleased]
    exact List.mem_singleton.2 rfl
  have hnull := (hconsistent.released_null _ hmem halive).2
  rw [hstream] at hnull
  cases hnull

end Observed

end McuMediaServer.Broadcast
