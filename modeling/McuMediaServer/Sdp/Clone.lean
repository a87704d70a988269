import McuMediaServer.Base.Heap
import McuMediaServer.Sdp.Description

/-!
# Cloning a session description

Session descriptions as objects on a heap, that refer to the objects and the lists they are made of.
Each class clones itself into new objects, of new parts, so that a clone and what it is a clone of
have no object in common, and modifying one of them never changes what the other one prints. What a
clone prints is another question (`SessionDescription.clonesFaithfully_iff`).
-/

namespace McuMediaServer

open Heap

namespace Sdp

/-- An object, or a list of strings or of objects, on the heap. -/
inductive Object
  | texts (l : List (Option Str))
  | list (l : List Nat)
  | map (m : LinkedHashMap)
  | origin (o : Origin)
  | sessionName (n : SessionName)
  | information (i : Information)
  | connection (c : Connection)
  | key (k : Key)
  | bandwidth (b : Bandwidth)
  | time (t : Time)
  | extension (e : Extension)
  | keyParam (p : KeyParam)
  | attr (a : Attribute Addr)
  | media (m : MediaDescription Addr)
  | session (s : SessionDescription Addr)

/-- The addresses that an attribute has. -/
def Attribute.refs : Attribute Addr → List Nat
  | candidate _ _ _ _ _ _ _ _ _ extensions => [extensions]
  | crypto _ _ keyParams _ => [keyParams]
  | format _ parameters => [parameters]
  | group _ tags => [tags]
  | previousSSRC ssrcs => [ssrcs]
  | ssrcGroup _ ssrcIds => [ssrcIds]
  | _ => []

/-- The addresses that a media description has. -/
def MediaDescription.refs (m : MediaDescription Addr) : List Nat :=
  [m.proto, m.formats, m.connections, m.bandwidths, m.attributes] ++
    (m.information.toList ++ m.key.toList)

/-- The addresses that a session description has. -/
def SessionDescription.refs (s : SessionDescription Addr) : List Nat :=
  [s.emails, s.phones, s.bandwidths, s.attributes, s.times, s.medias] ++
    (s.origin.toList ++ (s.sessionName.toList ++ (s.information.toList ++ (s.connection.toList ++
      s.key.toList))))

instance instRefersObject : Refers Object where
  refs
    | .list l => l
    | .attr a => a.refs
    | .media m => m.refs
    | .session s => s.refs
    | _ => []

namespace Object

/-! An object as one of a class; what is not of the class reads as an empty one. -/

def asTexts : Object → List (Option Str)
  | texts l => l
  | _ => []

def asList : Object → List Nat
  | list l => l
  | _ => []

def asMap : Object → LinkedHashMap
  | map m => m
  | _ => {}

def asOrigin : Object → Origin
  | origin o => o
  | _ => {}

def asSessionName : Object → SessionName
  | sessionName n => n
  | _ => {}

def asInformation : Object → Information
  | information i => i
  | _ => {}

def asConnection : Object → Connection
  | connection c => c
  | _ => {}

def asKey : Object → Key
  | key k => k
  | _ => {}

def asBandwidth : Object → Bandwidth
  | bandwidth b => b
  | _ => {}

def asTime : Object → Time
  | time t => t
  | _ => {}

def asExtension : Object → Extension
  | extension e => e
  | _ => {}

def asKeyParam : Object → KeyParam
  | keyParam p => p
  | _ => {}

def asAttribute : Object → Attribute Addr
  | attr a => a
  | _ => .base none none

def asMedia : Object → Option (MediaDescription Addr)
  | media m => some m
  | _ => none

def asSession : Object → Option (SessionDescription Addr)
  | session s => some s
  | _ => none

end Object

open Object

/-! ## What is read from the heap -/

section View

variable (h : Heap Object)

/-- What the objects of a list are. -/
def listView {V : Type} (view : Heap Object → Nat → V) (h : Heap Object) (l : Nat) : List V :=
  (look asList h l).map (view h)

namespace Attribute

/-- An attribute with its parts. -/
def read : Attribute Addr → Attribute Own
  | base field value => base field value
  | cname name => cname name
  | candidate fundation componentId transport priority address port type relAddr relPort extensions =>
    candidate fundation componentId transport priority address port type relAddr relPort
      (listView (look asExtension) h extensions)
  | crypto tag suite keyParams sessionParams =>
    crypto tag suite (listView (look asKeyParam) h keyParams) sessionParams
  | extMap id direction name attributes => extMap id direction name attributes
  | fingerprint hashFunc hash => fingerprint hashFunc hash
  | format fmt parameters => format fmt (look asMap h parameters)
  | group semantics tags => group semantics (look asTexts h tags)
  | mid identificationTag => mid identificationTag
  | previousSSRC ssrcs => previousSSRC (look asTexts h ssrcs)
  | rtpMap fmt name rate parameters => rtpMap fmt name rate parameters
  | ssrc source attrField attrValue => ssrc source attrField attrValue
  | ssrcGroup semantics ssrcIds => ssrcGroup semantics (look asTexts h ssrcIds)

def view (l : Nat) : Attribute Own := read h (look asAttribute h l)

end Attribute

namespace MediaDescription

/-- A media description with its parts. -/
def read (m : MediaDescription Addr) : MediaDescription Own where
  media := m.media
  port := m.port
  numberOfPorts := m.numberOfPorts
  proto := look asTexts h m.proto
  formats := look asTexts h m.formats
  information := m.information.map (look asInformation h)
  connections := listView (look asConnection) h m.connections
  bandwidths := listView (look asBandwidth) h m.bandwidths
  attributes := listView Attribute.view h m.attributes
  key := m.key.map (look asKey h)

def empty : MediaDescription Own := ⟨none, none, none, [], [], none, [], [], [], none⟩

def view (l : Nat) : MediaDescription Own := (look asMedia h l).elim empty (read h)

end MediaDescription

namespace SessionDescription

/-- A session description with its parts. -/
def read (s : SessionDescription Addr) : SessionDescription Own where
  version := s.version
  origin := s.origin.map (look asOrigin h)
  uri := s.uri
  sessionName := s.sessionName.map (look asSessionName h)
  information := s.information.map (look asInformation h)
  emails := look asTexts h s.emails
  phones := look asTexts h s.phones
  connection := s.connection.map (look asConnection h)
  bandwidths := listView (look asBandwidth) h s.bandwidths
  attributes := listView Attribute.view h s.attributes
  key := s.key.map (look asKey h)
  times := listView (look asTime) h s.times
  medias := listView MediaDescription.view h s.medias

def empty : SessionDescription Own :=
  ⟨none, none, none, none, none, [], [], none, [], [], none, [], []⟩

def view (l : Nat) : SessionDescription Own := (look asSession h l).elim empty (read h)

end SessionDescription

end View

/-! ## Cloning -/

/-- A new list of the clones of some objects. -/
def newList (clone : Heap Object → Nat → Nat × Heap Object) (h : Heap Object) (ls : List Nat) :
    Nat × Heap Object :=
  (cloneAll clone h ls).2.new (.list (cloneAll clone h ls).1)

namespace LinkedHashMap

/-- A key that is there keeps its place. -/
def putEntry (entries : List (Option Str × Option Str)) (key value : Option Str) :
    List (Option Str × Option Str) :=
  if key ∈ entries.map Prod.fst then
    entries.map fun e => (e.1, if e.1 = key then value else e.2)
  else entries ++ [(key, value)]

theorem nodup_putEntry {entries : List (Option Str × Option Str)}
    (h : (entries.map Prod.fst).Nodup) (key value : Option Str) :
    ((putEntry entries key value).map Prod.fst).Nodup := by
  rw [putEntry]
  split
  case isTrue =>
    rw [List.map_map]
    exact h
  case isFalse hnew =>
    rw [List.map_append]
    refine List.nodup_append.2 ⟨h, List.pairwise_singleton _ _, fun a ha b hb => ?_⟩
    rw [List.mem_singleton.1 hb]
    exact fun heq : a = key => hnew (heq ▸ ha)

/-- Give a key a value. -/
def put (m : LinkedHashMap) (key value : Option Str) : LinkedHashMap where
  entries := putEntry m.entries key value
  nodup := nodup_putEntry m.nodup key value

/-- Reference: the loop of `FormatAttribute.java:40`. -/
def clone (m : LinkedHashMap) : LinkedHashMap :=
  m.entries.foldl (fun cloned entry => cloned.put entry.1 entry.2) {}

end LinkedHashMap

/-- The other classes are given all that they have. Reference: `clone` of each class. -/
def Attribute.clone (h : Heap Object) (l : Nat) : Nat × Heap Object :=
  match look asAttribute h l with
  | candidate fundation componentId transport priority address port type _ _ _ =>
    let extensions := h.new (.list [])
    extensions.2.new (.attr
      (candidate fundation componentId transport priority address port type none none extensions.1))
  | crypto tag suite keyParams sessionParams =>
    let clonedKeyParams := newList (copy .keyParam asKeyParam) h (look asList h keyParams)
    clonedKeyParams.2.new (.attr (crypto tag suite clonedKeyParams.1 sessionParams))
  | format fmt parameters =>
    let cloned := h.new (.map (look asMap h parameters).clone)
    cloned.2.new (.attr (format fmt cloned.1))
  | group semantics tags =>
    let cloned := copy .texts asTexts h tags
    cloned.2.new (.attr (group semantics cloned.1))
  | previousSSRC ssrcs =>
    let cloned := copy .texts asTexts h ssrcs
    cloned.2.new (.attr (previousSSRC cloned.1))
  | ssrcGroup semantics ssrcIds =>
    let cloned := copy .texts asTexts h ssrcIds
    cloned.2.new (.attr (ssrcGroup semantics cloned.1))
  | a => h.new (.attr a)

/-- The constructor is given the protocol as a text, which it takes apart. Reference:
`MediaDescription.java:52`. -/
def MediaDescription.cloneFields (h : Heap Object) (m : MediaDescription Addr) :
    Nat × Heap Object :=
  let value := ['/'].intercalate ((look asTexts h m.proto).map str)
  let proto := h.new (.texts ((tokens value).map some))
  let formats := copy .texts asTexts proto.2 m.formats
  let connections := newList (copy .connection asConnection) formats.2 (look asList h m.connections)
  let bandwidths := newList (copy .bandwidth asBandwidth) connections.2 (look asList h m.bandwidths)
  let attributes := newList Attribute.clone bandwidths.2 (look asList h m.attributes)
  attributes.2.new (.media {
    media := m.media
    port := m.port
    proto := proto.1
    formats := formats.1
    connections := connections.1
    bandwidths := bandwidths.1
    attributes := attributes.1 })

def MediaDescription.clone (h : Heap Object) (l : Nat) : Nat × Heap Object :=
  (look asMedia h l).elim (h.new (.list [])) (cloneFields h)

/-- The loop over the attributes is there twice, and `addPhone` adds to the emails. Reference:
`SessionDescription.java:102`. -/
def SessionDescription.cloneFields (h : Heap Object) (s : SessionDescription Addr) :
    Nat × Heap Object :=
  let origin := cloneOption (copy .origin asOrigin) h s.origin
  let sessionName := cloneOption (copy .sessionName asSessionName) origin.2 s.sessionName
  let information := cloneOption (copy .information asInformation) sessionName.2 s.information
  let connection := cloneOption (copy .connection asConnection) information.2 s.connection
  let key := cloneOption (copy .key asKey) connection.2 s.key
  let emails := key.2.new (.texts (look asTexts h s.emails ++ look asTexts h s.phones))
  let phones := emails.2.new (.texts [])
  let bandwidths := newList (copy .bandwidth asBandwidth) phones.2 (look asList h s.bandwidths)
  let attributes := newList Attribute.clone bandwidths.2
    (look asList h s.attributes ++ look asList h s.attributes)
  let times := newList (copy .time asTime) attributes.2 (look asList h s.times)
  let medias := newList MediaDescription.clone times.2 (look asList h s.medias)
  medias.2.new (.session {
    version := s.version
    origin := origin.1
    sessionName := sessionName.1
    information := information.1
    emails := emails.1
    phones := phones.1
    connection := connection.1
    bandwidths := bandwidths.1
    attributes := attributes.1
    key := key.1
    times := times.1
    medias := medias.1 })

def SessionDescription.clone (h : Heap Object) (l : Nat) : Nat × Heap Object :=
  (look asSession h l).elim (h.new (.list [])) (cloneFields h)

/-! ## What is read depends on what is reached -/

variable {s : SessionDescription Addr} {m : MediaDescription Addr} {V : Type}

section Local

variable {h h' : Heap Object} {base l x : Nat}

theorem refs_asList {c : Object} (hx : x ∈ c.asList) : x ∈ Refers.refs c := by
  cases c with
  | list l => exact hx
  | _ => exact absurd hx List.not_mem_nil

theorem local_listView {view : Heap Object → Nat → V} (hlocal : Local view) : Local (listView view) := by
  intro h h' l hagree
  rw [listView, listView, look, look, hagree l .refl]
  exact List.map_congr_left fun x hx => hlocal (hagree.refs (refs_asList hx))

theorem map_look_eq {view : Heap Object → Nat → V} (hlocal : Local view)
    {r : Option Nat} (hr : ∀ x ∈ r, h.Agree h' x) : r.map (view h') = r.map (view h) :=
  Option.map_congr fun x hx => hlocal (hr x hx)

namespace Attribute

theorem refs_asAttribute {c : Object} (hx : x ∈ c.asAttribute.refs) : x ∈ Refers.refs c := by
  cases c with
  | attr a => exact hx
  | _ => exact absurd hx List.not_mem_nil

theorem read_eq {a : Attribute Addr} (ha : ∀ x ∈ a.refs, h.Agree h' x) : a.read h' = a.read h := by
  cases a with
  | candidate =>
    rw [read, local_listView (local_look asExtension) (ha _ List.mem_cons_self)]
    rfl
  | crypto =>
    rw [read, local_listView (local_look asKeyParam) (ha _ List.mem_cons_self)]
    rfl
  | format =>
    rw [read, local_look asMap (ha _ List.mem_cons_self)]
    rfl
  | group | previousSSRC | ssrcGroup =>
    rw [read, local_look asTexts (ha _ List.mem_cons_self)]
    rfl
  | _ => rfl

theorem local_view : Local view := by
  intro h h' l hagree
  rw [view, view, look, hagree l .refl, look]
  exact read_eq fun x hx => hagree.refs (refs_asAttribute hx)

end Attribute

namespace MediaDescription

theorem forall_refs {P : Nat → Prop} : (∀ x ∈ m.refs, P x) ↔
    (∀ x ∈ [m.proto, m.formats, m.connections, m.bandwidths, m.attributes], P x) ∧
      (∀ x ∈ m.information, P x) ∧ ∀ x ∈ m.key, P x := by
  simp only [refs, List.mem_append, or_imp, forall_and, Option.mem_toList]
  rfl

theorem read_eq (hm : ∀ x ∈ m.refs, h.Agree h' x) : m.read h' = m.read h := by
  obtain ⟨hlist, hinformation, hkey⟩ := forall_refs.1 hm
  rw [read, local_look asTexts (hlist m.proto (by simp)),
    local_look asTexts (hlist m.formats (by simp)),
    local_listView (local_look asConnection) (hlist m.connections (by simp)),
    local_listView (local_look asBandwidth) (hlist m.bandwidths (by simp)),
    local_listView Attribute.local_view (hlist m.attributes (by simp)),
    map_look_eq (local_look asInformation) hinformation, map_look_eq (local_look asKey) hkey]
  rfl

theorem local_view : Local view := by
  intro h h' l hagree
  rw [view, view, look, hagree l .refl, look]
  cases hcell : h.cell l with
  | media m =>
    refine read_eq fun x hx => hagree.refs ?_
    rw [hcell]
    exact hx
  | _ => rfl

end MediaDescription

namespace SessionDescription

theorem forall_refs {P : Nat → Prop} : (∀ x ∈ s.refs, P x) ↔
    (∀ x ∈ [s.emails, s.phones, s.bandwidths, s.attributes, s.times, s.medias], P x) ∧
      (∀ x ∈ s.origin, P x) ∧ (∀ x ∈ s.sessionName, P x) ∧ (∀ x ∈ s.information, P x) ∧
        (∀ x ∈ s.connection, P x) ∧ ∀ x ∈ s.key, P x := by
  simp only [refs, List.mem_append, or_imp, forall_and, Option.mem_toList]
  rfl

theorem read_eq (hs : ∀ x ∈ s.refs, h.Agree h' x) : s.read h' = s.read h := by
  obtain ⟨hlist, horigin, hname, hinformation, hconnection, hkey⟩ := forall_refs.1 hs
  rw [read, local_look asTexts (hlist s.emails (by simp)),
    local_look asTexts (hlist s.phones (by simp)),
    local_listView (local_look asBandwidth) (hlist s.bandwidths (by simp)),
    local_listView Attribute.local_view (hlist s.attributes (by simp)),
    local_listView (local_look asTime) (hlist s.times (by simp)),
    local_listView MediaDescription.local_view (hlist s.medias (by simp)),
    map_look_eq (local_look asOrigin) horigin, map_look_eq (local_look asSessionName) hname,
    map_look_eq (local_look asInformation) hinformation,
    map_look_eq (local_look asConnection) hconnection, map_look_eq (local_look asKey) hkey]
  rfl

theorem local_view : Local view := by
  intro h h' l hagree
  rw [view, view, look, hagree l .refl, look]
  cases hcell : h.cell l with
  | session s =>
    refine read_eq fun x hx => hagree.refs ?_
    rw [hcell]
    exact hx
  | _ => rfl

end SessionDescription

end Local

/-! ## What is read from a clone -/

namespace LinkedHashMap

theorem entries_foldl_put {entries : List (Option Str × Option Str)} {m : LinkedHashMap}
    (h : ((m.entries ++ entries).map Prod.fst).Nodup) :
    (entries.foldl (fun cloned entry => cloned.put entry.1 entry.2) m).entries =
      m.entries ++ entries := by
  induction entries generalizing m with
  | nil => exact (List.append_nil _).symm
  | cons e entries ih =>
    have hnew : e.1 ∉ m.entries.map Prod.fst := by
      rw [List.map_append, List.map_cons, List.nodup_append] at h
      exact fun hmem => h.2.2 _ hmem _ List.mem_cons_self rfl
    have hput : (m.put e.1 e.2).entries = m.entries ++ [e] := if_neg hnew
    rw [List.foldl_cons, ih, hput, List.append_assoc, List.singleton_append]
    rwa [hput, List.append_assoc, List.singleton_append]

theorem clone_eq (m : LinkedHashMap) : m.clone = m := by
  have hentries : m.clone.entries = m.entries := entries_foldl_put (m := {}) m.nodup
  cases hm : m.clone with
  | mk entries nodup =>
    rw [hm] at hentries
    cases m
    cases hentries
    rfl

end LinkedHashMap

section Clones

variable {base : Nat} {h h' : Heap Object}

theorem makes_newList {clone : Heap Object → Nat → Nat × Heap Object}
    {view : Heap Object → Nat → V} {f : V → V} (hclone : Clones base clone view f)
    (hlocal : Local view) (hbase : base ≤ h.next) (hclosed : h.Closed) {ls : List Nat}
    (hls : ∀ l ∈ ls, l < h.next) (hext : Extends base h h') :
    Makes base (listView view) h' (newList clone h' ls) (ls.map fun l => f (view h l)) := by
  obtain ⟨hall, hfresh, hviews⟩ := cloneAll_spec hclone hlocal hbase hclosed hls hext
  have hnew : Extends base (cloneAll clone h' ls).2 (newList clone h' ls).2 := .new hfresh
  refine ⟨hall.trans hnew, stable_held (local_listView hlocal) _ _,
    hbase.trans (hext.le.trans hall.le), Nat.lt_succ_self _, ?_⟩
  rw [← hviews]
  exact (congrArg (List.map _) (look_new asList _ _)).trans (List.map_congr_left fun l hl =>
    hnew.view_eq (hall.closed (hext.closed hclosed)) (hfresh l hl).2 hlocal)

theorem Clones.newList {clone : Heap Object → Nat → Nat × Heap Object}
    {view : Heap Object → Nat → V} {f : V → V} (hclone : Clones base clone view f)
    (hlocal : Local view) (hbase : base ≤ h.next) (hclosed : h.Closed) {r : Nat}
    (hr : r < h.next) (hext : Extends base h h') :
    Makes base (listView view) h' (newList clone h' (look asList h r))
      ((listView view h r).map f) := by
  rw [listView, List.map_map]
  exact makes_newList hclone hlocal hbase hclosed
    (fun l hl => hclosed r hr l (refs_asList hl)) hext

namespace Attribute

theorem makes_attribute {view : Heap Object → Nat → V} {r : Nat × Heap Object} {v : V}
    (hpart : Makes base view h r v) (hclosed : h.Closed) (hbase : base ≤ h.next)
    {a : Attribute Addr} (ha : a.refs = [r.1]) {value : Attribute Own}
    (hread : ∀ h' : Heap Object, view h' r.1 = v → a.read h' = value) :
    Makes base Attribute.view h (r.2.new (.attr a)) value := by
  refine Step.new hpart hclosed hbase local_view (fun x hx => ?_) fun h'' hcell hheld => ?_
  · have hx : x ∈ a.refs := hx
    rw [ha, List.mem_singleton] at hx
    rw [hx]
    exact ⟨hpart.holds.le, hpart.holds.lt⟩
  · rw [Attribute.view, look, hcell]
    exact hread _ hheld.view_eq

theorem clones_clone : Clones base clone view cloned := by
  intro h hbase hclosed l hl
  have hrefs : ∀ x ∈ (look asAttribute h l).refs, x < h.next :=
    fun x hx => hclosed l hl x (refs_asAttribute hx)
  rw [clone, view]
  generalize look asAttribute h l = a at hrefs ⊢
  cases a with
  | candidate =>
    have hpart : Makes base (listView (look asExtension)) h (h.new (.list [])) [] :=
      makes_new (local_listView (local_look _)) hbase (fun x hx => absurd hx List.not_mem_nil)
        (congrArg (List.map _) (look_new asList _ _))
    refine makes_attribute hpart hclosed hbase rfl fun h' hview => ?_
    rw [read, hview]
    rfl
  | crypto =>
    have hpart := Clones.newList (clones_copy .keyParam asKeyParam (fun _ => rfl) fun _ => rfl)
      (local_look _) hbase hclosed (hrefs _ List.mem_cons_self) (.refl h)
    refine makes_attribute hpart hclosed hbase rfl fun h' hview => ?_
    rw [read, hview, List.map_id]
    rfl
  | format fmt parameters =>
    have hpart := makes_new (local_look asMap) hbase (fun x hx => absurd hx List.not_mem_nil)
      (look_new asMap h (.map (look asMap h parameters).clone))
    refine makes_attribute hpart hclosed hbase rfl fun h' hview => ?_
    rw [read, hview]
    exact congrArg _ (LinkedHashMap.clone_eq _)
  | group | previousSSRC | ssrcGroup =>
    have hpart := clones_copy .texts asTexts (fun _ => rfl) (fun _ => rfl) h hbase hclosed _
      (hrefs _ List.mem_cons_self)
    refine makes_attribute hpart hclosed hbase rfl fun h' hview => ?_
    rw [read, hview]
    rfl
  | _ =>
    refine makes_new local_view hbase (fun x hx => absurd hx List.not_mem_nil) ?_
    exact congrArg (read _) (look_new asAttribute h _)

end Attribute

theorem step_texts (hbase : base ≤ h.next) (l : List (Option Str)) :
    Makes base (look asTexts) h (h.new (.texts l)) l :=
  makes_new (local_look _) hbase (fun _ hx => absurd hx List.not_mem_nil) (look_new asTexts h _)

namespace MediaDescription

theorem makes_cloneFields (hbase : base ≤ h.next) (hclosed : h.Closed)
    (hm : ∀ x ∈ m.refs, x < h.next) : Makes base view h (cloneFields h m) (cloned (m.read h)) := by
  obtain ⟨hlist, -, -⟩ := forall_refs.1 hm
  have hproto := step_texts hbase
    ((tokens (['/'].intercalate ((look asTexts h m.proto).map str))).map some)
  have hformats := hproto.and hclosed
    ((clones_copy .texts asTexts (fun _ => rfl) fun _ => rfl).of_extends (local_look _) hbase hclosed
      hproto.ext (hlist m.formats (by simp)))
  have hconnections := hformats.and hclosed (Clones.newList
    (clones_copy .connection asConnection (fun _ => rfl) fun _ => rfl) (local_look _) hbase hclosed
    (hlist m.connections (by simp)) hformats.ext)
  have hbandwidths := hconnections.and hclosed (Clones.newList
    (clones_copy .bandwidth asBandwidth (fun _ => rfl) fun _ => rfl) (local_look _) hbase hclosed
    (hlist m.bandwidths (by simp)) hconnections.ext)
  have hattributes := hbandwidths.and hclosed (Clones.newList Attribute.clones_clone
    Attribute.local_view hbase hclosed (hlist m.attributes (by simp)) hbandwidths.ext)
  refine Step.new hattributes hclosed hbase local_view ?_ fun h'' hcell hall => ?_
  · obtain ⟨⟨⟨⟨h₁, h₂⟩, h₃⟩, h₄⟩, h₅⟩ := hattributes.holds
    refine forall_refs.2 ⟨?_, fun x hx => absurd hx (Option.not_mem_none x),
      fun x hx => absurd hx (Option.not_mem_none x)⟩
    simp only [List.forall_mem_cons]
    exact ⟨⟨h₁.le, h₁.lt⟩, ⟨h₂.le, h₂.lt⟩, ⟨h₃.le, h₃.lt⟩, ⟨h₄.le, h₄.lt⟩, ⟨h₅.le, h₅.lt⟩,
      fun x hx => absurd hx List.not_mem_nil⟩
  · obtain ⟨⟨⟨⟨h₁, h₂⟩, h₃⟩, h₄⟩, h₅⟩ := hall
    rw [view, look, hcell]
    dsimp only [asMedia, Option.elim_some]
    rw [read, h₁.view_eq, h₂.view_eq, h₃.view_eq, h₄.view_eq, h₅.view_eq, List.map_id, List.map_id]
    rfl

theorem clones_clone : Clones base clone view cloned := by
  intro h hbase hclosed l hl
  rw [clone, view, look]
  cases hcell : h.cell l with
  | media m =>
    refine makes_cloneFields hbase hclosed fun x hx => hclosed l hl x ?_
    rw [hcell]
    exact hx
  | _ =>
    refine makes_new local_view hbase (fun x hx => absurd hx List.not_mem_nil) ?_
    rw [view, look_new]
    rfl

end MediaDescription

namespace SessionDescription

theorem makes_cloneFields (hbase : base ≤ h.next) (hclosed : h.Closed)
    (hs : ∀ x ∈ s.refs, x < h.next) : Makes base view h (cloneFields h s) (cloned (s.read h)) := by
  obtain ⟨hlist, horigin, hname, hinformation, hconnection, hkey⟩ := forall_refs.1 hs
  have h₁ := cloneOption_spec (clones_copy .origin asOrigin (fun _ => rfl) fun _ => rfl)
    (local_look _) hbase hclosed horigin (.refl h)
  have h₂ := h₁.and hclosed (cloneOption_spec
    (clones_copy .sessionName asSessionName (fun _ => rfl) fun _ => rfl)
    (local_look _) hbase hclosed hname h₁.ext)
  have h₃ := h₂.and hclosed (cloneOption_spec
    (clones_copy .information asInformation (fun _ => rfl) fun _ => rfl)
    (local_look _) hbase hclosed hinformation h₂.ext)
  have h₄ := h₃.and hclosed (cloneOption_spec
    (clones_copy .connection asConnection (fun _ => rfl) fun _ => rfl)
    (local_look _) hbase hclosed hconnection h₃.ext)
  have h₅ := h₄.and hclosed (cloneOption_spec (clones_copy .key asKey (fun _ => rfl) fun _ => rfl)
    (local_look _) hbase hclosed hkey h₄.ext)
  have h₆ := h₅.and hclosed (step_texts (hbase.trans h₅.ext.le)
    (look asTexts h s.emails ++ look asTexts h s.phones))
  have h₇ := h₆.and hclosed (step_texts (hbase.trans h₆.ext.le) [])
  have h₈ := h₇.and hclosed (Clones.newList
    (clones_copy .bandwidth asBandwidth (fun _ => rfl) fun _ => rfl) (local_look _) hbase hclosed
    (hlist s.bandwidths (by simp)) h₇.ext)
  have hattributes : ∀ l ∈ look asList h s.attributes ++ look asList h s.attributes,
      l < h.next := by
    intro l hl
    have hmem : l ∈ look asList h s.attributes := (List.mem_append.1 hl).elim id id
    exact hclosed _ (hlist s.attributes (by simp)) l (refs_asList hmem)
  have h₉ := h₈.and hclosed (makes_newList Attribute.clones_clone Attribute.local_view hbase hclosed
    hattributes h₈.ext)
  have h₁₀ := h₉.and hclosed (Clones.newList
    (clones_copy .time asTime (fun _ => rfl) fun _ => rfl) (local_look _) hbase hclosed
    (hlist s.times (by simp)) h₉.ext)
  have h₁₁ := h₁₀.and hclosed (Clones.newList MediaDescription.clones_clone
    MediaDescription.local_view hbase hclosed (hlist s.medias (by simp)) h₁₀.ext)
  refine Step.new h₁₁ hclosed hbase local_view ?_ fun h'' hcell hall => ?_
  · obtain ⟨⟨⟨⟨⟨⟨⟨⟨⟨⟨h₁, h₂⟩, h₃⟩, h₄⟩, h₅⟩, h₆⟩, h₇⟩, h₈⟩, h₉⟩, h₁₀⟩, h₁₁⟩ := h₁₁.holds
    refine forall_refs.2 ⟨?_, h₁.fresh, h₂.fresh, h₃.fresh, h₄.fresh, h₅.fresh⟩
    simp only [List.forall_mem_cons]
    exact ⟨⟨h₆.le, h₆.lt⟩, ⟨h₇.le, h₇.lt⟩, ⟨h₈.le, h₈.lt⟩, ⟨h₉.le, h₉.lt⟩, ⟨h₁₀.le, h₁₀.lt⟩,
      ⟨h₁₁.le, h₁₁.lt⟩, fun x hx => absurd hx List.not_mem_nil⟩
  · obtain ⟨⟨⟨⟨⟨⟨⟨⟨⟨⟨h₁, h₂⟩, h₃⟩, h₄⟩, h₅⟩, h₆⟩, h₇⟩, h₈⟩, h₉⟩, h₁₀⟩, h₁₁⟩ := hall
    rw [view, look, hcell]
    dsimp only [asSession, Option.elim_some]
    rw [read, h₁.view_eq, h₂.view_eq, h₃.view_eq, h₄.view_eq, h₅.view_eq, h₆.view_eq, h₇.view_eq,
      h₈.view_eq, h₉.view_eq, h₁₀.view_eq, h₁₁.view_eq, List.map_id, List.map_id, List.map_append]
    simp only [cloned, read, listView, List.map_map]
    rfl

theorem clones_clone : Clones base clone view cloned := by
  intro h hbase hclosed l hl
  rw [clone, view, look]
  cases hcell : h.cell l with
  | session s =>
    refine makes_cloneFields hbase hclosed fun x hx => hclosed l hl x ?_
    rw [hcell]
    exact hx
  | _ =>
    refine makes_new local_view hbase (fun x hx => absurd hx List.not_mem_nil) ?_
    rw [view, look_new]
    rfl

end SessionDescription

end Clones

/-! ## Faithful clones -/

namespace SessionDescription

variable {h : Heap Object} {l : Nat}

/-- The text of a description on the heap, unless printing throws. -/
def printed (h : Heap Object) (l : Nat) : Option Str := (view h l).toString

/-- The clone prints the same, and afterwards modifying one of them, whatever has been done to
either in between, leaves what the other one prints. -/
def ClonesFaithfully (h : Heap Object) (l : Nat) : Prop :=
  printed (clone h l).2 (clone h l).1 = printed (clone h l).2 l ∧
    Independent printed (clone h l).2 l (clone h l).1

theorem local_printed : Local printed :=
  fun hagree => congrArg SessionDescription.toString (local_view hagree)

theorem independent_clone (hclosed : h.Closed) (hl : l < h.next) :
    Independent printed (clone h l).2 l (clone h l).1 := by
  have hclone := clones_clone h le_rfl hclosed l hl
  exact (hclone.ext.separate hclosed hl hclone.holds.le hclone.holds.lt).independent local_printed

/-- **A session description is cloned faithfully** exactly when printing it throws, or there is
nothing in it that a clone does not have, or has twice. -/
theorem clonesFaithfully_iff (hclosed : h.Closed) (hl : l < h.next) :
    ClonesFaithfully h l ↔ ((view h l).Printable → (view h l).Kept) := by
  have hclone := clones_clone h le_rfl hclosed l hl
  have hsame : printed (clone h l).2 l = printed h l :=
    hclone.ext.view_eq hclosed hl local_printed
  rw [ClonesFaithfully, and_iff_left (independent_clone hclosed hl), hsame, printed,
    hclone.holds.view_eq]
  exact toString_cloned_iff _

/-- A description without attributes, phones and media, at the first address. -/
def bareHeap : Heap Object where
  cell l := [.session ⟨some 0, some 7, none, some 8, none, 1, 2, none, 3, 4, none, 5, 6⟩,
    .texts [], .texts [], .list [], .list [], .list [], .list [], .origin {},
    .sessionName {}].getD l (.list [])
  next := 9

theorem closed_bareHeap : bareHeap.Closed := by
  rw [Closed]
  decide

/-- The bare description is cloned faithfully. -/
theorem clonesFaithfully_bareHeap : ClonesFaithfully bareHeap 0 :=
  (clonesFaithfully_iff closed_bareHeap (by decide)).2
    fun _ => ⟨rfl, rfl, rfl, fun _ hm => absurd hm List.not_mem_nil⟩

/-- The bare description, with the attribute of sending only. -/
def sendOnlyHeap : Heap Object where
  cell l := [.session ⟨some 0, some 7, none, some 8, none, 1, 2, none, 3, 4, none, 5, 6⟩,
    .texts [], .texts [], .list [], .list [9], .list [], .list [], .origin {},
    .sessionName {}, .attr (.base (some "sendonly".toList) none)].getD l (.list [])
  next := 10

/-- An attribute of the session is cloned twice. -/
theorem not_clonesFaithfully_sendOnlyHeap : ¬ClonesFaithfully sendOnlyHeap 0 := by
  rintro ⟨htext, -⟩
  revert htext
  decide

end SessionDescription

end Sdp

end McuMediaServer
