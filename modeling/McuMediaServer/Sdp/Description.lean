import Mathlib.Algebra.BigOperators.Group.List.Basic
import Mathlib.Algebra.Ring.Nat
import Mathlib.Data.List.Basic

/-!
# Session descriptions

The classes of a session description, with the text that each of them prints. A class says of each
component how it is kept (`Ref`): in the class itself (`Own`), or at an address (`Addr`), as objects
are. What is printed is said of descriptions that own their components.

A clone is made of what the constructors and the methods that add take; `SessionDescription.cloned`
is what is left of a description then, and `SessionDescription.toString_cloned_iff` says when that
prints the same.
-/

namespace McuMediaServer

namespace Sdp

abbrev Str := List Char

/-- A component that is kept in the class. -/
abbrev Own (α : Type) : Type := α

/-- A component that is kept at an address. -/
abbrev Addr (_ : Type) : Type := Nat

/-- A string as it is added to a text. -/
def str : Option Str → Str
  | none => "null".toList
  | some s => s

/-- A number as it is added to a text. -/
def num (n : Option Int) : Str := str (n.map fun n => (toString n).toList)

def crlf : Str := ['\r', '\n']

/-- Reference: `Origin.java:10`. -/
structure Origin where
  username : Option Str := none
  sessId : Option Int := none
  sessVersion : Option Int := none
  nettype : Option Str := none
  addrtype : Option Str := none
  address : Option Str := none

/-- Reference: `SessionName.java:12`. -/
structure SessionName where
  name : Option Str := none

/-- Reference: `Information.java:12`. -/
structure Information where
  text : Option Str := none

/-- Reference: `Connection.java:12`. -/
structure Connection where
  netType : Option Str := none
  addrType : Option Str := none
  address : Option Str := none

/-- Reference: `Key.java:12`. -/
structure Key where
  type : Option Str := none
  key : Option Str := none

/-- Reference: `Bandwidth.java:12`. -/
structure Bandwidth where
  type : Option Str := none
  bandwidth : Option Str := none

/-- Reference: `Time.java:12`. -/
structure Time where
  start : Option Int := none
  stop : Option Int := none

/-- Reference: `CandidateAttribute.java:16`. -/
structure Extension where
  name : Option Str := none
  value : Option Str := none

/-- Reference: `CryptoAttribute.java:15`. -/
structure KeyParam where
  method : Option Str := none
  info : Option Str := none

/-- Keys with values, in the order in which the keys came. -/
structure LinkedHashMap where
  entries : List (Option Str × Option Str) := []
  nodup : (entries.map Prod.fst).Nodup := by exact List.nodup_nil

variable (Ref : Type → Type)

/-- The classes of attributes. Reference: `Attribute.java:11`. -/
inductive Attribute
  | base (field value : Option Str)
  | cname (name : Option Str)
  | candidate (fundation : Option Str) (componentId : Option Int) (transport : Option Str)
      (priority : Option Int) (address : Option Str) (port : Option Int) (type : Option Str)
      (relAddr : Option Str) (relPort : Option Int) (extensions : Ref (List (Ref Extension)))
  | crypto (tag : Option Int) (suite : Option Str) (keyParams : Ref (List (Ref KeyParam)))
      (sessionParams : Option Str)
  | extMap (id : Option Int) (direction name attributes : Option Str)
  | fingerprint (hashFunc fingerprint : Option Str)
  | format (fmt : Option Int) (parameters : Ref LinkedHashMap)
  | group (semantics : Option Str) (tags : Ref (List (Option Str)))
  | mid (identificationTag : Option Str)
  | previousSSRC (ssrcs : Ref (List (Option Str)))
  | rtpMap (format : Option Int) (name : Option Str) (rate : Option Int) (parameters : Option Str)
  | ssrc (ssrc : Option Int) (attrField attrValue : Option Str)
  | ssrcGroup (semantics : Option Str) (ssrcIds : Ref (List (Option Str)))

/-- Reference: `MediaDescription.java:17`. -/
structure MediaDescription where
  media : Option Str
  port : Option Int
  numberOfPorts : Option Int := none
  proto : Ref (List (Option Str))
  formats : Ref (List (Option Str))
  information : Option (Ref Information) := none
  connections : Ref (List (Ref Connection))
  bandwidths : Ref (List (Ref Bandwidth))
  attributes : Ref (List (Ref (Attribute Ref)))
  key : Option (Ref Key) := none

/-- Reference: `SessionDescription.java:69`. -/
structure SessionDescription where
  version : Option Int
  origin : Option (Ref Origin) := none
  uri : Option Str := none
  sessionName : Option (Ref SessionName) := none
  information : Option (Ref Information) := none
  emails : Ref (List (Option Str))
  phones : Ref (List (Option Str))
  connection : Option (Ref Connection) := none
  bandwidths : Ref (List (Ref Bandwidth))
  attributes : Ref (List (Ref (Attribute Ref)))
  key : Option (Ref Key) := none
  times : Ref (List (Ref Time))
  medias : Ref (List (Ref (MediaDescription Ref)))

/-! ## What is printed -/

/-- Reference: `Origin.java:38`. -/
def Origin.toString (o : Origin) : Str :=
  "o=".toList ++ str o.username ++ ' ' :: num o.sessId ++ ' ' :: num o.sessVersion ++
    ' ' :: str o.nettype ++ ' ' :: str o.addrtype ++ ' ' :: str o.address ++ crlf

/-- Reference: `SessionName.java:30`. -/
def SessionName.toString (n : SessionName) : Str := "s=".toList ++ str n.name ++ crlf

/-- Reference: `Information.java:29`. -/
def Information.toString (i : Information) : Str := "i=".toList ++ str i.text ++ crlf

/-- Reference: `Connection.java:33`. -/
def Connection.toString (c : Connection) : Str :=
  "c=".toList ++ str c.netType ++ ' ' :: str c.addrType ++ ' ' :: str c.address ++ crlf

/-- The key is printed before its type. Reference: `Key.java:30`. -/
def Key.toString (k : Key) : Str :=
  "k=".toList ++ k.key.elim [] (· ++ [' ']) ++ str k.type ++ crlf

/-- Reference: `Bandwidth.java:21`. -/
def Bandwidth.toString (b : Bandwidth) : Str :=
  "b=".toList ++ str b.type ++ ':' :: str b.bandwidth ++ crlf

/-- Numbers that are not there throw. Reference: `Time.java:32`. -/
def Time.toString (t : Time) : Option Str :=
  if t.start = none ∨ t.stop = none then none
  else some ("t=".toList ++ num t.start ++ ' ' :: num t.stop ++ crlf)

namespace Attribute

/-- Reference: `getField` of each class. -/
def getField {Ref : Type → Type} : Attribute Ref → Option Str
  | base field _ => field
  | cname _ => some "cname".toList
  | candidate .. => some "candidate".toList
  | crypto .. => some "crypto".toList
  | extMap .. => some "extmap".toList
  | fingerprint .. => some "fingerprint".toList
  | format .. => some "fmtp".toList
  | group .. => some "group".toList
  | mid _ => some "mid".toList
  | previousSSRC _ => some "previous-ssrc".toList
  | rtpMap .. => some "rtpmap".toList
  | ssrc .. => some "ssrc".toList
  | ssrcGroup .. => some "ssrc-group".toList

/-- What follows the type of a candidate. Reference: `CandidateAttribute.java:78`. -/
def candidateRest (relAddr : Option Str) (relPort : Option Int) (extensions : List Extension) : Str :=
  relAddr.elim [] (fun relAddr => " raddr ".toList ++ relAddr) ++
    (if relPort = none then [] else " rport ".toList ++ num relPort) ++
      extensions.flatMap fun ext => ' ' :: str ext.name ++ ' ' :: str ext.value

/-- Reference: `CandidateAttribute.java:76`. -/
def candidateStart (fundation : Option Str) (componentId : Option Int) (transport : Option Str)
    (priority : Option Int) (address : Option Str) (port : Option Int) (type : Option Str) : Str :=
  str fundation ++ ' ' :: num componentId ++ ' ' :: str transport ++ ' ' :: num priority ++
    ' ' :: str address ++ ' ' :: num port ++ " typ ".toList ++ str type

/-- Reference: `FormatAttribute.java:58`. -/
def formatParameters (parameters : LinkedHashMap) : Str :=
  parameters.entries.foldl (fun string entry =>
    string ++ (if string = [] then " ".toList else "; ".toList) ++ str entry.1 ++
      entry.2.elim [] ('=' :: ·)) []

/-- Strings with a blank before each one behind what is first. Reference: `GroupAttribute.java:53`.
-/
def withBlanks (first : Option Str) (rest : List (Option Str)) : Option Str :=
  rest.foldl (fun value s => some (str value ++ ' ' :: str s)) first

/-- Reference: `PreviousSSRCAttribute.java:49`. -/
def previousSSRCs (ssrcs : List (Option Str)) : Option Str :=
  ssrcs.foldl (fun value s =>
    match value with
    | none => s
    | some value => some (value ++ ' ' :: str s)) none

/-- A number that is not there throws, or the value, which may not be there. Reference: `getValue`
of each class. -/
def getValue : Attribute Own → Option (Option Str)
  | base _ value => some value
  | cname name => some name
  | candidate fundation componentId transport priority address port type relAddr relPort extensions =>
    some (some (candidateStart fundation componentId transport priority address port type ++
      candidateRest relAddr relPort extensions))
  | crypto tag suite keyParams sessionParams =>
    some (some (num tag ++ ' ' :: str suite ++ ' ' ::
      [';'].intercalate (keyParams.map fun param => str param.method ++ ':' :: str param.info) ++
        sessionParams.elim [] (' ' :: ·)))
  | extMap id direction name attributes =>
    some (some (num id ++ direction.elim [] ('/' :: ·) ++ ' ' :: str name ++
      attributes.elim [] (' ' :: ·)))
  | fingerprint hashFunc hash => some (some (str hashFunc ++ ' ' :: str hash))
  | format fmt parameters => some (some (num fmt ++ formatParameters parameters))
  | group semantics tags => some (withBlanks semantics tags)
  | mid identificationTag => some identificationTag
  | previousSSRC ssrcs => some (previousSSRCs ssrcs)
  | rtpMap none _ _ _ => none
  | rtpMap (some fmt) name rate parameters =>
    some (some (num (some fmt) ++ ' ' :: str name ++ '/' :: num rate ++
      parameters.elim [] ('/' :: ·)))
  | ssrc source attrField attrValue =>
    some (some (num source ++ ' ' :: str attrField ++ attrValue.elim [] (':' :: ·)))
  | ssrcGroup semantics ssrcIds => some (withBlanks semantics ssrcIds)

/-- Reference: `toString` of each class. -/
def toString (a : Attribute Own) : Option Str :=
  a.getValue.map fun value =>
    "a=".toList ++ str a.getField ++ value.elim [] (':' :: ·) ++ crlf

end Attribute

namespace MediaDescription

variable (m : MediaDescription Own)

/-- Reference: the loops of `MediaDescription.java:56,98`. -/
def protoText : Str := ['/'].intercalate (m.proto.map str)

/-- Reference: `MediaDescription.java:89`. -/
def toString : Option Str :=
  (m.attributes.mapM Attribute.toString).map fun attributes =>
    "m=".toList ++ str m.media ++ ' ' :: num m.port ++
      (if m.numberOfPorts = none then [] else '/' :: num m.numberOfPorts) ++ ' ' :: m.protoText ++
        m.formats.flatMap (fun f => ' ' :: str f) ++ crlf ++
          m.information.elim [] Information.toString ++ m.connections.flatMap Connection.toString ++
            m.bandwidths.flatMap Bandwidth.toString ++ m.key.elim [] Key.toString ++
              attributes.flatten

end MediaDescription

namespace SessionDescription

/-- A line of one letter. -/
def line (letter : Char) (s : Option Str) : Str := letter :: '=' :: str s ++ crlf

/-- The origin and the name have to be there. Reference: `SessionDescription.java:144`. -/
def toString (s : SessionDescription Own) : Option Str :=
  s.origin.bind fun origin => s.sessionName.bind fun sessionName =>
  (s.times.mapM Time.toString).bind fun times =>
  (s.attributes.mapM Attribute.toString).bind fun attributes =>
  (s.medias.mapM MediaDescription.toString).map fun medias =>
    "v=".toList ++ num s.version ++ crlf ++ origin.toString ++ sessionName.toString ++
      (s.uri.elim [] (fun uri => "u=".toList ++ uri) ++ (s.emails.flatMap (line 'e') ++
        (s.phones.flatMap (line 'p') ++ (s.connection.elim [] Connection.toString ++
          (times.flatten ++ (attributes.flatten ++ medias.flatten))))))

end SessionDescription

/-! ## What a clone is made of -/

/-- The classes that are given all their fields are left out here. Reference:
`CandidateAttribute.java:66`. -/
def Attribute.cloned : Attribute Own → Attribute Own
  | candidate fundation componentId transport priority address port type _ _ _ =>
    candidate fundation componentId transport priority address port type none none []
  | a => a

/-- The tokens of a text: the pieces between slashes that are not empty. Reference:
`MediaDescription.java:45`. -/
def tokens (s : Str) : List (List Char) := (s.splitOn '/').filter (· ≠ [])

/-- Reference: `MediaDescription.java:52`. -/
def MediaDescription.cloned (m : MediaDescription Own) : MediaDescription Own where
  media := m.media
  port := m.port
  proto := (tokens m.protoText).map some
  formats := m.formats
  connections := m.connections
  bandwidths := m.bandwidths
  attributes := m.attributes.map Attribute.cloned

/-- Phones are added to the emails, and the attributes twice. Reference:
`SessionDescription.java:102`. -/
def SessionDescription.cloned (s : SessionDescription Own) : SessionDescription Own where
  version := s.version
  origin := s.origin
  sessionName := s.sessionName
  information := s.information
  emails := s.emails ++ s.phones
  phones := []
  connection := s.connection
  bandwidths := s.bandwidths
  attributes := s.attributes.map Attribute.cloned ++ s.attributes.map Attribute.cloned
  key := s.key
  times := s.times
  medias := s.medias.map MediaDescription.cloned

/-! ## When the clone prints the same -/

/-- Printing the value does not throw. -/
def Attribute.Printable : Attribute Own → Prop
  | rtpMap fmt _ _ _ => fmt ≠ none
  | _ => True

/-- Printing does not throw. -/
def SessionDescription.Printable (s : SessionDescription Own) : Prop :=
  s.origin ≠ none ∧ s.sessionName ≠ none ∧ (∀ t ∈ s.times, t.start ≠ none ∧ t.stop ≠ none) ∧
    (∀ a ∈ s.attributes, a.Printable) ∧ ∀ m ∈ s.medias, ∀ a ∈ m.attributes, a.Printable

/-- There is nothing that a clone does not have. -/
def Attribute.Kept : Attribute Own → Prop
  | candidate _ _ _ _ _ _ _ relAddr relPort extensions =>
    relAddr = none ∧ relPort = none ∧ extensions = []
  | _ => True

/-- There is nothing that a clone does not have, and no slash of the protocol is one too many. -/
def MediaDescription.Kept (m : MediaDescription Own) : Prop :=
  m.numberOfPorts = none ∧ (m.protoText = [] ∨ [] ∉ m.protoText.splitOn '/') ∧
    m.information = none ∧ m.key = none ∧ ∀ a ∈ m.attributes, a.Kept

/-- There is nothing that a clone does not have, or has twice. -/
def SessionDescription.Kept (s : SessionDescription Own) : Prop :=
  s.uri = none ∧ s.phones = [] ∧ s.attributes = [] ∧ ∀ m ∈ s.medias, m.Kept

section Lists

variable {α β : Type} {f : α → Option β} {g : α → β} {l : List α}

theorem mapM_of_forall (h : ∀ a ∈ l, f a = some (g a)) : l.mapM f = some (l.map g) := by
  induction l with
  | nil => rfl
  | cons a l ih =>
    rw [List.mapM_cons, h a List.mem_cons_self, ih fun b hb => h b (List.mem_cons_of_mem _ hb)]
    rfl

theorem mapM_of_mem {a : α} (ha : a ∈ l) (h : f a = none) : l.mapM f = none := by
  induction l with
  | nil => exact absurd ha List.not_mem_nil
  | cons b l ih =>
    rw [List.mapM_cons]
    rcases List.mem_cons.1 ha with rfl | ha
    · rw [h]
      rfl
    · rw [ih ha]
      cases f b <;> rfl

end Lists

variable {a : Attribute Own}

namespace Attribute

/-- What is printed where nothing throws. -/
def text (a : Attribute Own) : Str := a.toString.getD []

theorem toString_of_printable (h : a.Printable) : a.toString = some a.text := by
  cases a with
  | rtpMap format =>
    cases format with
    | none => exact absurd rfl h
    | some => rfl
  | _ => rfl

theorem toString_of_not_printable (h : ¬a.Printable) : a.toString = none := by
  cases a with
  | rtpMap format =>
    cases format with
    | none => rfl
    | some => exact absurd (Option.some_ne_none _) h
  | _ => exact absurd trivial h

theorem printable_cloned (a : Attribute Own) : a.cloned.Printable ↔ a.Printable := by
  cases a <;> exact Iff.rfl

theorem candidateRest_eq_nil_iff (relAddr : Option Str) (relPort : Option Int)
    (extensions : List Extension) : candidateRest relAddr relPort extensions = [] ↔
      relAddr = none ∧ relPort = none ∧ extensions = [] := by
  cases relAddr <;> cases relPort <;> cases extensions <;> simp [candidateRest]

theorem head?_candidateRest {relAddr : Option Str} {relPort : Option Int}
    {extensions : List Extension} (h : candidateRest relAddr relPort extensions ≠ []) :
    (candidateRest relAddr relPort extensions).head? = some ' ' := by
  cases relAddr <;> cases relPort <;> cases extensions <;>
    first | rfl | exact absurd rfl h

theorem text_eq {value : Option Str} (h : a.getValue = some value) :
    a.text = 'a' :: ('=' :: str a.getField ++ value.elim [] (':' :: ·)) ++ crlf := by
  rw [text, toString, h]
  rfl

theorem getValue_of_printable (h : a.Printable) : ∃ value, a.getValue = some value := by
  cases a with
  | rtpMap format =>
    cases format with
    | none => exact absurd rfl h
    | some => exact ⟨_, rfl⟩
  | _ => exact ⟨_, rfl⟩

theorem exists_text (h : a.Printable) : ∃ start rest : Str,
    a.text = 'a' :: start ++ rest ++ crlf ∧ a.cloned.text = 'a' :: start ++ crlf ∧
      (rest = [] ↔ a.Kept) ∧ (rest ≠ [] → rest.head? = some ' ') := by
  obtain ⟨value, hvalue⟩ := getValue_of_printable h
  have hsame : a.cloned = a → a.Kept → ∃ start rest : Str,
      a.text = 'a' :: start ++ rest ++ crlf ∧ a.cloned.text = 'a' :: start ++ crlf ∧
        (rest = [] ↔ a.Kept) ∧ (rest ≠ [] → rest.head? = some ' ') := by
    intro hcloned hkept
    refine ⟨'=' :: str a.getField ++ value.elim [] (':' :: ·), [], ?_, ?_, iff_of_true rfl hkept,
      fun hne => absurd rfl hne⟩
    · rw [text_eq hvalue, List.append_nil]
    · rw [hcloned, text_eq hvalue]
  cases a with
  | candidate fundation componentId transport priority address port type relAddr relPort extensions =>
    refine ⟨"=candidate:".toList ++
        candidateStart fundation componentId transport priority address port type,
      candidateRest relAddr relPort extensions, ?_, ?_, candidateRest_eq_nil_iff _ _ _,
      head?_candidateRest⟩
    · rw [text_eq rfl]
      simp [str, getField]
    · rw [cloned, text_eq rfl]
      simp [str, getField, candidateRest]
  | _ => exact hsame rfl trivial

theorem kept_of_append_eq (h : a.Printable) {s t : Str}
    (heq : a.text ++ s = a.cloned.text ++ t) : a.Kept ∧ s = t := by
  obtain ⟨start, rest, htext, hcloned, hkept, hhead⟩ := exists_text h
  rw [htext, hcloned, List.append_assoc, List.append_assoc, List.append_assoc,
    List.append_right_inj] at heq
  rcases eq_or_ne rest [] with hnil | hne
  · rw [hnil, List.nil_append, List.append_right_inj] at heq
    exact ⟨hkept.1 hnil, heq⟩
  · obtain ⟨rest', hrest⟩ := List.head?_eq_some_iff.1 (hhead hne)
    rw [hrest] at heq
    exact absurd (List.cons.inj heq).1 (by decide)

theorem length_text_cloned (h : a.Printable) :
    a.cloned.text.length ≤ a.text.length ∧ (a.cloned.text.length = a.text.length ↔ a.Kept) := by
  obtain ⟨start, rest, htext, hcloned, hkept, -⟩ := exists_text h
  rw [htext, hcloned, ← hkept, ← List.length_eq_zero_iff]
  simp only [List.length_append]
  omega

theorem text_cloned_of_kept (h : a.Printable) (hkept : a.Kept) : a.cloned.text = a.text := by
  obtain ⟨start, rest, htext, hcloned, hiff, -⟩ := exists_text h
  rw [htext, hcloned, hiff.2 hkept, List.append_nil]

end Attribute

/-! ## Protocols -/

theorem length_intercalate {pieces : List (List Char)} (h : pieces ≠ []) :
    (['/'].intercalate pieces).length + 1 = (pieces.map fun p => p.length + 1).sum := by
  induction pieces with
  | nil => exact absurd rfl h
  | cons p pieces ih =>
    cases pieces with
    | nil => simp
    | cons q pieces =>
      have hrest := ih (List.cons_ne_nil _ _)
      rw [List.intercalate_cons_cons, List.length_append, List.length_append, List.map_cons,
        List.sum_cons, ← hrest]
      simp
      omega

theorem length_filter (pieces : List (List Char)) :
    ((pieces.filter (· ≠ [])).map fun p => p.length + 1).sum + pieces.count [] =
      (pieces.map fun p => p.length + 1).sum := by
  induction pieces with
  | nil => rfl
  | cons p pieces ih =>
    rw [List.filter_cons, List.map_cons, List.sum_cons]
    split
    case isTrue hne =>
      rw [List.map_cons, List.sum_cons, List.count_cons_of_ne (of_decide_eq_true hne), ← ih,
        Nat.add_assoc]
    case isFalse heq =>
      have hnil : p = [] := by simpa using heq
      rw [hnil, List.count_cons_self, ← ih, List.length_nil]
      omega

theorem length_tokens (s : Str) :
    (['/'].intercalate (tokens s)).length ≤ s.length ∧
      ((['/'].intercalate (tokens s)).length = s.length ↔ s = [] ∨ [] ∉ s.splitOn '/') := by
  have hpieces : s.splitOn '/' ≠ [] := List.splitOn_ne_nil _ _
  have hlength := length_intercalate hpieces
  have hfilter : ((tokens s).map fun p => p.length + 1).sum + (s.splitOn '/').count [] =
      ((s.splitOn '/').map fun p => p.length + 1).sum := length_filter _
  rw [List.intercalate_splitOn] at hlength
  rw [← List.count_eq_zero, ← List.length_eq_zero_iff]
  rcases eq_or_ne (tokens s) [] with hnil | hne
  · have hempty : (['/'].intercalate ([] : List (List Char))).length = 0 := rfl
    rw [hnil, List.map_nil, List.sum_nil] at hfilter
    rw [hnil, hempty]
    omega
  · have hshort := length_intercalate hne
    omega

theorem intercalate_tokens {s : Str} (h : s = [] ∨ [] ∉ s.splitOn '/') :
    ['/'].intercalate (tokens s) = s := by
  rcases h with rfl | h
  · rfl
  · rw [tokens, List.filter_eq_self.2, List.intercalate_splitOn]
    intro p hp
    exact decide_eq_true fun hnil => h (hnil ▸ hp)

/-! ## Media -/

namespace MediaDescription

variable {m : MediaDescription Own}

/-- Printing does not throw. -/
def Printable (m : MediaDescription Own) : Prop := ∀ a ∈ m.attributes, a.Printable

/-- What is printed where nothing throws. -/
def text (m : MediaDescription Own) : Str := m.toString.getD []

theorem toString_of_printable (h : m.Printable) : m.toString = some m.text := by
  rw [text, toString, mapM_of_forall fun a ha => Attribute.toString_of_printable (h a ha)]
  rfl

theorem toString_of_not_printable (h : ¬m.Printable) : m.toString = none := by
  obtain ⟨a, ha⟩ := not_forall.1 h
  obtain ⟨hmem, ha⟩ := Classical.not_imp.1 ha
  rw [toString, mapM_of_mem hmem (Attribute.toString_of_not_printable ha)]
  rfl

theorem printable_cloned (m : MediaDescription Own) : m.cloned.Printable ↔ m.Printable := by
  constructor
  · intro h a ha
    exact (Attribute.printable_cloned a).1 (h a.cloned (List.mem_map_of_mem ha))
  · intro h a' ha'
    obtain ⟨a, ha, rfl⟩ := List.mem_map.1 ha'
    exact (Attribute.printable_cloned a).2 (h a ha)

theorem text_eq (h : m.Printable) : m.text =
    "m=".toList ++ str m.media ++ ' ' :: num m.port ++
      (if m.numberOfPorts = none then [] else '/' :: num m.numberOfPorts) ++ ' ' :: m.protoText ++
        m.formats.flatMap (fun f => ' ' :: str f) ++ crlf ++
          m.information.elim [] Information.toString ++ m.connections.flatMap Connection.toString ++
            m.bandwidths.flatMap Bandwidth.toString ++ m.key.elim [] Key.toString ++
              (m.attributes.map Attribute.text).flatten := by
  rw [text, toString, mapM_of_forall fun a ha => Attribute.toString_of_printable (h a ha)]
  rfl

theorem length_attributes {l : List (Attribute Own)} (h : ∀ a ∈ l, a.Printable) :
    ((l.map Attribute.cloned).map Attribute.text).flatten.length ≤
        (l.map Attribute.text).flatten.length ∧
      (((l.map Attribute.cloned).map Attribute.text).flatten.length =
        (l.map Attribute.text).flatten.length ↔ ∀ a ∈ l, a.Kept) := by
  induction l with
  | nil => exact ⟨Nat.le_refl _, iff_of_true rfl fun a ha => absurd ha List.not_mem_nil⟩
  | cons a l ih =>
    obtain ⟨hle, hiff⟩ := ih fun b hb => h b (List.mem_cons_of_mem _ hb)
    obtain ⟨hle', hiff'⟩ := Attribute.length_text_cloned (h a List.mem_cons_self)
    simp only [List.map_cons, List.flatten_cons, List.length_append, List.forall_mem_cons]
    rw [← hiff, ← hiff']
    omega

theorem protoText_cloned (m : MediaDescription Own) :
    m.cloned.protoText = ['/'].intercalate (tokens m.protoText) := by
  rw [protoText, cloned, List.map_map]
  exact congrArg _ (List.map_id _)

theorem length_text_cloned (h : m.Printable) :
    m.cloned.text.length ≤ m.text.length ∧ (m.cloned.text.length = m.text.length ↔ m.Kept) := by
  have hports : (if m.numberOfPorts = none then [] else '/' :: num m.numberOfPorts).length = 0 ↔
      m.numberOfPorts = none := by
    split
    case isTrue hnone => exact iff_of_true rfl hnone
    case isFalse hsome => exact iff_of_false (Nat.succ_ne_zero _) hsome
  have hinformation : (m.information.elim [] Information.toString).length = 0 ↔
      m.information = none := by
    cases m.information with
    | none => exact iff_of_true rfl rfl
    | some i => exact iff_of_false (Nat.succ_ne_zero _) (Option.some_ne_none _)
  have hkey : (m.key.elim [] Key.toString).length = 0 ↔ m.key = none := by
    cases m.key with
    | none => exact iff_of_true rfl rfl
    | some k => exact iff_of_false (Nat.succ_ne_zero _) (Option.some_ne_none _)
  obtain ⟨hattributes, hattributes'⟩ := length_attributes h
  obtain ⟨hproto, hproto'⟩ := length_tokens m.protoText
  have hkept := and_congr hports (and_congr hproto' (and_congr hinformation
    (and_congr hkey hattributes')))
  rw [text_eq h, text_eq ((printable_cloned m).2 h), protoText_cloned, Kept, ← hkept]
  dsimp only [cloned, Option.elim_none]
  simp only [List.length_append, List.length_cons, List.length_nil, if_true]
  omega

theorem text_cloned_of_kept (h : m.Printable) (hkept : m.Kept) : m.cloned.text = m.text := by
  obtain ⟨hports, hproto, hinformation, hkey, hattributes⟩ := hkept
  have hmap : (m.attributes.map Attribute.cloned).map Attribute.text =
      m.attributes.map Attribute.text := by
    rw [List.map_map]
    exact List.map_congr_left fun a ha => Attribute.text_cloned_of_kept (h a ha) (hattributes a ha)
  rw [text_eq h, text_eq ((printable_cloned m).2 h), protoText_cloned, intercalate_tokens hproto,
    hports, hinformation, hkey]
  dsimp only [cloned]
  rw [hmap]
  rfl

theorem length_medias {l : List (MediaDescription Own)} (h : ∀ m ∈ l, m.Printable) :
    ((l.map cloned).map text).flatten.length ≤ (l.map text).flatten.length ∧
      (((l.map cloned).map text).flatten.length = (l.map text).flatten.length ↔
        ∀ m ∈ l, m.Kept) := by
  induction l with
  | nil => exact ⟨Nat.le_refl _, iff_of_true rfl fun a ha => absurd ha List.not_mem_nil⟩
  | cons m l ih =>
    obtain ⟨hle, hiff⟩ := ih fun n hn => h n (List.mem_cons_of_mem _ hn)
    obtain ⟨hle', hiff'⟩ := length_text_cloned (h m List.mem_cons_self)
    simp only [List.map_cons, List.flatten_cons, List.length_append, List.forall_mem_cons]
    rw [← hiff, ← hiff']
    omega

end MediaDescription

/-! ## Sessions -/

/-- The text is empty, or begins with one of the letters. -/
def Starts (letters : List Char) (s : Str) : Prop := ∀ c ∈ s.head?, c ∈ letters

section Starts

variable {letters : List Char} {s t : Str}

theorem Starts.nil : Starts letters [] := fun _ hc => absurd hc (Option.not_mem_none _)

theorem Starts.cons {c : Char} (hc : c ∈ letters) : Starts letters (c :: s) := by
  intro d hd
  cases hd
  exact hc

theorem Starts.append (hs : Starts letters s) (ht : Starts letters t) :
    Starts letters (s ++ t) := by
  cases s with
  | nil => exact ht
  | cons c s =>
    intro d hd
    cases hd
    exact hs c rfl

theorem Starts.flatten {l : List Str} (h : ∀ s ∈ l, Starts letters s) :
    Starts letters l.flatten := by
  induction l with
  | nil => exact .nil
  | cons s l ih =>
    exact (h s List.mem_cons_self).append (ih fun t ht => h t (List.mem_cons_of_mem _ ht))

end Starts

/-- What is printed where nothing throws. -/
def Time.text (t : Time) : Str := t.toString.getD []

theorem Time.toString_of_printable {t : Time} (h : t.start ≠ none ∧ t.stop ≠ none) :
    t.toString = some t.text := by
  rw [text, toString, if_neg (not_or.2 h)]
  rfl

theorem Time.toString_of_not_printable {t : Time} (h : ¬(t.start ≠ none ∧ t.stop ≠ none)) :
    t.toString = none :=
  if_pos (by tauto)

theorem Time.starts_text (t : Time) : Starts ['t'] t.text := by
  rw [text, toString]
  split
  · exact .nil
  · exact .cons List.mem_cons_self

theorem Attribute.starts_text (a : Attribute Own) : Starts ['a'] a.text := by
  rw [text, toString]
  cases a.getValue with
  | none => exact .nil
  | some value => exact .cons List.mem_cons_self

theorem MediaDescription.starts_text (m : MediaDescription Own) : Starts ['m'] m.text := by
  rw [text, toString]
  cases m.attributes.mapM Attribute.toString with
  | none => exact .nil
  | some attributes => exact .cons List.mem_cons_self

theorem kept_of_attributes {l : List (Attribute Own)} (h : ∀ a ∈ l, a.Printable) {s t : Str}
    (heq : (l.map Attribute.text).flatten ++ s =
      ((l.map Attribute.cloned).map Attribute.text).flatten ++ t) : s = t := by
  induction l with
  | nil => exact heq
  | cons a l ih =>
    simp only [List.map_cons, List.flatten_cons, List.append_assoc] at heq
    exact ih (fun b hb => h b (List.mem_cons_of_mem _ hb))
      (Attribute.kept_of_append_eq (h a List.mem_cons_self) heq).2

namespace SessionDescription

variable {s : SessionDescription Own}

/-- What is printed behind the name. -/
def body (s : SessionDescription Own) : Str :=
  s.uri.elim [] (fun uri => "u=".toList ++ uri) ++ (s.emails.flatMap (line 'e') ++
    (s.phones.flatMap (line 'p') ++ (s.connection.elim [] Connection.toString ++
      ((s.times.map Time.text).flatten ++ ((s.attributes.map Attribute.text).flatten ++
        (s.medias.map MediaDescription.text).flatten)))))

theorem toString_eq (h : s.Printable) {origin : Origin} {sessionName : SessionName}
    (horigin : s.origin = some origin) (hname : s.sessionName = some sessionName) :
    s.toString = some ("v=".toList ++ num s.version ++ crlf ++ origin.toString ++
      sessionName.toString ++ s.body) := by
  obtain ⟨-, -, htimes, hattributes, hmedias⟩ := h
  rw [toString, horigin, Option.bind_some, hname, Option.bind_some,
    mapM_of_forall fun t ht => Time.toString_of_printable (htimes t ht), Option.bind_some,
    mapM_of_forall fun a ha => Attribute.toString_of_printable (hattributes a ha), Option.bind_some,
    mapM_of_forall fun m hm => MediaDescription.toString_of_printable (hmedias m hm)]
  rfl

theorem printable_of_toString {text : Str} (h : s.toString = some text) : s.Printable := by
  obtain ⟨origin, horigin, h⟩ := Option.bind_eq_some_iff.1 h
  obtain ⟨sessionName, hname, h⟩ := Option.bind_eq_some_iff.1 h
  obtain ⟨times, htimes, h⟩ := Option.bind_eq_some_iff.1 h
  obtain ⟨attributes, hattributes, h⟩ := Option.bind_eq_some_iff.1 h
  obtain ⟨medias, hmedias, -⟩ := Option.map_eq_some_iff.1 h
  refine ⟨?_, ?_, fun t ht => ?_, fun a ha => ?_, fun m hm => ?_⟩
  · rw [horigin]
    exact Option.some_ne_none _
  · rw [hname]
    exact Option.some_ne_none _
  · by_contra hnot
    rw [mapM_of_mem ht (Time.toString_of_not_printable hnot)] at htimes
    cases htimes
  · by_contra hnot
    rw [mapM_of_mem ha (Attribute.toString_of_not_printable hnot)] at hattributes
    cases hattributes
  · by_contra hnot
    rw [mapM_of_mem hm (MediaDescription.toString_of_not_printable hnot)] at hmedias
    cases hmedias

theorem printable_cloned (s : SessionDescription Own) : s.cloned.Printable ↔ s.Printable := by
  refine and_congr Iff.rfl (and_congr Iff.rfl (and_congr Iff.rfl (and_congr ?_ ?_)))
  · constructor
    · intro h a ha
      exact (Attribute.printable_cloned a).1
        (h _ (List.mem_append_left _ (List.mem_map_of_mem ha)))
    · intro h a' ha'
      rcases List.mem_append.1 ha' with ha' | ha'
      all_goals
        obtain ⟨a, ha, rfl⟩ := List.mem_map.1 ha'
        exact (Attribute.printable_cloned a).2 (h a ha)
  · constructor
    · intro h m hm
      exact (MediaDescription.printable_cloned m).1 (h _ (List.mem_map_of_mem hm))
    · intro h m' hm'
      obtain ⟨m, hm, rfl⟩ := List.mem_map.1 hm'
      exact (MediaDescription.printable_cloned m).2 (h m hm)

theorem starts_body_cloned (s : SessionDescription Own) :
    Starts ['e', 'c', 't', 'a', 'm'] s.cloned.body := by
  have hmono : ∀ {c : Char} {t : Str}, c ∈ ['e', 'c', 't', 'a', 'm'] → Starts [c] t →
      Starts ['e', 'c', 't', 'a', 'm'] t := by
    intro c t hc ht d hd
    rwa [List.mem_singleton.1 (ht d hd)]
  have hmap : ∀ {α : Type} {c : Char} {l : List α} {f : α → Str}, c ∈ ['e', 'c', 't', 'a', 'm'] →
      (∀ a, Starts [c] (f a)) → Starts ['e', 'c', 't', 'a', 'm'] (l.map f).flatten := by
    intro α c l f hc hf
    refine Starts.flatten fun t ht => ?_
    obtain ⟨a, -, rfl⟩ := List.mem_map.1 ht
    exact hmono hc (hf a)
  have hconnection : Starts ['e', 'c', 't', 'a', 'm']
      (s.cloned.connection.elim [] Connection.toString) := by
    cases s.cloned.connection with
    | none => exact .nil
    | some c => exact .cons (by decide)
  rw [body, List.flatMap_def, List.flatMap_def]
  exact .append .nil ((hmap (by decide) fun a => .cons List.mem_cons_self).append (.append .nil
    (hconnection.append ((hmap (by decide) Time.starts_text).append
      ((hmap (by decide) Attribute.starts_text).append
        (hmap (by decide) MediaDescription.starts_text))))))

theorem body_cloned (s : SessionDescription Own) : s.cloned.body =
    s.emails.flatMap (line 'e') ++ (s.phones.flatMap (line 'e') ++
      (s.connection.elim [] Connection.toString ++ ((s.times.map Time.text).flatten ++
        (((s.attributes.map Attribute.cloned).map Attribute.text).flatten ++
          (((s.attributes.map Attribute.cloned).map Attribute.text).flatten ++
            ((s.medias.map MediaDescription.cloned).map MediaDescription.text).flatten))))) := by
  rw [body, cloned]
  simp only [Option.elim_none, List.nil_append, List.flatMap_append, List.flatMap_nil,
    List.map_append, List.flatten_append, List.append_assoc]

theorem body_cloned_iff (h : s.Printable) : s.cloned.body = s.body ↔ s.Kept := by
  obtain ⟨-, -, -, hattributes, hmedias⟩ := h
  constructor
  · intro heq
    have huri : s.uri = none := by
      cases huri : s.uri with
      | none => rfl
      | some uri =>
        have hstarts := starts_body_cloned s
        rw [heq, body, huri] at hstarts
        exact absurd (hstarts 'u' rfl) (by decide)
    rw [body_cloned, body, huri, Option.elim_none, List.nil_append, List.append_right_inj] at heq
    have hphones : s.phones = [] := by
      cases hphones : s.phones with
      | nil => rfl
      | cons phone phones =>
        rw [hphones] at heq
        exact absurd (List.cons.inj heq).1 (by decide)
    rw [hphones, List.flatMap_nil, List.nil_append, List.flatMap_nil, List.nil_append,
      List.append_right_inj, List.append_right_inj] at heq
    have hrest := kept_of_attributes hattributes heq.symm
    have hempty : s.attributes = [] := by
      cases hcons : s.attributes with
      | nil => rfl
      | cons a l =>
        have hprintable := (Attribute.printable_cloned a).2
          (hattributes a (hcons ▸ List.mem_cons_self))
        obtain ⟨start, rest, htext, -⟩ := Attribute.exists_text hprintable
        have hstarts : Starts ['m'] (s.medias.map MediaDescription.text).flatten := by
          refine Starts.flatten fun t ht => ?_
          obtain ⟨m, -, rfl⟩ := List.mem_map.1 ht
          exact m.starts_text
        rw [hrest, hcons, List.map_cons, List.map_cons, List.flatten_cons, htext] at hstarts
        exact absurd (hstarts 'a' rfl) (by decide)
    rw [hempty] at hrest
    exact ⟨huri, hphones, hempty,
      (MediaDescription.length_medias hmedias).2.1 (congrArg List.length hrest).symm⟩
  · rintro ⟨huri, hphones, hempty, hkept⟩
    have hmap : (s.medias.map MediaDescription.cloned).map MediaDescription.text =
        s.medias.map MediaDescription.text := by
      rw [List.map_map]
      exact List.map_congr_left fun m hm =>
        MediaDescription.text_cloned_of_kept (hmedias m hm) (hkept m hm)
    rw [body_cloned, body, huri, hphones, hempty, hmap]
    rfl

/-- **The clone of a description prints the same** exactly when printing throws, or there is nothing
that a clone does not have. -/
theorem toString_cloned_iff (s : SessionDescription Own) :
    s.cloned.toString = s.toString ↔ (s.Printable → s.Kept) := by
  by_cases h : s.Printable
  · obtain ⟨origin, horigin⟩ := Option.ne_none_iff_exists'.1 h.1
    obtain ⟨sessionName, hname⟩ := Option.ne_none_iff_exists'.1 h.2.1
    rw [toString_eq h horigin hname, toString_eq ((printable_cloned s).2 h) horigin hname,
      Option.some.injEq, forall_prop_of_true h, ← body_cloned_iff h]
    exact List.append_right_inj _
  · refine iff_of_true ?_ fun hprintable => absurd hprintable h
    have hnone : ∀ {s : SessionDescription Own}, ¬s.Printable → s.toString = none :=
      fun hnot => Option.eq_none_iff_forall_ne_some.2 fun _ htext =>
        hnot (printable_of_toString htext)
    rw [hnone h, hnone (mt (printable_cloned s).1 h)]

end SessionDescription

end Sdp

end McuMediaServer
