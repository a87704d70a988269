import McuMediaServer.Base.Run
import McuMediaServer.Base.SortedMap
import Mathlib.Data.String.Basic

/-!
# The headers of a handshake

The HTTP parser tells a connection that is not upgraded yet about the names and the values of
headers, in fragments. The connection adds a header to the request when the next name begins, or the
request is complete, and it has both a name and a value: a header whose value is empty is not added
and its name is put in front of the next one. When a request is complete its last header is not
cleared, so that it is added to the next request too.

`headersRight_iff` says of which sequences of requests every request gets exactly its headers.
-/

namespace McuMediaServer

namespace WebSocket

open SortedMap StepRun

/-- The headers of a `HTTPRequest`, by their names. Reference: `http.h:29`. -/
abbrev Headers := List (String × List String)

/-- Reference: `http.cpp:151`. -/
def Headers.addHeader (headers : Headers) (key value : String) : Headers :=
  push key value headers

/-- What a connection that is not upgraded yet keeps of its request. Reference:
`websocketconnection.h:366`. -/
structure Handshake where
  request : Option Headers := none
  headerField : String := ""
  headerValue : String := ""

namespace Handshake

/-- The header that has been received, if it has a name and a value, is added to the request. -/
def addPrevious (c : Handshake) : Handshake :=
  match c.request with
  | some headers =>
    if c.headerField ≠ "" ∧ c.headerValue ≠ "" then
      { c with request := some (headers.addHeader c.headerField c.headerValue) }
    else
      c
  | none => c

/-- The method and the version of the request are left out. Reference:
`websocketconnection.cpp:820`. -/
def onUrl (c : Handshake) : Handshake := { c with request := some [] }

/-- Reference: `websocketconnection.cpp:831`. -/
def onHeaderField (c : Handshake) (fragment : String) : Handshake :=
  if c.request.isSome ∧ c.headerField ≠ "" ∧ c.headerValue ≠ "" then
    { c.addPrevious with headerField := fragment, headerValue := "" }
  else
    { c with headerField := c.headerField ++ fragment }

/-- Reference: `websocketconnection.cpp:849`. -/
def onHeaderValue (c : Handshake) (fragment : String) : Handshake :=
  { c with headerValue := c.headerValue ++ fragment }

/-- Reference: `websocketconnection.cpp:874`. -/
def onMessageComplete (c : Handshake) : Handshake := c.addPrevious

end Handshake

/-! ## What the parser delivers -/

/-- A header and the fragments in which the parser delivers it. The name is not empty, the value may
be, and a line without a colon has no fragments of a value. -/
structure Header where
  field : List String
  value : List String
  name_ne : String.join field ≠ ""

def Header.name (h : Header) : String := String.join h.field

def Header.content (h : Header) : String := String.join h.value

/-- The headers of a request, whose names are distinct. -/
structure Request where
  headers : List Header
  nodup : (headers.map Header.name).Nodup

variable {r : Request} {hs : List Header}

namespace Handshake

/-- The parser delivers a header. -/
def deliver (c : Handshake) (h : Header) : Handshake :=
  h.value.foldl onHeaderValue (h.field.foldl onHeaderField c)

/-- The parser delivers a request. -/
def receive (c : Handshake) (r : Request) : Handshake :=
  (r.headers.foldl deliver c.onUrl).onMessageComplete

/-- The request has the value of each of the headers, and nothing else. -/
def HeadersRight (c : Handshake) (r : Request) : Prop :=
  ∃ headers, c.request = some headers ∧
    ∀ key, get? key headers =
      (r.headers.find? fun h => key = h.name).map fun h => [h.content]

/-! ## Fragments -/

/-- A header that has been received as a whole: it has a name if it has a value. -/
def Whole (c : Handshake) : Prop := c.headerField = "" → c.headerValue = ""

/-- What is received and not added yet. -/
def pending (c : Handshake) : List (String × String) :=
  if c.headerField ≠ "" ∧ c.headerValue ≠ "" then [(c.headerField, c.headerValue)] else []

theorem pending_of_field {c : Handshake} (h : c.headerField ≠ "") :
    c.pending = if c.headerValue = "" then [] else [(c.headerField, c.headerValue)] := by
  rw [pending]
  split
  case isTrue hboth => rw [if_neg hboth.2]
  case isFalse hnot => rw [if_pos (not_not.1 fun hvalue => hnot ⟨h, hvalue⟩)]

/-- Entries, added to a request. -/
def addAll (headers : Headers) (entries : List (String × String)) : Headers :=
  entries.foldl (fun m e => push e.1 e.2 m) headers

variable {c : Handshake} {headers : Headers}

theorem addPrevious_eq (hr : c.request = some headers) :
    c.addPrevious = { c with request := some (addAll headers c.pending) } := by
  obtain ⟨request, field, value⟩ := c
  obtain rfl : request = some headers := hr
  rw [addPrevious, pending]
  dsimp only
  split <;> rfl

theorem foldl_onHeaderValue (fragments : List String) (c : Handshake) :
    fragments.foldl onHeaderValue c = { c with headerValue := c.headerValue ++ String.join fragments } := by
  induction fragments generalizing c with
  | nil => rw [List.foldl_nil, String.join_nil, String.append_empty]
  | cons fragment fragments ih =>
    rw [List.foldl_cons, ih, onHeaderValue, String.join_cons, String.append_assoc]

theorem foldl_onHeaderField (fragments : List String) (hvalue : c.headerValue = "") :
    fragments.foldl onHeaderField c = { c with headerField := c.headerField ++ String.join fragments } := by
  induction fragments generalizing c with
  | nil => rw [List.foldl_nil, String.join_nil, String.append_empty]
  | cons fragment fragments ih =>
    have hstep : c.onHeaderField fragment = { c with headerField := c.headerField ++ fragment } :=
      if_neg fun h => h.2.2 hvalue
    rw [List.foldl_cons, hstep, String.join_cons, ← String.append_assoc]
    exact ih hvalue

theorem onHeaderField_eq (hr : c.request = some headers) (hw : c.Whole) (fragment : String) :
    c.onHeaderField fragment = {
      request := some (addAll headers c.pending)
      headerField := (if c.headerValue = "" then c.headerField else "") ++ fragment
      headerValue := "" } := by
  rw [onHeaderField]
  rcases eq_or_ne c.headerValue "" with hvalue | hvalue
  · rw [if_neg fun h => h.2.2 hvalue, if_pos hvalue, pending, if_neg fun h => h.2 hvalue, ← hvalue,
      addAll, List.foldl_nil, ← hr]
  · have hfield : c.headerField ≠ "" := fun h => hvalue (hw h)
    rw [if_pos ⟨by rw [hr]; rfl, hfield, hvalue⟩, if_neg hvalue, addPrevious_eq hr,
      String.empty_append]

theorem deliver_eq (hr : c.request = some headers) (hw : c.Whole) (h : Header) :
    c.deliver h = {
      request := some (addAll headers c.pending)
      headerField := (if c.headerValue = "" then c.headerField else "") ++ h.name
      headerValue := h.content } := by
  rw [deliver]
  cases hfield : h.field with
  | nil => exact absurd (congrArg String.join hfield) h.name_ne
  | cons fragment fragments =>
    rw [List.foldl_cons, onHeaderField_eq hr hw, foldl_onHeaderField _ rfl, foldl_onHeaderValue,
      String.append_assoc, String.empty_append, Header.name, hfield, String.join_cons,
      Header.content]

/-! ## Requests -/

/-- What has been added to the request, and will be added when the pending header is. -/
structure Collected (c : Handshake) (entries : List (String × String)) : Prop where
  whole : c.Whole
  request : ∃ done, c.request = some (addAll [] done) ∧ done ++ c.pending = entries

variable {entries : List (String × String)}

/-- The name under which a header is added. -/
def nameIn (c : Handshake) (h : Header) : String :=
  (if c.headerValue = "" then c.headerField else "") ++ h.name

theorem Collected.deliver (hc : Collected c entries) (h : Header) :
    Collected (c.deliver h)
      (entries ++ if h.content = "" then [] else [(c.nameIn h, h.content)]) := by
  obtain ⟨done, hr, rfl⟩ := hc.request
  have hname : c.nameIn h ≠ "" := fun heq => h.name_ne (String.append_eq_empty_iff.1 heq).2
  rw [deliver_eq hr hc.whole]
  refine ⟨fun heq => absurd heq hname, done ++ c.pending, ?_, ?_⟩
  · rw [addAll, addAll, addAll, List.foldl_append]
  · exact congrArg _ (pending_of_field hname)

theorem Collected.foldl_deliver (hc : Collected c entries) (hne : ∀ e ∈ entries, e.2 ≠ "")
    (hs : List Header) :
    ∃ entries', Collected (hs.foldl Handshake.deliver c) entries' ∧ ∀ e ∈ entries', e.2 ≠ "" := by
  induction hs generalizing c entries with
  | nil => exact ⟨entries, hc, hne⟩
  | cons h hs ih =>
    refine ih (hc.deliver h) fun e he => ?_
    rcases List.mem_append.1 he with he | he
    · exact hne e he
    · split at he
      case isTrue => cases he
      case isFalse hcontent =>
        rw [List.mem_singleton.1 he]
        exact hcontent

/-- There is no name left from before, unless it has a value. -/
def Clean (c : Handshake) : Prop := c.headerField = "" ↔ c.headerValue = ""

theorem clean_new : Clean {} := Iff.rfl

theorem Collected.foldl_deliver_of_content (hc : Collected c entries) (hclean : c.Clean)
    (hcontent : ∀ h ∈ hs, h.content ≠ "") :
    Collected (hs.foldl Handshake.deliver c) (entries ++ hs.map fun h => (h.name, h.content)) ∧
      (hs.foldl Handshake.deliver c).Clean := by
  induction hs generalizing c entries with
  | nil =>
    rw [List.map_nil, List.append_nil]
    exact ⟨hc, hclean⟩
  | cons h hs ih =>
    obtain ⟨hh, hrest⟩ := List.forall_mem_cons.1 hcontent
    obtain ⟨done, hr, -⟩ := hc.request
    have hname : c.nameIn h = h.name := by
      rw [nameIn]
      split
      case isTrue hvalue => rw [hclean.2 hvalue, String.empty_append]
      case isFalse => rw [String.empty_append]
    have hdeliver := hc.deliver h
    rw [if_neg hh, hname] at hdeliver
    have hfield : (c.deliver h).headerField = h.name := by
      rw [deliver_eq hr hc.whole]
      exact hname
    have hvalue : (c.deliver h).headerValue = h.content := by
      rw [deliver_eq hr hc.whole]
    have hclean' : (c.deliver h).Clean := by
      rw [Clean, hfield, hvalue]
      exact iff_of_false h.name_ne hh
    have hboth := ih hdeliver hclean' hrest
    rwa [List.append_assoc] at hboth

theorem Collected.complete (hc : Collected c entries) :
    c.onMessageComplete = { c with request := some (addAll [] entries) } := by
  obtain ⟨done, hr, rfl⟩ := hc.request
  rw [onMessageComplete, addPrevious_eq hr, addAll, addAll, addAll, List.foldl_append]

theorem valuesOf_headers (key : String) (hnodup : (hs.map Header.name).Nodup) :
    valuesOf key (hs.map fun h => (h.name, h.content)) =
      ((hs.find? fun h => key = h.name).map Header.content).toList := by
  induction hs with
  | nil => rfl
  | cons h hs ih =>
    obtain ⟨hnotMem, hrest⟩ := List.nodup_cons.1 hnodup
    have ih := ih hrest
    rw [valuesOf] at ih ⊢
    rw [List.map_cons, List.filter_cons, List.find?_cons]
    rcases eq_or_ne key h.name with rfl | hne
    · have hnone : hs.find? (fun h' => h.name = h'.name) = none := by
        rw [List.find?_eq_none]
        intro h' hh' heq
        exact hnotMem (List.mem_map.2 ⟨h', hh', (of_decide_eq_true heq).symm⟩)
      rw [hnone] at ih
      rw [if_pos (decide_eq_true rfl), List.map_cons, ih, decide_eq_true rfl]
      rfl
    · rw [if_neg (by simpa using hne), ih, decide_eq_false hne]

theorem collected_onUrl (hw : c.Whole) : Collected c.onUrl c.pending :=
  ⟨hw, [], rfl, rfl⟩

theorem find?_name (hnodup : (hs.map Header.name).Nodup) {h : Header}
    (hmem : h ∈ hs) : (hs.find? fun h' => h.name = h'.name) = some h := by
  induction hs with
  | nil => cases hmem
  | cons h' hs ih =>
    obtain ⟨hnotMem, hrest⟩ := List.nodup_cons.1 hnodup
    rcases List.mem_cons.1 hmem with rfl | hmem
    · rw [List.find?_cons, decide_eq_true rfl]
    · have hne : h.name ≠ h'.name := fun heq => hnotMem (heq ▸ List.mem_map_of_mem hmem)
      rw [List.find?_cons, decide_eq_false hne, ih hrest hmem]

theorem get?_addAll (key : String) (entries : List (String × String)) :
    get? key (addAll [] entries) =
      if valuesOf key entries = [] then none else some (valuesOf key entries) :=
  get?_foldl_push key entries

/-- Nothing is left from before, and every header has a value. -/
def Delivers (c : Handshake) (r : Request) : Prop :=
  c.headerField = "" ∧ ∀ h ∈ r.headers, h.content ≠ ""

theorem headersRight_of_delivers (hclean : c.Clean) (h : c.Delivers r) :
    (c.receive r).HeadersRight r := by
  have hcollected := collected_onUrl fun _ => hclean.1 h.1
  rw [pending, if_neg fun h' => h'.1 h.1] at hcollected
  have hall := (hcollected.foldl_deliver_of_content hclean h.2).1
  refine ⟨_, congrArg Handshake.request hall.complete, fun key => ?_⟩
  rw [List.nil_append, get?_addAll, valuesOf_headers key r.nodup]
  cases r.headers.find? fun h => key = h.name with
  | none => rfl
  | some header => rfl

theorem content_of_headersRight (hclean : c.Clean)
    (h : (c.receive r).HeadersRight r) : ∀ header ∈ r.headers, header.content ≠ "" := by
  intro header hheader
  obtain ⟨headers, hrequest, hkeys⟩ := h
  have hpending : ∀ e ∈ c.pending, e.2 ≠ "" := by
    intro e he
    rw [pending] at he
    split at he
    case isTrue hboth =>
      rw [List.mem_singleton.1 he]
      exact hboth.2
    case isFalse => cases he
  obtain ⟨entries, hcollected, hne⟩ :=
    (collected_onUrl hclean.1).foldl_deliver hpending r.headers
  obtain rfl : addAll [] entries = headers :=
    Option.some.inj ((congrArg Handshake.request hcollected.complete).symm.trans hrequest)
  have hkey := hkeys header.name
  rw [find?_name r.nodup hheader, get?_addAll] at hkey
  split at hkey
  case isTrue => cases hkey
  case isFalse =>
    have hmem : header.content ∈ valuesOf header.name entries := by
      rw [Option.some.inj hkey]
      exact List.mem_singleton_self _
    obtain ⟨e, he, heq⟩ := List.mem_map.1 hmem
    rw [← heq]
    exact hne e (List.mem_filter.1 he).1

theorem field_of_headersRight (hclean : c.Clean)
    (h : (c.receive r).HeadersRight r) : c.headerField = "" := by
  have hcontent := content_of_headersRight hclean h
  refine by_contra fun hfield => ?_
  have hcollected := collected_onUrl hclean.1
  rw [pending, if_pos ⟨hfield, fun hvalue => hfield (hclean.2 hvalue)⟩] at hcollected
  have hall := (hcollected.foldl_deliver_of_content hclean hcontent).1
  obtain ⟨headers, hrequest, hkeys⟩ := h
  obtain rfl := Option.some.inj ((congrArg Handshake.request hall.complete).symm.trans hrequest)
  have hkey := hkeys c.headerField
  have hvalues : valuesOf c.headerField ([(c.headerField, c.headerValue)] ++
        r.headers.map fun h => (h.name, h.content)) =
      c.headerValue :: ((r.headers.find? fun h => c.headerField = h.name).map
        Header.content).toList := by
    rw [← valuesOf_headers c.headerField r.nodup]
    exact valuesOf_cons_self ..
  rw [get?_addAll, hvalues, if_neg (List.cons_ne_nil _ _)] at hkey
  cases hfind : r.headers.find? fun h => c.headerField = h.name with
  | none =>
    rw [hfind] at hkey
    cases hkey
  | some header =>
    rw [hfind] at hkey
    have hlength := congrArg List.length (Option.some.inj hkey)
    cases hlength

theorem clean_receive (hclean : c.Clean) (h : c.Delivers r) : (c.receive r).Clean := by
  have hcollected := collected_onUrl fun _ => hclean.1 h.1
  rw [pending, if_neg fun h' => h'.1 h.1] at hcollected
  obtain ⟨hall, hclean'⟩ := hcollected.foldl_deliver_of_content hclean h.2
  rw [receive, hall.complete]
  exact hclean'

/-- **The headers of handshakes.** Every request on a connection gets exactly its headers if and
only if all of them have values, and no header is left over from an earlier request. -/
theorem headersRight_iff (requests : List Request) :
    (∀ rs, rs <+: requests → ∀ r ∈ rs.getLast?, (run receive {} rs).HeadersRight r) ↔
      Meets receive Delivers {} requests := by
  refine forall_prefix_iff_meets (I := fun _ (c : Handshake) => c.Clean)
    (P := fun rs (c : Handshake) => ∀ r ∈ rs.getLast?, c.HeadersRight r) clean_new nofun ?_ ?_
    requests
  · intro rs r hclean _ hdelivers
    exact clean_receive hclean hdelivers
  · intro rs r hclean _
    rw [List.getLast?_concat]
    constructor
    · intro h
      have hright := h r rfl
      exact ⟨field_of_headersRight hclean hright, content_of_headersRight hclean hright⟩
    · rintro hdelivers r' hr'
      obtain rfl := Option.some.inj hr'
      exact headersRight_of_delivers hclean hdelivers

/-- The value of the first header is empty. -/
def emptyOrigin : Request where
  headers := [⟨["Origin"], [""], by simp⟩, ⟨["Sec-WebSocket-Key"], ["x3JJHMbDL1EzLkh9"], by simp⟩]
  nodup := by simp [Header.name]

/-- The request has one header, whose name is `OriginSec-WebSocket-Key`. -/
theorem not_headersRight_emptyOrigin :
    ¬∀ rs, rs <+: [emptyOrigin] → ∀ r ∈ rs.getLast?, (run receive {} rs).HeadersRight r := by
  intro h
  have hright : (receive {} emptyOrigin).HeadersRight emptyOrigin :=
    h _ (List.prefix_refl _) emptyOrigin rfl
  exact content_of_headersRight clean_new hright ⟨["Origin"], [""], by simp⟩ List.mem_cons_self
    (by simp [Header.content])


end Handshake

end WebSocket

end McuMediaServer
