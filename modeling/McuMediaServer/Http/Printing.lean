import Mathlib.Algebra.Ring.Nat
import McuMediaServer.Base.Overwrite
import McuMediaServer.Http.Headers

/-!
# Printing content types and headers

Content types, dispositions and headers are printed by `sprintf` after one comparison of the size of
the buffer with the size the value tells of itself. The terminator has no room in that size, that of
a disposition has one too much, and that of headers leaves out the line ends.

Each print is a list of strings one behind the other (`Printed.printAll`), so that what is printed is
said once for the three of them.
-/

namespace McuMediaServer

/-- A string up to its first NUL, as `sprintf` takes it. -/
def cstr (s : Chars) : Chars := s.takeWhile (· ≠ 0)

/-- What has been written to a buffer, and the length that is returned. -/
structure Printed where
  memory : Nat → Option Nat := fun _ => none
  len : Nat := 0

namespace Printed

variable (b : Printed)

/-- Print a string and its terminator at the length that has been reached, and add to this. Writing
beyond the size of the buffer is the failure. -/
def sprintf (size : Nat) (text : Chars) (added : Nat) : Option Printed :=
  if b.len + text.length < size then
    some {
      memory := Overwrite.memcpy b.len (fun i => (text ++ [0])[i]?) (text.length + 1) b.memory
      len := (b.len + added) % 2 ^ 32 }
  else none

/-- Nothing was written, and no length is returned. -/
def Failed : Prop := b.len = 0 ∧ ∀ i, b.memory i = none

/-- A string with its terminator, which has no NUL in it. -/
def CString (memory : Nat → Option Nat) (s : Chars) : Prop :=
  0 ∉ s ∧ ∀ i, i ≤ s.length → memory i = (s ++ [0])[i]?

end Printed

/-- A value is printed within the buffer, or fails; the length that is returned is that of the text
and the one the value tells. -/
def PrintsOrFails (r : Option Printed) (text : Chars) (getSize : Nat) : Prop :=
  ∃ out, r = some out ∧
    (out.Failed ∨ Printed.CString out.memory text ∧ out.len = text.length ∧ out.len = getSize)

namespace Parameters

/-- Reference: the loop of `http.cpp:403,541`. -/
def serialize (size : Nat) (params : Values) (b : Printed) : Option Printed :=
  params.foldlM (fun b e => e.2.foldlM (fun b value =>
    (b.sprintf size (0x3B :: cstr e.1) (e.1.length + 1)).bind fun b =>
      if value = [] then some b else b.sprintf size (0x3D :: cstr value) (value.length + 1)) b) b

/-- Reference: the loop of `http.cpp:454,570`. -/
def getSize (params : Values) : Nat :=
  (params.map fun e => (e.2.map fun value =>
    e.1.length + 1 + if value = [] then 0 else value.length + 1).sum).sum

/-- A parameter: a semicolon, the name, and an equals sign and the value where there is one. -/
def parameterText (name value : Chars) : Chars :=
  0x3B :: name ++ if value = [] then [] else 0x3D :: value

/-- All values of all names. -/
def text (params : Values) : Chars :=
  params.flatMap fun e => e.2.flatMap (parameterText e.1)

/-- Between the names there is no semicolon. Reference: `http.cpp:113`. -/
def toString (params : Values) : Chars :=
  params.flatMap fun e => (e.2.zipIdx).flatMap fun value =>
    (if value.2 = 0 then [] else [0x3B]) ++
      if value.1 = [] then cstr e.1 else cstr e.1 ++ 0x3D :: cstr value.1

end Parameters

namespace ContentType

variable (c : ContentType)

/-- Reference: `http.cpp:449`. -/
def getSize : Nat := (c.type.length + c.subtype.length + 1 + Parameters.getSize c.params) % 2 ^ 32

/-- Reference: `http.cpp:389`. -/
def serialize (size : Nat) : Option Printed :=
  if size < c.getSize then some {}
  else
    (({} : Printed).sprintf size (cstr c.type ++ 0x2F :: cstr c.subtype)
      (c.type.length + c.subtype.length + 1)).bind (Parameters.serialize size c.params)

/-- Reference: `http.cpp:375`. -/
def toString : Chars :=
  c.type ++ 0x2F :: c.subtype ++ if c.params = [] then [] else 0x3B :: Parameters.toString c.params

/-- Reference: `http.cpp:427`. -/
def clone : ContentType :=
  { c with
    params := c.params.foldl (fun params e =>
      if e.2 = [] then SortedMap.push e.1 [] params
      else e.2.foldl (fun params value => SortedMap.push e.1 value params) params) [] }

/-- A type, a slash, a subtype and the parameters. -/
def text : Chars := c.type ++ 0x2F :: c.subtype ++ Parameters.text c.params

end ContentType

namespace ContentDisposition

variable (c : ContentDisposition)

/-- Reference: `http.cpp:565`. -/
def getSize : Nat := (c.type.length + 1 + Parameters.getSize c.params) % 2 ^ 32

/-- The length begins with one more than the type has. Reference: `http.cpp:527`. -/
def serialize (size : Nat) : Option Printed :=
  if size < c.getSize then some {}
  else (({} : Printed).sprintf size (cstr c.type) (c.type.length + 1)).bind
    (Parameters.serialize size c.params)

/-- A type and the parameters. -/
def text : Chars := c.type ++ Parameters.text c.params

end ContentDisposition

namespace Headers

/-- Of a header two bytes are counted that are not of the name or the value. Reference:
`http.cpp:290`. -/
def getSize (headers : Values) : Nat :=
  ((headers.map fun e => (e.2.map fun value =>
    if value = [] then 0 else e.1.length + value.length + 2).sum).sum) % 2 ^ 32

/-- A value that is empty is not printed. Reference: `http.cpp:236`. -/
def serialize (size : Nat) (headers : Values) : Option Printed :=
  if size < getSize headers then some {}
  else
    headers.foldlM (fun b e => e.2.foldlM (fun b value =>
      if value = [] then some b
      else b.sprintf size (cstr e.1 ++ 0x3A :: 0x20 :: cstr value ++ [13, 10])
        (e.1.length + value.length + 4)) b) {}

/-- The headers that have a value, each with a line end. -/
def text (headers : Values) : Chars :=
  headers.flatMap fun e => e.2.flatMap fun value =>
    if value = [] then [] else e.1 ++ 0x3A :: 0x20 :: value ++ [13, 10]

end Headers

/-! ## Strings one behind the other -/

namespace Printed

variable {b b' : Printed} {size : Nat}

/-- Print strings of some parts one behind the other. -/
def printAll (size : Nat) (pieces : List (List Chars)) (b : Printed) : Option Printed :=
  pieces.foldlM (fun b parts => b.sprintf size (parts.flatMap cstr) parts.flatten.length) b

theorem printAll_cons (parts : List Chars) (pieces : List (List Chars)) :
    printAll size (parts :: pieces) b =
      (b.sprintf size (parts.flatMap cstr) parts.flatten.length).bind (printAll size pieces) := rfl

theorem printAll_append (pieces pieces' : List (List Chars)) :
    printAll size (pieces ++ pieces') b =
      (printAll size pieces b).bind (printAll size pieces') := by
  rw [printAll, List.foldlM_append]
  rfl

theorem foldlM_printAll {α : Type} (l : List α) (pieces : α → List (List Chars)) (b : Printed) :
    l.foldlM (fun b a => printAll size (pieces a) b) b = printAll size (l.flatMap pieces) b := by
  induction l generalizing b with
  | nil => rfl
  | cons a l ih =>
    rw [List.foldlM_cons, List.flatMap_cons, printAll_append]
    exact congrArg _ (funext ih)

theorem cstr_eq {s : Chars} (h : 0 ∉ s) : cstr s = s := by
  rw [cstr, List.takeWhile_eq_self_iff]
  intro c hc
  exact decide_eq_true fun hzero => h (hzero ▸ hc)

theorem flatMap_cstr {parts : List Chars} (h : 0 ∉ parts.flatten) :
    parts.flatMap cstr = parts.flatten := by
  induction parts with
  | nil => rfl
  | cons s parts ih =>
    rw [List.flatten_cons, List.mem_append, not_or] at h
    rw [List.flatMap_cons, List.flatten_cons, cstr_eq h.1, ih h.2]

theorem sprintf_memory {text : Chars} {added : Nat} (h : b.sprintf size text added = some b')
    (hsize : ∀ i, b.memory i ≠ none → i < size) :
    (∀ i, b'.memory i ≠ none → i < size) ∧ (∀ i, b.memory i ≠ none → b'.memory i ≠ none) ∧
      b'.memory b.len ≠ none := by
  rw [sprintf] at h
  split at h
  case isFalse => cases h
  case isTrue hfits =>
    cases h
    have hsome : ∀ i, i < text.length + 1 → (text ++ [0])[i]? ≠ none := by
      intro i hi hnone
      rw [List.getElem?_eq_none_iff, List.length_append, List.length_singleton] at hnone
      omega
    refine ⟨fun i hi => ?_, fun i hi => ?_, ?_⟩
    · dsimp only [Overwrite.memcpy] at hi
      split at hi
      · omega
      · exact hsize i hi
    · dsimp only [Overwrite.memcpy]
      split
      · exact hsome _ (by omega)
      · exact hi
    · dsimp only [Overwrite.memcpy]
      rw [if_pos ⟨le_rfl, by omega⟩]
      exact hsome _ (by omega)

variable {pieces : List (List Chars)}

theorem printAll_memory (h : printAll size pieces b = some b')
    (hsize : ∀ i, b.memory i ≠ none → i < size) :
    (∀ i, b'.memory i ≠ none → i < size) ∧ ∀ i, b.memory i ≠ none → b'.memory i ≠ none := by
  induction pieces generalizing b with
  | nil =>
    cases h
    exact ⟨hsize, fun _ hi => hi⟩
  | cons parts pieces ih =>
    rw [printAll_cons, Option.bind_eq_some_iff] at h
    obtain ⟨c, hprint, h⟩ := h
    obtain ⟨hsize', hkeeps, -⟩ := sprintf_memory hprint hsize
    obtain ⟨hsize'', hkeeps'⟩ := ih h hsize'
    exact ⟨hsize'', fun i hi => hkeeps' i (hkeeps i hi)⟩

/-- What has been printed before the length that is reached. -/
def Holds (b : Printed) (text : Chars) : Prop :=
  b.len = text.length ∧ ∀ i, i < text.length → b.memory i = text[i]?

theorem Holds.cstring {text : Chars} (h : b.Holds text) (hzero : b.memory text.length = some 0)
    (hnul : 0 ∉ text) : CString b.memory text := by
  refine ⟨hnul, fun i hi => ?_⟩
  rcases hi.lt_or_eq with hlt | rfl
  · rw [h.2 i hlt, List.getElem?_append_left hlt]
  · rw [hzero, List.getElem?_append_right le_rfl, Nat.sub_self]
    rfl

theorem sprintf_holds {text s : Chars} (h : b.Holds text) (hsize : size < 2 ^ 32) :
    if text.length + s.length < size then
      ∃ b', b.sprintf size s s.length = some b' ∧ b'.Holds (text ++ s) ∧
        b'.memory (text ++ s).length = some 0
    else b.sprintf size s s.length = none := by
  obtain ⟨hlen, hmemory⟩ := h
  rw [sprintf, hlen]
  split
  case isFalse => rfl
  case isTrue hfits =>
    refine ⟨_, rfl, ⟨?_, fun i hi => ?_⟩, ?_⟩
    · dsimp only
      rw [List.length_append, Nat.mod_eq_of_lt (hfits.trans hsize)]
    · rw [List.length_append] at hi
      dsimp only [Overwrite.memcpy]
      rcases Nat.lt_or_ge i text.length with hlt | hge
      · rw [if_neg (by omega), hmemory i hlt, List.getElem?_append_left hlt]
      · rw [if_pos ⟨hge, by omega⟩, List.getElem?_append_right hge,
          List.getElem?_append_left (by omega)]
    · rw [List.length_append]
      dsimp only [Overwrite.memcpy]
      rw [if_pos ⟨by omega, by omega⟩, Nat.add_sub_cancel_left, List.getElem?_append_right le_rfl,
        Nat.sub_self]
      rfl

/-- **Strings one behind the other** are printed exactly when they have room with the last
terminator. -/
theorem printAll_holds {text : Chars} (h : b.Holds text) (hsize : size < 2 ^ 32)
    (hpieces : pieces ≠ []) (hnul : 0 ∉ (pieces.map List.flatten).flatten) :
    if text.length + (pieces.map List.flatten).flatten.length < size then
      ∃ b', printAll size pieces b = some b' ∧ b'.Holds (text ++ (pieces.map List.flatten).flatten) ∧
        b'.memory (text ++ (pieces.map List.flatten).flatten).length = some 0
    else printAll size pieces b = none := by
  induction pieces generalizing b text with
  | nil => exact absurd rfl hpieces
  | cons parts pieces ih =>
    rw [List.map_cons, List.flatten_cons] at hnul ⊢
    rw [List.mem_append, not_or] at hnul
    rw [printAll_cons, flatMap_cstr hnul.1, List.length_append]
    have hone := @sprintf_holds b size text parts.flatten h hsize
    split at hone
    case isFalse hroom =>
      rw [if_neg (by omega), hone]
      rfl
    case isTrue hroom =>
      obtain ⟨c, hprint, hholds, hzero⟩ := hone
      rw [hprint, Option.bind_some]
      cases pieces with
      | nil =>
        simp only [List.map_nil, List.flatten_nil, List.length_nil, Nat.add_zero, List.append_nil]
        rw [if_pos hroom]
        exact ⟨c, rfl, hholds, hzero⟩
      | cons parts' pieces =>
        have hmore := ih hholds (List.cons_ne_nil _ _) hnul.2
        rwa [List.length_append, List.append_assoc, Nat.add_assoc] at hmore

/-- How far the length comes, as a `DWORD`. -/
theorem printAll_len (h : printAll size pieces b = some b') (hlen : b.len < 2 ^ 32) :
    b'.len = (b.len + (pieces.map List.flatten).flatten.length) % 2 ^ 32 := by
  induction pieces generalizing b with
  | nil =>
    cases h
    exact (Nat.mod_eq_of_lt hlen).symm
  | cons parts pieces ih =>
    rw [printAll_cons, Option.bind_eq_some_iff] at h
    obtain ⟨c, hprint, h⟩ := h
    have hc : c.len = (b.len + parts.flatten.length) % 2 ^ 32 := by
      rw [sprintf] at hprint
      split at hprint
      · cases hprint
        rfl
      · cases hprint
    rw [ih h (hc ▸ Nat.mod_lt _ (by decide)), hc, List.map_cons, List.flatten_cons,
      List.length_append, Nat.mod_add_mod, Nat.add_assoc]

theorem not_failed_printAll {parts : List Chars}
    (h : printAll size (parts :: pieces) {} = some b') : ¬b'.Failed := by
  rintro ⟨-, hnone⟩
  rw [printAll_cons, Option.bind_eq_some_iff] at h
  obtain ⟨c, hprint, h⟩ := h
  obtain ⟨hsize, -, hfirst⟩ := sprintf_memory hprint fun i hi => absurd rfl hi
  exact (printAll_memory h hsize).2 0 hfirst (hnone 0)

theorem failed_empty : ({} : Printed).Failed := ⟨rfl, fun _ => rfl⟩

end Printed

open Printed

theorem printsOrFails_iff {size : Nat} (hsize : size < 2 ^ 32) {pieces : List (List Chars)}
    (hpieces : pieces ≠ []) {text : Chars} (htext : (pieces.map List.flatten).flatten = text) :
    PrintsOrFails (if size < text.length % 2 ^ 32 then some {} else printAll size pieces {}) text
        (text.length % 2 ^ 32) ↔
      size < text.length % 2 ^ 32 ∨ text.length < size ∧ 0 ∉ text := by
  split
  case isTrue h => exact iff_of_true ⟨_, rfl, .inl failed_empty⟩ (.inl h)
  case isFalse h =>
    rw [or_iff_right h]
    constructor
    · rintro ⟨out, hprint, hfailed | ⟨⟨hnul, hmemory⟩, -⟩⟩
      · obtain ⟨parts, pieces, rfl⟩ := List.exists_cons_of_ne_nil hpieces
        exact absurd hfailed (not_failed_printAll hprint)
      · refine ⟨(printAll_memory hprint fun i hi => absurd rfl hi).1 text.length ?_, hnul⟩
        rw [hmemory text.length le_rfl, List.getElem?_append_right le_rfl, Nat.sub_self]
        exact Option.some_ne_none 0
    · rintro ⟨hroom, hnul⟩
      have hholds := @printAll_holds {} size pieces [] ⟨rfl, fun i hi => absurd hi (Nat.not_lt_zero i)⟩
        hsize hpieces (htext.symm ▸ hnul)
      rw [htext, List.length_nil, Nat.zero_add, if_pos hroom, List.nil_append] at hholds
      obtain ⟨out, hprint, ⟨hlen, hmemory⟩, hzero⟩ := hholds
      refine ⟨out, hprint, .inr ⟨Holds.cstring ⟨hlen, hmemory⟩ hzero hnul, hlen, ?_⟩⟩
      rw [hlen, Nat.mod_eq_of_lt (hroom.trans hsize)]

/-! ## Parameters -/

namespace Parameters

/-- The strings that are printed for a parameter. -/
def parameterPieces (name value : Chars) : List (List Chars) :=
  [[0x3B], name] :: if value = [] then [] else [[[0x3D], value]]

def pieces (params : Values) : List (List Chars) :=
  params.flatMap fun e => e.2.flatMap (parameterPieces e.1)

theorem serialize_eq (size : Nat) (params : Values) (b : Printed) :
    serialize size params b = printAll size (pieces params) b := by
  have hparameter : ∀ (name value : Chars) (b : Printed),
      ((b.sprintf size (0x3B :: cstr name) (name.length + 1)).bind fun b =>
        if value = [] then some b else b.sprintf size (0x3D :: cstr value) (value.length + 1)) =
        printAll size (parameterPieces name value) b := by
    intro name value b
    have hname : [[0x3B], name].flatMap cstr = 0x3B :: cstr name := by simp [cstr]
    have hvalue : [[0x3D], value].flatMap cstr = 0x3D :: cstr value := by simp [cstr]
    have hadded : ∀ (c : Nat) (s : Chars), [[c], s].flatten.length = s.length + 1 := by
      intro c s
      simp
    rw [parameterPieces, printAll_cons, hname, hadded]
    refine congrArg _ (funext fun b => ?_)
    split
    case isTrue => rfl
    case isFalse =>
      rw [printAll_cons, hvalue, hadded]
      exact (Option.bind_fun_some _).symm
  rw [serialize, pieces, ← foldlM_printAll]
  refine congrArg (fun f => List.foldlM f b params) (funext fun b => funext fun e => ?_)
  rw [← foldlM_printAll]
  exact congrArg (fun f => List.foldlM f b e.2)
    (funext fun b => funext fun value => hparameter e.1 value b)

theorem flatten_pieces (params : Values) :
    ((pieces params).map List.flatten).flatten = text params := by
  have hparameter : ∀ name value : Chars,
      ((parameterPieces name value).map List.flatten).flatten = parameterText name value := by
    intro name value
    rw [parameterPieces, parameterText]
    split <;> simp
  have hvalues : ∀ (name : Chars) (values : List Chars),
      ((values.flatMap (parameterPieces name)).map List.flatten).flatten =
        values.flatMap (parameterText name) := by
    intro name values
    induction values with
    | nil => rfl
    | cons value values ih =>
      rw [List.flatMap_cons, List.map_append, List.flatten_append, hparameter, ih, List.flatMap_cons]
  induction params with
  | nil => rfl
  | cons e params ih =>
    rw [pieces, text, List.flatMap_cons, List.map_append, List.flatten_append, hvalues, ← pieces, ih,
      List.flatMap_cons, text]

theorem length_text (params : Values) : (text params).length = getSize params := by
  have hparameter : ∀ name value : Chars, (parameterText name value).length =
      name.length + 1 + if value = [] then 0 else value.length + 1 := by
    intro name value
    rw [parameterText]
    split
    · simp
    · simp
      omega
  have hvalues : ∀ (name : Chars) (values : List Chars),
      (values.flatMap (parameterText name)).length =
        (values.map fun value => name.length + 1 + if value = [] then 0 else value.length + 1).sum := by
    intro name values
    rw [List.length_flatMap]
    exact congrArg List.sum (List.map_congr_left fun value _ => hparameter name value)
  rw [text, getSize, List.length_flatMap]
  exact congrArg List.sum (List.map_congr_left fun e _ => hvalues e.1 e.2)

end Parameters

/-! ## The three printers -/

namespace ContentType

theorem getSize_eq (c : ContentType) : c.getSize = c.text.length % 2 ^ 32 := by
  have hlength : c.text.length =
      c.type.length + c.subtype.length + 1 + Parameters.getSize c.params := by
    rw [text, List.length_append, List.length_append, List.length_cons, Parameters.length_text]
    omega
  rw [getSize, hlength]

/-- The strings that are printed for a content type. -/
def pieces (c : ContentType) : List (List Chars) :=
  [c.type, [0x2F], c.subtype] :: Parameters.pieces c.params

theorem flatten_pieces (c : ContentType) : (c.pieces.map List.flatten).flatten = c.text := by
  rw [pieces, List.map_cons, List.flatten_cons, Parameters.flatten_pieces, text]
  simp

theorem serialize_eq (c : ContentType) (size : Nat) :
    c.serialize size =
      if size < c.text.length % 2 ^ 32 then some {} else printAll size c.pieces {} := by
  have hfirst : [c.type, [0x2F], c.subtype].flatMap cstr = cstr c.type ++ 0x2F :: cstr c.subtype := by
    simp [cstr]
  have hadded : [c.type, [0x2F], c.subtype].flatten.length = c.type.length + c.subtype.length + 1 := by
    simp
    omega
  rw [serialize, getSize_eq, pieces, printAll_cons, hfirst, hadded]
  refine if_congr Iff.rfl rfl (congrArg _ (funext fun b => ?_))
  exact Parameters.serialize_eq size c.params b

theorem printsOrFails_iff (c : ContentType) (size : UInt32) :
    PrintsOrFails (c.serialize size.toNat) c.text c.getSize ↔
      size.toNat < c.text.length % 2 ^ 32 ∨ c.text.length < size.toNat ∧ 0 ∉ c.text := by
  rw [serialize_eq, getSize_eq]
  exact McuMediaServer.printsOrFails_iff size.toNat_lt (List.cons_ne_nil _ _) c.flatten_pieces

end ContentType

namespace ContentDisposition

theorem getSize_eq (c : ContentDisposition) : c.getSize = (c.text.length + 1) % 2 ^ 32 := by
  have hlength : c.text.length + 1 = c.type.length + 1 + Parameters.getSize c.params := by
    rw [text, List.length_append, Parameters.length_text]
    omega
  rw [getSize, hlength]

theorem printsOrFails_iff (c : ContentDisposition) (size : UInt32) :
    PrintsOrFails (c.serialize size.toNat) c.text c.getSize ↔
      size.toNat < (c.text.length + 1) % 2 ^ 32 := by
  rw [serialize, getSize_eq]
  split
  case isTrue h => exact iff_of_true ⟨_, rfl, .inl failed_empty⟩ h
  case isFalse h =>
    refine iff_of_false ?_ h
    rintro ⟨out, hprint, hfailed | ⟨-, hlen, hsize⟩⟩
    · obtain ⟨b, hfirst, hprint⟩ := Option.bind_eq_some_iff.1 hprint
      rw [Parameters.serialize_eq] at hprint
      obtain ⟨hinside, -, hwritten⟩ := sprintf_memory hfirst fun i hi => absurd rfl hi
      exact (printAll_memory hprint hinside).2 0 hwritten (hfailed.2 0)
    · rw [hlen] at hsize
      omega

end ContentDisposition

namespace Headers

/-- The strings that are printed for headers. -/
def pieces (headers : Values) : List (List Chars) :=
  headers.flatMap fun e => e.2.flatMap fun value =>
    if value = [] then [] else [[e.1, [0x3A, 0x20], value, [13, 10]]]

theorem serialize_eq (size : Nat) (headers : Values) :
    serialize size headers =
      if size < getSize headers then some {} else printAll size (pieces headers) {} := by
  have hheader : ∀ (name value : Chars) (b : Printed),
      (if value = [] then some b
      else b.sprintf size (cstr name ++ 0x3A :: 0x20 :: cstr value ++ [13, 10])
        (name.length + value.length + 4)) =
        printAll size (if value = [] then [] else [[name, [0x3A, 0x20], value, [13, 10]]]) b := by
    intro name value b
    split
    case isTrue => rfl
    case isFalse =>
      have htext : [name, [0x3A, 0x20], value, [13, 10]].flatMap cstr =
          cstr name ++ 0x3A :: 0x20 :: cstr value ++ [13, 10] := by simp [cstr]
      have hadded : [name, [0x3A, 0x20], value, [13, 10]].flatten.length =
          name.length + value.length + 4 := by
        simp
        omega
      rw [printAll_cons, htext, hadded]
      exact (Option.bind_fun_some _).symm
  rw [serialize, pieces, ← foldlM_printAll]
  refine if_congr Iff.rfl rfl ?_
  refine congrArg (fun f : Printed → Chars × List Chars → Option Printed =>
    List.foldlM f {} headers) (funext fun b => funext fun e => ?_)
  rw [← foldlM_printAll]
  exact congrArg (fun f => List.foldlM f b e.2)
    (funext fun b => funext fun value => hheader e.1 value b)

theorem length_flatten_pieces (headers : Values) :
    ((pieces headers).map List.flatten).flatten.length =
      (headers.map fun e => (e.2.map fun value =>
        if value = [] then 0 else e.1.length + value.length + 2).sum).sum +
          2 * (pieces headers).length := by
  have hvalues : ∀ (name : Chars) (values : List Chars),
      ((values.flatMap fun value => if value = [] then [] else
          [[name, [0x3A, 0x20], value, [13, 10]]]).map List.flatten).flatten.length =
        (values.map fun value => if value = [] then 0 else name.length + value.length + 2).sum +
          2 * (values.flatMap fun value => if value = [] then [] else
            [[name, [0x3A, 0x20], value, [13, 10]]]).length := by
    intro name values
    induction values with
    | nil => rfl
    | cons value values ih =>
      rw [List.flatMap_cons, List.map_append, List.flatten_append, List.length_append, ih,
        List.map_cons, List.sum_cons, List.length_append]
      split
      case isTrue => simp
      case isFalse =>
        simp
        omega
  induction headers with
  | nil => rfl
  | cons e headers ih =>
    rw [pieces, List.flatMap_cons, List.map_append, List.flatten_append, List.length_append, hvalues,
      ← pieces, ih, List.map_cons, List.sum_cons, List.length_append]
    omega

theorem flatten_pieces (headers : Values) :
    ((pieces headers).map List.flatten).flatten = text headers := by
  have hvalues : ∀ (name : Chars) (values : List Chars),
      ((values.flatMap fun value => if value = [] then [] else
          [[name, [0x3A, 0x20], value, [13, 10]]]).map List.flatten).flatten =
        values.flatMap fun value =>
          if value = [] then [] else name ++ 0x3A :: 0x20 :: value ++ [13, 10] := by
    intro name values
    induction values with
    | nil => rfl
    | cons value values ih =>
      rw [List.flatMap_cons, List.map_append, List.flatten_append, ih, List.flatMap_cons]
      split <;> simp
  induction headers with
  | nil => rfl
  | cons e headers ih =>
    rw [pieces, text, List.flatMap_cons, List.map_append, List.flatten_append, hvalues, ← pieces, ih,
      List.flatMap_cons, text]

theorem pieces_eq_nil_iff (headers : Values) :
    pieces headers = [] ↔ ∀ e ∈ headers, ∀ value ∈ e.2, value = [] := by
  rw [pieces, List.flatMap_eq_nil_iff]
  refine forall_congr' fun e => imp_congr_right fun _ => ?_
  rw [List.flatMap_eq_nil_iff]
  refine forall_congr' fun value => imp_congr_right fun _ => ?_
  split
  case isTrue h => exact iff_of_true rfl h
  case isFalse h => exact iff_of_false (List.cons_ne_nil _ _) h

theorem printsOrFails_iff (headers : Values) (size : UInt32) :
    PrintsOrFails (serialize size.toNat headers) (text headers) (getSize headers) ↔
      size.toNat < getSize headers ∨ ∀ e ∈ headers, ∀ value ∈ e.2, value = [] := by
  rw [serialize_eq, ← pieces_eq_nil_iff]
  split
  case isTrue h => exact iff_of_true ⟨_, rfl, .inl failed_empty⟩ (.inl h)
  case isFalse h =>
    rw [or_iff_right h]
    constructor
    · rintro ⟨out, hprint, hfailed | ⟨-, hlen, hsize⟩⟩
      · cases hpieces : pieces headers with
        | nil => rfl
        | cons parts pieces =>
          rw [hpieces] at hprint
          exact absurd hfailed (not_failed_printAll hprint)
      · have hreached := printAll_len hprint (by decide)
        have hcount := length_flatten_pieces headers
        rw [← flatten_pieces] at hlen
        rw [hlen, getSize] at hsize
        rw [hlen] at hreached
        refine List.length_eq_zero_iff.1 ?_
        dsimp only at hreached
        omega
    · intro hpieces
      rw [hpieces]
      exact ⟨_, rfl, .inl failed_empty⟩

end Headers

end McuMediaServer
