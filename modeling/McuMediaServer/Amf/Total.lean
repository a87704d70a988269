import McuMediaServer.Amf.Consumed
import McuMediaServer.Base.Run

/-!
# Every call of the parser ends

The loops of the parsers inside of each other are flattened to turns of the innermost loop, in which
an exception and a parser that leaves its data or its memory are told apart. A call does the turns
until its data is taken or the value is complete, so that it comes to an end on all data, and is in
order exactly when no turn strays.
-/

namespace McuMediaServer

namespace Amf

/-! ## Turns of the innermost loop -/

/-- What a turn comes to: a value that goes on with the rest of the data, an exception, or a parser
that reads outside of its data, writes outside of its memory or calls itself without end. -/
inductive Turned where
  | goes (object : AMFParsing) (rest : List UInt8)
  | throws
  | strays

/-- Go on where a value goes on. -/
def Turned.within (f : AMFParsing → List UInt8 → Turned) : Turned → Turned
  | goes object rest => f object rest
  | throws => throws
  | strays => strays

/-- The value of a parser that has come to the rest of its data. A strict array of no elements is
said to be parsed, but its loop does not end while there is data. Reference: `amf.cpp:1579`. -/
def AMFParsing.finished (rest : List UInt8) : AMFParsing → Option AMFData
  | strictArray num [] parser =>
    if num.value = 0 ∧ rest ≠ [] then none else (strictArray num [] parser).getObject
  | value => value.getObject

/-- Put a part of a value into an object, or the value itself. Reference: `amf.cpp:1067`. -/
def AMFObject.put (key : StringParser) (properties : List (WString × AMFData))
    (order : List WString) (value : AMFParsing) (rest : List UInt8) : Turned :=
  match value.finished rest with
  | some v =>
    .goes (.object AMFString.new false (SortedMap.set key.getWString v properties)
      (order ++ [key.getWString]) none) rest
  | none => .goes (.object key false properties order (some value)) rest

/-- Put a part of a value into an array, or the value itself. Reference: `amf.cpp:1377`. -/
def AMFEcmaArray.put (num : NumberParser) (key : StringParser) (elements : List (WString × AMFData))
    (value : AMFParsing) (rest : List UInt8) : Turned :=
  match value.finished rest with
  | some v =>
    .goes (.ecmaArray num AMFString.new false (SortedMap.set key.getWString v elements) none) rest
  | none => .goes (.ecmaArray num key false elements (some value)) rest

/-- Put a part of an element into an array, or the element itself, for which there is room only if
the array has not all of them. Reference: `amf.cpp:1607`. -/
def AMFStrictArray.put (num : NumberParser) (elements : List AMFData) (value : AMFParsing)
    (rest : List UInt8) : Turned :=
  match value.finished rest with
  | some v =>
    if num.value ≤ elements.length then
      .strays
    else
      .goes (.strictArray num (elements ++ [v]) none) rest
  | none => .goes (.strictArray num elements (some value)) rest

/-- Begin a value. A reference reads behind its data, and a typed object calls itself when it is
asked whether it is parsed; without data the marker is read all the same. Reference: `amf.cpp:419`,
`amf.cpp:1282` and `amf.cpp:1296`. -/
def AMFParser.begin : List UInt8 → Turned
  | [] => .strays
  | marker :: data =>
    match AMFParsing.create marker.toNat with
    | some object => .goes object data
    | none => if marker = 0x07 ∨ marker = 0x10 then .strays else .throws

section

variable (begun : Turned)

/-- A turn of the loop of an object, `begun` being that of the value in it. Reference:
`amf.cpp:1030`. -/
def AMFObject.turn (key : StringParser) (marker : Bool) (properties : List (WString × AMFData))
    (order : List WString) (parser : Option AMFParsing) : List UInt8 → Turned
  | [] => .goes (.object key marker properties order parser) []
  | byte :: rest =>
    if ¬key.isParsed then
      .goes (.object (key.parse (byte :: rest)).1 marker properties order parser)
        ((byte :: rest).drop (key.parse (byte :: rest)).2)
    else if key.getUTF8Size = 0 then
      if byte ≠ 0x09 then .throws else .goes (.object key true properties order parser) rest
    else
      begun.within (AMFObject.put key properties order)

/-- A turn of the loop of an array. Reference: `amf.cpp:1341`. -/
def AMFEcmaArray.turn (num : NumberParser) (key : StringParser) (marker : Bool)
    (elements : List (WString × AMFData)) (parser : Option AMFParsing) : List UInt8 → Turned
  | [] => .goes (.ecmaArray num key marker elements parser) []
  | byte :: rest =>
    if ¬num.isParsed then
      .goes (.ecmaArray (num.parse (byte :: rest)).1 key marker elements parser)
        ((byte :: rest).drop (num.parse (byte :: rest)).2)
    else if ¬key.isParsed then
      .goes (.ecmaArray num (key.parse (byte :: rest)).1 marker elements parser)
        ((byte :: rest).drop (key.parse (byte :: rest)).2)
    else if key.getUTF8Size = 0 then
      if byte ≠ 0x09 then .throws else .goes (.ecmaArray num key true elements parser) rest
    else
      begun.within (AMFEcmaArray.put num key elements)

/-- A turn of the loop of a strict array. Reference: `amf.cpp:1579`. -/
def AMFStrictArray.turn (num : NumberParser) (elements : List AMFData)
    (parser : Option AMFParsing) : List UInt8 → Turned
  | [] => .goes (.strictArray num elements parser) []
  | byte :: rest =>
    if ¬num.isParsed then
      .goes (.strictArray (num.parse (byte :: rest)).1 elements parser)
        ((byte :: rest).drop (num.parse (byte :: rest)).2)
    else
      begun.within (AMFStrictArray.put num elements)

end

/-- A turn of the innermost loop of a value. -/
def AMFParsing.turn (data : List UInt8) : AMFParsing → Turned
  | number p => .goes (.number (p.parse data).1) (data.drop (p.parse data).2)
  | boolean value =>
    match data, value with
    | [], _ => .goes (.boolean value) []
    | _ :: _, some _ => .throws
    | b :: rest, none => .goes (.boolean (some (0 < b.toNat))) rest
  | string p => .goes (.string (p.parse data).1) (data.drop (p.parse data).2)
  | object key marker properties order none =>
    AMFObject.turn (AMFParser.begin data) key marker properties order none data
  | object key marker properties order (some parser) =>
    AMFObject.turn (parser.turn data) key marker properties order (some parser) data
  | empty value => .goes (.empty value) data
  | ecmaArray num key marker elements none =>
    AMFEcmaArray.turn (AMFParser.begin data) num key marker elements none data
  | ecmaArray num key marker elements (some parser) =>
    AMFEcmaArray.turn (parser.turn data) num key marker elements (some parser) data
  | strictArray num elements none =>
    AMFStrictArray.turn (AMFParser.begin data) num elements none data
  | strictArray num elements (some parser) =>
    AMFStrictArray.turn (parser.turn data) num elements (some parser) data
  | date value len =>
    .goes (AMFDate.parse value len data).1 (data.drop (AMFDate.parse value len data).2)
  | longString p => .goes (.longString (p.parse data).1) (data.drop (p.parse data).2)
  | xmlDocument p => .goes (.xmlDocument (p.parse data).1) (data.drop (p.parse data).2)

/-- A turn of the parser, which begins a value or goes on with it. Reference: `amf.cpp:412`. -/
def AMFParser.turn (object : Option AMFParsing) (data : List UInt8) : Turned :=
  match object with
  | none => AMFParser.begin data
  | some object => object.turn data

/-- There is no further turn: the data is taken, the value is complete, or the call does not
return. -/
def Turned.Final : Turned → Prop
  | goes object rest => rest = [] ∨ (object.finished rest).isSome
  | throws => True
  | strays => True

/-- One turn after the other, to a final one. -/
inductive Ends : Turned → Turned → Prop
  | final {T : Turned} (h : T.Final) : Ends T T
  | turn {object : AMFParsing} {rest : List UInt8} {T : Turned}
      (hgoes : ¬(Turned.goes object rest).Final) (h : Ends (object.turn rest) T) :
      Ends (.goes object rest) T

/-- Some turn of a call ends in an exception. -/
def Throws (object : Option AMFParsing) (data : List UInt8) : Prop :=
  Ends (AMFParser.turn object data) .throws

/-- Some turn of a call leaves the data or the memory: a call without data begins a value, a value
begins with the marker of a reference or of a typed object, or a value ends in a strict array that
has all its elements. -/
def Strays (object : Option AMFParsing) (data : List UInt8) : Prop :=
  Ends (AMFParser.turn object data) .strays

/-! ## The parsers of a call -/

/-- What a string parser keeps: it has not taken more than the size says, and nothing while the size
is missing. -/
def StringParser.Sound (p : StringParser) : Prop :=
  p.utf8parser.len ≤ p.utf8parser.utf8size ∧ (p.sizeParser.len ≠ 0 → p.utf8parser = {})

/-- A strict array misses elements, or has none and is to have none. -/
def HasRoom (num : NumberParser) (elements : List AMFData) : Prop :=
  elements.length < num.value ∨ elements = [] ∧ num.value = 0

/-- What the parsers inside of each other keep: a container is not complete, and there is a parser
in it only while it is at a value. -/
def AMFParsing.Sound : AMFParsing → Prop
  | string p => p.Sound
  | longString p => p.Sound
  | xmlDocument p => p.Sound
  | object key marker _ _ none => marker = false ∧ key.Sound
  | object key marker _ _ (some parser) =>
    marker = false ∧ key.Sound ∧ (key.isParsed ∧ key.getUTF8Size ≠ 0) ∧ parser.Sound
  | ecmaArray _ key marker _ none => marker = false ∧ key.Sound
  | ecmaArray num key marker _ (some parser) =>
    marker = false ∧ key.Sound ∧ (num.isParsed ∧ key.isParsed ∧ key.getUTF8Size ≠ 0) ∧ parser.Sound
  | strictArray num elements none =>
    (num.isParsed → HasRoom num elements) ∧ (num.isParsed = false → elements = [])
  | strictArray num elements (some parser) => HasRoom num elements ∧ num.isParsed ∧ parser.Sound
  | _ => True

namespace NumberParser

theorem parse_nil (p : NumberParser) : p.parse [] = (p, 0) := rfl

theorem parse_pos {p : NumberParser} {data : List UInt8} (hp : p.isParsed = false)
    (hdata : data ≠ []) : 0 < (p.parse data).2 := by
  obtain ⟨hlen, -, hall⟩ := p.len_parse data
  have hne : p.len ≠ 0 := of_decide_eq_false hp
  have hpos : 0 < data.length := List.length_pos_iff.2 hdata
  by_cases hzero : (p.parse data).1.len = 0
  · omega
  · rw [hall hzero]
    exact hpos

end NumberParser

namespace StringParser

theorem sound_new (size : NumberParser) : Sound { sizeParser := size } :=
  ⟨Nat.zero_le _, fun _ => rfl⟩

theorem parse_nil (p : StringParser) : p.parse [] = (p, 0) := by
  have hsize : p.parseSize [] = (p, 0) := by
    rw [parseSize, NumberParser.parse_nil]
    by_cases hparsed : p.sizeParser.isParsed
    · rw [if_pos hparsed]
    · simp only [if_neg hparsed]
  simp only [parse, hsize, List.drop_nil, if_true]

theorem parse_utf8 {p : UTF8Parser} (data : List UInt8) (h : p.len ≤ p.utf8size) :
    (p.parse data).2 ≤ data.length ∧ (p.parse data).1.len ≤ (p.parse data).1.utf8size ∧
      ((p.parse data).1.isParsed = false → (p.parse data).2 = data.length) ∧
      (p.isParsed = false → data ≠ [] → 0 < (p.parse data).2) := by
  have hfold := foldl_parseByte_len p (data.take (min (p.utf8size - p.len) data.length))
  simp only [UTF8Parser.parse, UTF8Parser.isParsed, decide_eq_false_iff_not, hfold.1, hfold.2]
  refine ⟨Nat.min_le_right _ _, by omega, fun hne => by omega, fun hne hdata => ?_⟩
  have hpos : 0 < data.length := List.length_pos_iff.2 hdata
  omega

theorem parseSize_spec {p : StringParser} (data : List UInt8) (h : p.Sound) :
    (p.parseSize data).2 ≤ data.length ∧ (p.parseSize data).1.Sound ∧
      ((p.parseSize data).1.sizeParser.len ≠ 0 → (p.parseSize data).2 = data.length) ∧
      (p.sizeParser.len ≠ 0 → data ≠ [] → 0 < (p.parseSize data).2) ∧
      (p.sizeParser.len = 0 → p.parseSize data = (p, 0)) := by
  rw [parseSize]
  by_cases hparsed : p.sizeParser.isParsed
  · have hlen : p.sizeParser.len = 0 := of_decide_eq_true hparsed
    rw [if_pos hparsed]
    exact ⟨Nat.zero_le _, h, fun hne => absurd hlen hne, fun hne => absurd hlen hne, fun _ => rfl⟩
  · have hlen : p.sizeParser.len ≠ 0 := by simpa [NumberParser.isParsed] using hparsed
    obtain ⟨-, hle, hall⟩ := p.sizeParser.len_parse data
    have hpos := @NumberParser.parse_pos _ data (Bool.eq_false_iff.2 hparsed)
    have hnew : p.utf8parser = {} := h.2 hlen
    simp only [if_neg hparsed]
    by_cases hdone : (p.sizeParser.parse data).1.isParsed
    · have hlen' : (p.sizeParser.parse data).1.len = 0 := of_decide_eq_true hdone
      rw [if_pos hdone, hnew]
      exact ⟨hle, ⟨Nat.zero_le _, fun hne => absurd hlen' hne⟩, fun hne => absurd hlen' hne,
        fun _ => hpos, fun hzero => absurd hzero hlen⟩
    · have hlen' : (p.sizeParser.parse data).1.len ≠ 0 := by
        simpa [NumberParser.isParsed] using hdone
      rw [if_neg hdone]
      exact ⟨hle, ⟨h.1, fun _ => hnew⟩, fun _ => hall hlen', fun _ => hpos,
        fun hzero => absurd hzero hlen⟩

/-- **A string** takes no more than the data, all of it when the string is not complete, and a byte
at least. -/
theorem parse_spec {p : StringParser} (data : List UInt8) (h : p.Sound) :
    (p.parse data).2 ≤ data.length ∧ (p.parse data).1.Sound ∧
      ((p.parse data).1.isParsed = false → (p.parse data).2 = data.length) ∧
      (p.isParsed = false → data ≠ [] → 0 < (p.parse data).2) := by
  obtain ⟨hle, hsound, hall, hpos, hsame⟩ := parseSize_spec data h
  simp only [parse]
  by_cases hrest : data.drop (p.parseSize data).2 = []
  · rw [if_pos hrest]
    have hlen : data.length ≤ (p.parseSize data).2 := List.drop_eq_nil_iff.1 hrest
    refine ⟨hle, hsound, fun _ => by omega, fun _ hdata => ?_⟩
    have hdata := List.length_pos_iff.2 hdata
    omega
  · rw [if_neg hrest]
    have hsize : (p.parseSize data).1.sizeParser.len = 0 := by
      by_contra hne
      exact hrest (List.drop_eq_nil_iff.2 (hall hne).ge)
    obtain ⟨hle', hsound', hall', hpos'⟩ :=
      parse_utf8 (data.drop (p.parseSize data).2) hsound.1
    rw [List.length_drop] at hle' hall'
    refine ⟨by simp only; omega, ⟨hsound', fun hne => absurd hsize hne⟩, fun hne => ?_,
      fun hnot hdata => ?_⟩
    · have := hall' hne
      simp only
      omega
    · by_cases hmissing : p.sizeParser.len = 0
      · rw [hsame hmissing] at hpos' ⊢
        have := hpos' hnot hdata
        simpa using this
      · have := hpos hmissing hdata
        simp only
        omega

end StringParser

/-! ## Values that go on -/

namespace AMFParsing

theorem finished_nil (object : AMFParsing) : object.finished [] = object.getObject := by
  unfold finished
  split
  · rw [if_neg (by simp)]
  · rfl

theorem getObject_of_finished {object : AMFParsing} {rest : List UInt8} {v : AMFData}
    (h : object.finished rest = some v) : object.getObject = some v := by
  unfold finished at h
  split at h
  · split_ifs at h
    exact h
  · exact h

theorem finished_of_final {object : AMFParsing} {rest : List UInt8}
    (h : (Turned.goes object rest).Final) : object.finished rest = object.getObject := by
  rcases h with rfl | h
  · exact finished_nil object
  · obtain ⟨v, hv⟩ := Option.isSome_iff_exists.1 h
    rw [hv, getObject_of_finished hv]

theorem finished_of_getObject {object : AMFParsing} {rest : List UInt8}
    (h : object.getObject = none) : object.finished rest = none := by
  cases hv : object.finished rest with
  | none => rfl
  | some v =>
    rw [getObject_of_finished hv] at h
    cases h

theorem not_final {object : AMFParsing} {rest : List UInt8} (hrest : rest ≠ [])
    (h : object.finished rest = none) : ¬(Turned.goes object rest).Final := by
  rintro (hnil | hv)
  · exact hrest hnil
  · rw [h] at hv
    cases hv

theorem turn_nil (object : AMFParsing) : object.turn [] = .goes object [] := by
  cases object with
  | number p => rfl
  | boolean value => rfl
  | string p | longString p | xmlDocument p =>
    simp only [turn, StringParser.parse_nil, List.drop_nil]
  | object key marker properties order parser => cases parser <;> rfl
  | empty value => rfl
  | ecmaArray num key marker elements parser => cases parser <;> rfl
  | strictArray num elements parser => cases parser <;> rfl
  | date value len => simp [turn, AMFDate.parse]

theorem turn_object (key : StringParser) (marker : Bool) (properties : List (WString × AMFData))
    (order : List WString) (parser : Option AMFParsing) (data : List UInt8) :
    (object key marker properties order parser).turn data =
      AMFObject.turn (AMFParser.turn parser data) key marker properties order parser data := by
  cases parser <;> rfl

theorem turn_ecmaArray (num : NumberParser) (key : StringParser) (marker : Bool)
    (elements : List (WString × AMFData)) (parser : Option AMFParsing) (data : List UInt8) :
    (ecmaArray num key marker elements parser).turn data =
      AMFEcmaArray.turn (AMFParser.turn parser data) num key marker elements parser data := by
  cases parser <;> rfl

theorem turn_strictArray (num : NumberParser) (elements : List AMFData)
    (parser : Option AMFParsing) (data : List UInt8) :
    (strictArray num elements parser).turn data =
      AMFStrictArray.turn (AMFParser.turn parser data) num elements parser data := by
  cases parser <;> rfl

end AMFParsing

namespace Ends

variable {C T T' : Turned} {object : AMFParsing} {rest : List UInt8}

theorem isFinal (h : Ends C T) : T.Final := by
  induction h with
  | final h => exact h
  | turn _ _ ih => exact ih

theorem unique (h : Ends C T) (h' : Ends C T') : T = T' := by
  induction h with
  | final hfinal =>
    cases h' with
    | final => rfl
    | turn hgoes => exact absurd hfinal hgoes
  | turn hgoes _ ih =>
    cases h' with
    | final hfinal => exact absurd hfinal hgoes
    | turn _ h' => exact ih h'

theorem goOn (hobject : object.finished rest = none) (h : Ends (object.turn rest) T) :
    Ends (.goes object rest) T := by
  by_cases hrest : rest = []
  · subst hrest
    rwa [AMFParsing.turn_nil] at h
  · exact .turn (AMFParsing.not_final hrest hobject) h

/-- **The turns of a value in a container are turns of the container**, `put` being what the
container does after a turn of the value in it and `hold` the container that holds it. -/
theorem within {put : AMFParsing → List UInt8 → Turned} {hold : AMFParsing → AMFParsing}
    (hput : ∀ value rest, value.finished rest = none → put value rest = .goes (hold value) rest)
    (hhold : ∀ value rest, rest ≠ [] → (hold value).finished rest = none ∧
      (hold value).turn rest = (value.turn rest).within put)
    (h : Ends C T) (h' : Ends (T.within put) T') : Ends (C.within put) T' := by
  induction h with
  | final => exact h'
  | @turn object rest T hgoes _ ih =>
    have hrest : rest ≠ [] := fun hnil => hgoes (.inl hnil)
    have hobject : object.finished rest = none := by
      by_contra hsome
      exact hgoes (.inr (Option.ne_none_iff_isSome.1 hsome))
    obtain ⟨hfinished, hturn⟩ := hhold object rest hrest
    rw [Turned.within, hput object rest hobject]
    refine .turn (AMFParsing.not_final hrest hfinished) ?_
    rw [hturn]
    exact ih h'

end Ends

/-! ## The turns are those of the parser -/

/-- What a call returns is what its turns come to: the value with what has been taken, which is all
data unless the value is complete, or nothing. -/
def Fits (r : Option (AMFParsing × Nat)) (data : List UInt8) : Turned → Prop
  | .goes object rest => ∃ n, r = some (object, n) ∧ n ≤ data.length ∧ rest = data.drop n ∧
    (object.getObject = none → n = data.length ∧ object.Sound)
  | _ => r = none

/-- A call does the turns that begin with `C`. -/
def Agrees (r : Option (AMFParsing × Nat)) (data : List UInt8) (C : Turned) : Prop :=
  ∃ T, Ends C T ∧ Fits r data T

namespace Agrees

variable {r : Option (AMFParsing × Nat)} {data : List UInt8} {C : Turned} {object : AMFParsing}
  {n : Nat}

theorem returned (hn : n ≤ data.length)
    (hfinished : object.finished (data.drop n) = object.getObject)
    (hobject : object.getObject = none → n = data.length ∧ object.Sound) :
    Agrees (some (object, n)) data (.goes object (data.drop n)) := by
  refine ⟨_, .final ?_, n, rfl, hn, rfl, hobject⟩
  cases hv : object.getObject with
  | none => exact .inl (List.drop_eq_nil_iff.2 (hobject hv).1.ge)
  | some v =>
    right
    rw [hfinished, hv]
    rfl

theorem threw : Agrees none data .throws := ⟨_, .final trivial, rfl⟩

theorem strayed : Agrees none data .strays := ⟨_, .final trivial, rfl⟩

theorem rest (hn : n ≤ data.length) (h : Agrees r (data.drop n) C) :
    Agrees (r.map fun r => (r.1, n + r.2)) data C := by
  obtain ⟨T, hends, hfits⟩ := h
  refine ⟨T, hends, ?_⟩
  cases T with
  | goes object rest =>
    obtain ⟨m, rfl, hm, rfl, hobject⟩ := hfits
    rw [List.length_drop] at hm hobject
    refine ⟨n + m, rfl, by omega, List.drop_drop, fun hv => ⟨?_, (hobject hv).2⟩⟩
    have := (hobject hv).1
    omega
  | throws | strays =>
    obtain rfl : r = none := hfits
    rfl

theorem goOn (hn : n ≤ data.length) (hobject : object.finished (data.drop n) = none)
    (h : Agrees r (data.drop n) (object.turn (data.drop n))) :
    Agrees (r.map fun r => (r.1, n + r.2)) data (.goes object (data.drop n)) := by
  obtain ⟨T, hends, hfits⟩ := h
  exact rest hn ⟨T, hends.goOn hobject, hfits⟩

/-- **The turns of a value in a container.** The container goes on with the value when it is
complete, and holds it otherwise. -/
theorem within {r' : Option (AMFParsing × Nat)} {put : AMFParsing → List UInt8 → Turned}
    (h : Agrees r data C) (hold : AMFParsing → AMFParsing)
    (hput : ∀ value rest, value.finished rest = none → put value rest = .goes (hold value) rest)
    (hhold : ∀ value rest, rest ≠ [] → (hold value).finished rest = none ∧
      (hold value).turn rest = (value.turn rest).within put)
    (hfail : r = none → r' = none)
    (hpart : ∀ value, r = some (value, data.length) → value.getObject = none → value.Sound →
      Agrees r' data (.goes (hold value) []))
    (hvalue : ∀ value n v, r = some (value, n) → n ≤ data.length → value.getObject = some v →
      value.finished (data.drop n) = some v → Agrees r' data (put value (data.drop n))) :
    Agrees r' data (C.within put) := by
  obtain ⟨T, hends, hfits⟩ := h
  cases T with
  | throws => exact ⟨.throws, hends.within hput hhold (.final trivial), hfail hfits⟩
  | strays => exact ⟨.strays, hends.within hput hhold (.final trivial), hfail hfits⟩
  | goes value rest =>
    obtain ⟨n, hr, hn, rfl, hobject⟩ := hfits
    have hfinished := AMFParsing.finished_of_final hends.isFinal
    have hrest : Agrees r' data (put value (data.drop n)) := by
      cases hv : value.getObject with
      | none =>
        obtain ⟨rfl, hsound⟩ := hobject hv
        rw [List.drop_length, hput value [] (by rw [AMFParsing.finished_nil, hv])]
        exact hpart value hr hv hsound
      | some v => exact hvalue value n v hr hn hv (hfinished.trans hv)
    obtain ⟨T', hends', hfits'⟩ := hrest
    exact ⟨T', hends.within hput hhold hends', hfits'⟩

end Agrees

/-- How many turns a call takes at most, with the calls of parsers inside of each other. -/
def turnsOf (object : Option AMFParsing) (data : List UInt8) : Nat :=
  match object with
  | none => 4 * data.length
  | some object => 4 * (data.length + object.depth) + 3

/-- How many values are open in a container. -/
def inner (parser : Option AMFParsing) : Nat :=
  match parser with
  | none => 0
  | some parser => parser.depth + 1

theorem AMFParsing.depth_object (key : StringParser) (marker : Bool)
    (properties : List (WString × AMFData)) (order : List WString) (parser : Option AMFParsing) :
    (object key marker properties order parser).depth = inner parser := by
  cases parser <;> rfl

theorem AMFParsing.depth_ecmaArray (num : NumberParser) (key : StringParser) (marker : Bool)
    (elements : List (WString × AMFData)) (parser : Option AMFParsing) :
    (ecmaArray num key marker elements parser).depth = inner parser := by
  cases parser <;> rfl

theorem AMFParsing.depth_strictArray (num : NumberParser) (elements : List AMFData)
    (parser : Option AMFParsing) : (strictArray num elements parser).depth = inner parser := by
  cases parser <;> rfl

theorem turnsOf_le {fuel : Nat} {parser : Option AMFParsing} {data : List UInt8}
    (hfuel : 4 * (data.length + inner parser) + 1 ≤ fuel + 1) : turnsOf parser data ≤ fuel := by
  cases parser with
  | none =>
    simp only [turnsOf, inner] at hfuel ⊢
    omega
  | some parser =>
    simp only [turnsOf, inner] at hfuel ⊢
    omega

theorem turns_value {fuel n : Nat} {parser : Option AMFParsing} {data : List UInt8}
    {value : AMFParsing} (hfuel : 4 * (data.length + inner parser) + 1 ≤ fuel + 1)
    (hn : n ≤ data.length) (h : AMFParser.parse fuel parser data = some (value, n)) :
    4 * ((data.drop n).length + 0) + 1 ≤ fuel := by
  rw [List.length_drop]
  cases parser with
  | some parser =>
    simp only [inner] at hfuel
    omega
  | none =>
    simp only [inner] at hfuel
    have hpos : 0 < n := by
      cases fuel with
      | zero => cases h
      | succ fuel =>
        cases data with
        | nil => cases h
        | cons marker data =>
          simp only [AMFParser.parse, Option.bind_eq_bind, Option.bind_eq_some_iff, pure,
            Option.some.injEq, Prod.mk.injEq, Prod.exists] at h
          obtain ⟨_, _, _, m, _, _, rfl⟩ := h
          exact Nat.succ_pos m
    omega

/-- A value that is begun, or goes on. -/
def SoundBy (object : Option AMFParsing) : Prop :=
  ∀ value, object = some value → value.Sound

theorem soundBy_none : SoundBy none := by
  rintro value ⟨⟩

/-- The calls with this fuel do their turns. -/
structure CallsEnd (fuel : Nat) : Prop where
  parser : ∀ {parser data}, SoundBy parser → turnsOf parser data ≤ fuel →
    Agrees (AMFParser.parse fuel parser data) data (AMFParser.turn parser data)
  data : ∀ {object : AMFParsing} {data}, object.Sound →
    4 * (data.length + object.depth) + 2 ≤ fuel →
    Agrees (AMFData.parse fuel object data) data (object.turn data)
  object : ∀ {key properties order parser data},
    (AMFParsing.object key false properties order parser).Sound →
    4 * (data.length + (AMFParsing.object key false properties order parser).depth) + 1 ≤ fuel →
    Agrees (AMFObject.parse fuel key false properties order parser data) data
      ((AMFParsing.object key false properties order parser).turn data)
  array : ∀ {num key elements parser data},
    (AMFParsing.ecmaArray num key false elements parser).Sound →
    4 * (data.length + (AMFParsing.ecmaArray num key false elements parser).depth) + 1 ≤ fuel →
    Agrees (AMFEcmaArray.parse fuel num key false elements parser data) data
      ((AMFParsing.ecmaArray num key false elements parser).turn data)
  strictArray : ∀ {num elements parser data},
    (AMFParsing.strictArray num elements parser).Sound →
    4 * (data.length + (AMFParsing.strictArray num elements parser).depth) + 1 ≤ fuel →
    Agrees (AMFStrictArray.parse fuel num elements parser data) data
      ((AMFParsing.strictArray num elements parser).turn data)

section Calls

variable {fuel : Nat} (ih : CallsEnd fuel) {data : List UInt8} {key : StringParser}
  {properties : List (WString × AMFData)} {order : List WString} {parser : Option AMFParsing}
  {num : NumberParser} {elements : List AMFData}

open AMFParsing Agrees

theorem begun_spec {m : Nat} {object : AMFParsing} (h : create m = some object) :
    (∃ value, object = .empty value) ∨
      object.Sound ∧ object.depth = 0 ∧ ∀ rest, object.finished rest = none := by
  unfold create at h
  split at h
  case h_5 | h_6 | h_7 | h_12 | h_13 =>
    cases h
    exact .inl ⟨_, rfl⟩
  case h_15 => cases h
  case h_9 =>
    cases h
    exact .inr ⟨⟨nofun, fun _ => rfl⟩, rfl, fun rest => finished_of_getObject rfl⟩
  case h_4 | h_8 =>
    cases h
    exact .inr ⟨⟨rfl, StringParser.sound_new _⟩, rfl, fun rest => finished_of_getObject rfl⟩
  case h_3 | h_11 | h_14 =>
    cases h
    exact .inr ⟨StringParser.sound_new _, rfl, fun rest => finished_of_getObject rfl⟩
  all_goals
    cases h
    exact .inr ⟨trivial, rfl, fun rest => finished_of_getObject rfl⟩

theorem not_isParsed {parsed : Bool} {v : AMFData} (h : (if parsed then some v else none) = none) :
    parsed = false := by
  cases parsed with
  | false => rfl
  | true => cases h

include ih

theorem parser_agrees (hparser : SoundBy parser) (hfuel : turnsOf parser data ≤ fuel + 1) :
    Agrees (AMFParser.parse (fuel + 1) parser data) data (AMFParser.turn parser data) := by
  cases parser with
  | some object =>
    simp only [turnsOf] at hfuel
    exact ih.data (hparser object rfl) (by omega)
  | none =>
    cases data with
    | nil => exact .strayed
    | cons marker data =>
      simp only [turnsOf, List.length_cons] at hfuel
      simp only [AMFParser.parse, AMFParser.turn, AMFParser.begin]
      cases hcreate : create marker.toNat with
      | none =>
        simp only
        split_ifs
        · exact .strayed
        · exact .threw
      | some object =>
        have hmap : AMFParser.parse (fuel + 1) none (marker :: data) =
            (AMFData.parse fuel object data).map fun r => (r.1, 1 + r.2) := by
          simp only [AMFParser.parse, hcreate, Option.bind_eq_bind, Option.bind_some,
            Nat.add_comm 1]
          cases AMFData.parse fuel object data <;> rfl
        simp only [AMFParser.parse, hcreate] at hmap
        rw [hmap]
        have hone : 1 ≤ (marker :: data).length := by simp
        rcases begun_spec hcreate with ⟨value, rfl⟩ | ⟨hsound, hdepth, hfinished⟩
        · obtain ⟨fuel, rfl⟩ : ∃ f, fuel = f + 1 := ⟨fuel - 1, by omega⟩
          exact returned hone rfl fun hv => absurd hv (Option.some_ne_none _)
        · exact goOn hone (hfinished _) (ih.data hsound (by omega))

theorem data_agrees {object : AMFParsing} (hobject : object.Sound)
    (hfuel : 4 * (data.length + object.depth) + 2 ≤ fuel + 1) :
    Agrees (AMFData.parse (fuel + 1) object data) data (object.turn data) := by
  cases object with
  | number p =>
    obtain ⟨-, hle, hall⟩ := p.len_parse data
    refine returned hle rfl fun hv => ⟨hall ?_, trivial⟩
    simpa [getObject, NumberParser.isParsed] using hv
  | boolean value =>
    cases data with
    | nil => exact @returned [] (.boolean value) 0 le_rfl rfl fun _ => ⟨rfl, trivial⟩
    | cons b rest =>
      cases value with
      | some value => exact .threw
      | none =>
        exact @returned (b :: rest) (.boolean (some (0 < b.toNat))) 1 (by simp) rfl
          fun hv => absurd hv (Option.some_ne_none _)
  | string p =>
    obtain ⟨hle, hsound, hall, -⟩ := p.parse_spec data hobject
    exact @returned data (.string (p.parse data).1) (p.parse data).2 hle rfl
      fun hv => ⟨hall (not_isParsed hv), hsound⟩
  | longString p =>
    obtain ⟨hle, hsound, hall, -⟩ := p.parse_spec data hobject
    exact @returned data (.longString (p.parse data).1) (p.parse data).2 hle rfl
      fun hv => ⟨hall (not_isParsed hv), hsound⟩
  | xmlDocument p =>
    obtain ⟨hle, hsound, hall, -⟩ := p.parse_spec data hobject
    exact @returned data (.xmlDocument (p.parse data).1) (p.parse data).2 hle rfl
      fun hv => ⟨hall (not_isParsed hv), hsound⟩
  | object key marker properties order parser =>
    have hmarker : marker = false := by
      cases parser with
      | none => exact hobject.1
      | some parser => exact hobject.1
    subst hmarker
    exact ih.object hobject (by omega)
  | empty value =>
    exact @returned data (.empty value) 0 (Nat.zero_le _) rfl
      fun hv => absurd hv (Option.some_ne_none _)
  | ecmaArray num key marker elements parser =>
    have hmarker : marker = false := by
      cases parser with
      | none => exact hobject.1
      | some parser => exact hobject.1
    subst hmarker
    exact ih.array hobject (by omega)
  | strictArray num elements parser => exact ih.strictArray hobject (by omega)
  | date value len =>
    refine returned (Nat.min_le_right _ _) rfl fun hv => ⟨?_, trivial⟩
    by_contra hne
    have hlt : min (8 - len) data.length < data.length := by
      have := Nat.min_le_right (8 - len) data.length
      exact Nat.lt_of_le_of_ne this hne
    simp [getObject, hlt] at hv

theorem object_agrees (hobject : (object key false properties order parser).Sound)
    (hfuel : 4 * (data.length + (object key false properties order parser).depth) + 1 ≤ fuel + 1) :
    Agrees (AMFObject.parse (fuel + 1) key false properties order parser data) data
      ((object key false properties order parser).turn data) := by
  cases data with
  | nil =>
    rw [turn_nil]
    exact @returned [] (object key false properties order parser) 0 le_rfl rfl
      fun _ => ⟨rfl, hobject⟩
  | cons byte rest =>
    have hdata : byte :: rest ≠ [] := List.cons_ne_nil byte rest
    have hlength : 0 < (byte :: rest).length := Nat.succ_pos _
    have hkeySound : key.Sound := by
      cases parser with
      | none => exact hobject.2
      | some parser => exact hobject.2.1
    obtain ⟨hle, hsound, -, hpos⟩ := key.parse_spec (byte :: rest) hkeySound
    rw [turn_object]
    by_cases hkey : key.isParsed
    · by_cases hsize : key.getUTF8Size = 0
      · by_cases hbyte : byte = 0x09
        · subst hbyte
          rw [AMFObject.parse_end rest hkey hsize]
          simp only [AMFObject.turn, hkey, hsize, not_true_eq_false, if_false, if_true, ne_eq]
          exact @returned (0x09 :: rest) (object key true properties order parser) 1 hlength rfl
            nofun
        · simp only [AMFObject.parse, AMFObject.turn, hkey, hsize, hbyte, not_true_eq_false,
            if_false, if_true, ne_eq, not_false_eq_true]
          exact .threw
      · have hparser : Agrees (AMFParser.parse fuel parser (byte :: rest)) (byte :: rest)
            (AMFParser.turn parser (byte :: rest)) := by
          refine ih.parser ?_ ?_
          · rintro value rfl
            exact hobject.2.2.2
          · rw [depth_object] at hfuel
            exact turnsOf_le hfuel
        simp only [AMFObject.turn, hkey, hsize, not_true_eq_false, if_false]
        refine hparser.within (fun value => object key false properties order (some value))
          ?_ ?_ ?_ ?_ ?_
        · intro value rest hv
          rw [AMFObject.put, hv]
        · intro value rest hrest
          obtain ⟨byte, rest, rfl⟩ := List.exists_cons_of_ne_nil hrest
          refine ⟨rfl, ?_⟩
          simp only [turn, AMFObject.turn, hkey, hsize, not_true_eq_false, if_false]
        · intro hnone
          simp only [AMFObject.parse, hkey, hsize, hnone, not_true_eq_false, if_false]
          rfl
        · intro value hsome hv hvalue
          obtain ⟨fuel, rfl⟩ : ∃ f, fuel = f + 1 := ⟨fuel - 1, by omega⟩
          simp only [AMFObject.parse, hkey, hsize, hsome, hv, not_true_eq_false, if_false,
            Option.bind_eq_bind, Option.bind_some, List.drop_length]
          have h := @returned (byte :: rest) (object key false properties order (some value))
            (byte :: rest).length le_rfl rfl fun _ => ⟨rfl, rfl, hkeySound, ⟨hkey, hsize⟩, hvalue⟩
          rwa [List.drop_length] at h
        · intro value n v hsome hn hv hfinished
          rw [depth_object] at hfuel
          rw [AMFObject.parse_value hdata hkey hsize hsome hv, AMFObject.put, hfinished]
          exact goOn hn (finished_of_getObject rfl)
            (ih.object ⟨rfl, StringParser.sound_new _⟩ (turns_value hfuel hn hsome))
    · rw [AMFObject.parse_key hdata (Bool.eq_false_iff.2 hkey) (Prod.eta _).symm]
      have hparser : parser = none := by
        cases parser with
        | none => rfl
        | some parser => exact absurd hobject.2.2.1.1 hkey
      subst hparser
      simp only [AMFObject.turn, hkey, Bool.false_eq_true, not_false_eq_true, if_true]
      refine goOn hle (finished_of_getObject rfl) (ih.object ⟨rfl, hsound⟩ ?_)
      have := hpos (Bool.eq_false_iff.2 hkey) hdata
      rw [List.length_drop]
      simp only [depth_object, inner] at hfuel ⊢
      omega

theorem array_agrees {elements : List (WString × AMFData)}
    (hobject : (ecmaArray num key false elements parser).Sound)
    (hfuel : 4 * (data.length + (ecmaArray num key false elements parser).depth) + 1 ≤ fuel + 1) :
    Agrees (AMFEcmaArray.parse (fuel + 1) num key false elements parser data) data
      ((ecmaArray num key false elements parser).turn data) := by
  rw [depth_ecmaArray] at hfuel
  cases data with
  | nil =>
    rw [turn_nil]
    exact @returned [] (ecmaArray num key false elements parser) 0 le_rfl (finished_nil _)
      fun _ => ⟨rfl, hobject⟩
  | cons byte rest =>
    have hdata : byte :: rest ≠ [] := List.cons_ne_nil byte rest
    have hlength : 0 < (byte :: rest).length := Nat.succ_pos _
    have hkeySound : key.Sound := by
      cases parser with
      | none => exact hobject.2
      | some parser => exact hobject.2.1
    have hmarker (num : NumberParser) (key : StringParser) (parser : Option AMFParsing)
        (rest : List UInt8) : (ecmaArray num key false elements parser).finished rest = none :=
      finished_of_getObject (by simp [getObject])
    rw [turn_ecmaArray]
    by_cases hnum : num.isParsed
    · by_cases hkey : key.isParsed
      · by_cases hsize : key.getUTF8Size = 0
        · by_cases hbyte : byte = 0x09
          · subst hbyte
            rw [AMFEcmaArray.parse_end rest hnum hkey hsize]
            simp only [AMFEcmaArray.turn, hnum, hkey, hsize, not_true_eq_false, if_false, if_true,
              ne_eq]
            refine @returned (0x09 :: rest) (ecmaArray num key true elements parser) 1 hlength rfl
              fun hv => ?_
            simp [getObject, hnum] at hv
          · simp only [AMFEcmaArray.parse, AMFEcmaArray.turn, hnum, hkey, hsize, hbyte,
              not_true_eq_false, if_false, if_true, ne_eq, not_false_eq_true, Bool.false_eq_true,
              and_false]
            exact .threw
        · have hparser : Agrees (AMFParser.parse fuel parser (byte :: rest)) (byte :: rest)
              (AMFParser.turn parser (byte :: rest)) := by
            refine ih.parser ?_ (turnsOf_le hfuel)
            rintro value rfl
            exact hobject.2.2.2
          simp only [AMFEcmaArray.turn, hnum, hkey, hsize, not_true_eq_false, if_false]
          refine hparser.within (fun value => ecmaArray num key false elements (some value))
            ?_ ?_ ?_ ?_ ?_
          · intro value rest hv
            rw [AMFEcmaArray.put, hv]
          · intro value rest hrest
            obtain ⟨byte, rest, rfl⟩ := List.exists_cons_of_ne_nil hrest
            refine ⟨hmarker _ _ _ _, ?_⟩
            simp only [turn, AMFEcmaArray.turn, hnum, hkey, hsize, not_true_eq_false, if_false]
          · intro hnone
            simp only [AMFEcmaArray.parse, hnum, hkey, hsize, hnone, not_true_eq_false, if_false,
              Bool.false_eq_true, and_false]
            rfl
          · intro value hsome hv hvalue
            obtain ⟨fuel, rfl⟩ : ∃ f, fuel = f + 1 := ⟨fuel - 1, by omega⟩
            simp only [AMFEcmaArray.parse, hnum, hkey, hsize, hsome, hv, not_true_eq_false,
              if_false, Bool.false_eq_true, and_false, Option.bind_eq_bind, Option.bind_some,
              List.drop_length]
            have h := @returned (byte :: rest) (ecmaArray num key false elements (some value))
              (byte :: rest).length le_rfl rfl
              fun _ => ⟨rfl, rfl, hkeySound, ⟨hnum, hkey, hsize⟩, hvalue⟩
            rwa [List.drop_length] at h
          · intro value n v hsome hn hv hfinished
            rw [AMFEcmaArray.parse_value hdata hnum hkey hsize hsome hv, AMFEcmaArray.put,
              hfinished]
            exact goOn hn (finished_of_getObject (by simp [getObject]))
              (ih.array ⟨rfl, StringParser.sound_new _⟩ (turns_value hfuel hn hsome))
      · obtain ⟨hle, hsound, -, hpos⟩ := key.parse_spec (byte :: rest) hkeySound
        rw [AMFEcmaArray.parse_key hdata hnum (Bool.eq_false_iff.2 hkey) (Prod.eta _).symm]
        have hparser : parser = none := by
          cases parser with
          | none => rfl
          | some parser => exact absurd hobject.2.2.1.2.1 hkey
        subst hparser
        simp only [AMFEcmaArray.turn, hnum, hkey, Bool.false_eq_true, not_false_eq_true, if_true,
          not_true_eq_false, if_false]
        refine goOn hle (hmarker _ _ _ _) (ih.array ⟨rfl, hsound⟩ ?_)
        have := hpos (Bool.eq_false_iff.2 hkey) hdata
        rw [List.length_drop]
        simp only [depth_ecmaArray, inner] at hfuel ⊢
        omega
    · obtain ⟨-, hle, -⟩ := num.len_parse (byte :: rest)
      have hpos := NumberParser.parse_pos (Bool.eq_false_iff.2 hnum) hdata
      rw [AMFEcmaArray.parse_num hdata (Bool.eq_false_iff.2 hnum) (Prod.eta _).symm]
      have hparser : parser = none := by
        cases parser with
        | none => rfl
        | some parser => exact absurd hobject.2.2.1.1 hnum
      subst hparser
      simp only [AMFEcmaArray.turn, hnum, Bool.false_eq_true, not_false_eq_true, if_true]
      refine goOn hle (hmarker _ _ _ _) (ih.array ⟨rfl, hkeySound⟩ ?_)
      rw [List.length_drop]
      simp only [depth_ecmaArray, inner] at hfuel ⊢
      omega

omit ih in
theorem HasRoom.finished {rest : List UInt8} (h : HasRoom num elements)
    (hrest : rest ≠ [] ∨ elements.length < num.value) :
    (strictArray num elements parser).finished rest = none := by
  by_cases hlt : elements.length < num.value
  · refine finished_of_getObject ?_
    rw [getObject, if_neg fun hfull => ?_]
    exact hlt.ne hfull.2
  · obtain ⟨rfl, hzero⟩ := h.resolve_left hlt
    rw [AMFParsing.finished, if_pos ⟨hzero, hrest.resolve_right hlt⟩]

omit ih in
theorem finished_append {v : AMFData} (rest : List UInt8) :
    (strictArray num (elements ++ [v]) parser).finished rest =
      (strictArray num (elements ++ [v]) parser).getObject := by
  cases elements <;> rfl

theorem strictArray_agrees (hobject : (strictArray num elements parser).Sound)
    (hfuel : 4 * (data.length + (strictArray num elements parser).depth) + 1 ≤ fuel + 1) :
    Agrees (AMFStrictArray.parse (fuel + 1) num elements parser data) data
      ((strictArray num elements parser).turn data) := by
  rw [depth_strictArray] at hfuel
  cases data with
  | nil =>
    rw [turn_nil]
    exact @returned [] (strictArray num elements parser) 0 le_rfl (finished_nil _)
      fun _ => ⟨rfl, hobject⟩
  | cons byte rest =>
    have hdata : byte :: rest ≠ [] := List.cons_ne_nil byte rest
    have hlength : 0 < (byte :: rest).length := Nat.succ_pos _
    rw [turn_strictArray]
    by_cases hnum : num.isParsed
    · have hroom : HasRoom num elements := by
        cases parser with
        | none => exact hobject.1 hnum
        | some parser => exact hobject.1
      have hparser : Agrees (AMFParser.parse fuel parser (byte :: rest)) (byte :: rest)
          (AMFParser.turn parser (byte :: rest)) := by
        refine ih.parser ?_ (turnsOf_le hfuel)
        rintro value rfl
        exact hobject.2.2
      simp only [AMFStrictArray.turn, hnum, not_true_eq_false, if_false]
      refine hparser.within (fun value => strictArray num elements (some value))
        ?_ ?_ ?_ ?_ ?_
      · intro value rest hv
        rw [AMFStrictArray.put, hv]
      · intro value rest hrest
        obtain ⟨byte, rest, rfl⟩ := List.exists_cons_of_ne_nil hrest
        refine ⟨hroom.finished (.inl hrest), ?_⟩
        simp only [turn, AMFStrictArray.turn, hnum, not_true_eq_false, if_false]
      · intro hnone
        simp only [AMFStrictArray.parse, hnum, hnone, not_true_eq_false, if_false]
        rfl
      · intro value hsome hv hvalue
        obtain ⟨fuel, rfl⟩ : ∃ f, fuel = f + 1 := ⟨fuel - 1, by omega⟩
        simp only [AMFStrictArray.parse, hnum, hsome, hv, not_true_eq_false, if_false,
          Option.bind_eq_bind, Option.bind_some, List.drop_length]
        have h := @returned (byte :: rest) (strictArray num elements (some value))
          (byte :: rest).length le_rfl (by rw [List.drop_length, finished_nil])
          fun _ => ⟨rfl, hroom, hnum, hvalue⟩
        rwa [List.drop_length] at h
      · intro value n v hsome hn hv hfinished
        simp only [AMFStrictArray.parse, hnum, hsome, hv, not_true_eq_false, if_false,
          Option.bind_eq_bind, Option.bind_some, AMFStrictArray.put, hfinished]
        by_cases hfull : num.value ≤ elements.length
        · rw [if_pos hfull, if_pos hfull]
          exact .strayed
        · rw [if_neg hfull, if_neg hfull]
          by_cases hlast : elements.length + 1 = num.value
          · rw [if_pos hlast]
            refine returned hn (finished_append _) fun hnone => ?_
            simp [getObject, hnum, hlast] at hnone
          · rw [if_neg hlast]
            have hlt : (elements ++ [v]).length < num.value := by
              rw [List.length_append, List.length_singleton]
              omega
            have hsound : (strictArray num (elements ++ [v]) none).Sound :=
              ⟨fun _ => .inl hlt, fun hnot => absurd hnum (Bool.eq_false_iff.1 hnot)⟩
            have h := goOn hn (HasRoom.finished (.inl hlt) (.inr hlt))
              (ih.strictArray hsound (turns_value hfuel hn hsome))
            revert h
            cases AMFStrictArray.parse fuel num (elements ++ [v]) none
              ((byte :: rest).drop n) <;> exact id
    · obtain ⟨-, hle, -⟩ := num.len_parse (byte :: rest)
      have hpos := NumberParser.parse_pos (Bool.eq_false_iff.2 hnum) hdata
      have hparser : parser = none := by
        cases parser with
        | none => rfl
        | some parser => exact absurd hobject.2.1 hnum
      subst hparser
      obtain rfl : elements = [] := hobject.2 (Bool.eq_false_iff.2 hnum)
      have hsound (num : NumberParser) : (strictArray num [] none).Sound :=
        ⟨fun _ => (Nat.eq_zero_or_pos num.value).symm.imp_right fun hzero => ⟨rfl, hzero⟩,
          fun _ => rfl⟩
      have hmap : AMFStrictArray.parse (fuel + 1) num [] none (byte :: rest) =
          (AMFStrictArray.parse fuel (num.parse (byte :: rest)).1 [] none
            ((byte :: rest).drop (num.parse (byte :: rest)).2)).map
              fun r => (r.1, (num.parse (byte :: rest)).2 + r.2) := by
        simp only [AMFStrictArray.parse, hnum, Bool.false_eq_true, not_false_eq_true, if_true]
        cases AMFStrictArray.parse fuel (num.parse (byte :: rest)).1 [] none
          ((byte :: rest).drop (num.parse (byte :: rest)).2) <;> rfl
      rw [hmap]
      simp only [AMFStrictArray.turn, hnum, Bool.false_eq_true, not_false_eq_true, if_true]
      have hturns : 4 * (((byte :: rest).drop (num.parse (byte :: rest)).2).length +
          (strictArray (num.parse (byte :: rest)).1 [] none).depth) + 1 ≤ fuel := by
        rw [List.length_drop]
        simp only [depth_strictArray, inner] at hfuel ⊢
        omega
      have hloop := ih.strictArray (hsound (num.parse (byte :: rest)).1) hturns
      by_cases hrest : (byte :: rest).drop (num.parse (byte :: rest)).2 = []
      · rw [hrest, turn_nil] at hloop
        rw [hrest]
        rw [← hrest] at hloop
        have h := Agrees.rest hle hloop
        rwa [hrest] at h
      · refine goOn hle ?_ hloop
        by_cases hparsed : (num.parse (byte :: rest)).1.isParsed
        · exact ((hsound _).1 hparsed).finished (.inl hrest)
        · exact finished_of_getObject (by simp [getObject, hparsed])

end Calls

/-- **A call does its turns.** By induction on the fuel. -/
theorem callsEnd (fuel : Nat) : CallsEnd fuel := by
  induction fuel with
  | zero =>
    refine ⟨fun {parser data} _ hfuel => ?_, fun _ hfuel => by omega, fun _ hfuel => by omega,
      fun _ hfuel => by omega, fun _ hfuel => by omega⟩
    cases parser with
    | some object =>
      simp only [turnsOf] at hfuel
      omega
    | none =>
      simp only [turnsOf] at hfuel
      obtain rfl : data = [] := List.length_eq_zero_iff.1 (by omega)
      exact .strayed
  | succ fuel ih =>
    exact ⟨parser_agrees ih, data_agrees ih, object_agrees ih, array_agrees ih,
      strictArray_agrees ih⟩

/-- One call of `Parse`. -/
theorem parseData_agrees {object : Option AMFParsing} (h : SoundBy object) (data : List UInt8) :
    Agrees (AMFParser.parseData object data) data (AMFParser.turn object data) := by
  refine (callsEnd _).parser h ?_
  cases object with
  | none =>
    simp only [turnsOf, Option.map_none, Option.getD_none]
    omega
  | some object =>
    simp only [turnsOf, Option.map_some, Option.getD_some]
    omega

/-! ## Runs of calls -/

/-- A call, after which a value that is complete is taken. Reference: `amf.cpp:497`. -/
def AMFParser.step (object : Option AMFParsing) (data : List UInt8) : Option (Option AMFParsing) :=
  (AMFParser.parseData object data).map fun r =>
    if r.1.getObject.isSome then none else some r.1

/-- A call ends: with a complete value, for which it has taken some of the data, with a value that
needs more data, all of this being taken, or with an exception. -/
def CallEnds (object : Option AMFParsing) (data : List UInt8) : Prop :=
  (∃ value n, AMFParser.parseData object data = some (value, n) ∧ n ≤ data.length ∧
      (value.getObject = none → n = data.length)) ∨
    AMFParser.parseData object data = none ∧ Throws object data

theorem callEnds_iff {object : Option AMFParsing} (h : SoundBy object) (data : List UInt8) :
    CallEnds object data ↔ ¬Strays object data := by
  obtain ⟨T, hends, hfits⟩ := parseData_agrees h data
  cases T with
  | goes value rest =>
    obtain ⟨n, hparse, hn, -, hobject⟩ := hfits
    refine iff_of_true (.inl ⟨value, n, hparse, hn, fun hv => (hobject hv).1⟩) fun hstrays => ?_
    cases hends.unique hstrays
  | throws =>
    refine iff_of_true (.inr ⟨hfits, hends⟩) fun hstrays => ?_
    cases hends.unique hstrays
  | strays =>
    refine iff_of_false ?_ fun hnot => hnot hends
    rintro (⟨value, n, hparse, -⟩ | ⟨-, hthrows⟩)
    · rw [show AMFParser.parseData object data = none from hfits] at hparse
      cases hparse
    · cases hends.unique hthrows

theorem soundBy_step {object object' : Option AMFParsing} {data : List UInt8} (h : SoundBy object)
    (hstep : AMFParser.step object data = some object') : SoundBy object' := by
  obtain ⟨⟨value, n⟩, hparse, rfl⟩ := Option.map_eq_some_iff.1 hstep
  obtain ⟨T, -, hfits⟩ := parseData_agrees h data
  cases T with
  | goes value' rest =>
    obtain ⟨m, hparse', -, -, hobject⟩ := hfits
    obtain ⟨rfl, -⟩ := Prod.mk.inj (Option.some.inj (hparse.symm.trans hparse'))
    intro kept hkept
    cases hv : value.getObject with
    | none =>
      simp only [hv, Option.isSome_none, Bool.false_eq_true, if_false, Option.some.injEq] at hkept
      subst hkept
      exact (hobject hv).2
    | some v =>
      simp only [hv, Option.isSome_some, if_true] at hkept
      cases hkept
  | throws | strays =>
    rw [show AMFParser.parseData object data = none from hfits] at hparse
    cases hparse

/-- **Every call of the parser ends exactly when none strays**, for every sequence of calls that
begins without a value: no call without data begins a value, no value is a reference or a typed
object, and no value ends in a strict array that is to have none. Reference: `amf.cpp:412`. -/
theorem callsEnd_iff (calls : List (List UInt8)) :
    StepRun.MeetsM AMFParser.step CallEnds none calls ↔
      StepRun.MeetsM AMFParser.step (fun object data => ¬Strays object data) none calls :=
  StepRun.meetsM_congr (I := SoundBy) (fun _ data h => callEnds_iff h data)
    (fun _ _ _ h hstep => soundBy_step h hstep) soundBy_none calls

/-- The two bytes of a reference are read behind its data. -/
theorem reference_strays : ¬StepRun.MeetsM AMFParser.step CallEnds none [[0x07]] := by
  intro h
  rcases h.1 with ⟨value, n, hparse, -⟩ | ⟨-, hthrows⟩
  · cases hparse
  · cases (Ends.final trivial : Ends (AMFParser.turn none [0x07]) .strays).unique hthrows

end Amf

end McuMediaServer
