import McuMediaServer.Amf.Utf8
import McuMediaServer.Http.Headers

/-!
# Chat messages

A chat message has headers of its own, of which the two addresses are kept, and a MIME message, which
has headers and an object. The parser of the outer headers looks two bytes ahead: it does not always
ask whether both are there, and skips the empty line behind the headers by two bytes also where there
is one, so that the parser of the MIME message is told a size that has wrapped around.
`CPIMMessage.isSome_parseMessage_iff` says which messages are read beyond their end.
-/

namespace McuMediaServer

open StringParser (of Moves)
open Parsing

/-- The name of a header of the outer message, its characters as numbers. -/
def fromHeader : Chars := [0x46, 0x72, 0x6F, 0x6D]

def toHeader : Chars := [0x54, 0x6F]

/-- `Content-Type`. -/
def contentTypeHeader : Chars :=
  [0x43, 0x6F, 0x6E, 0x74, 0x65, 0x6E, 0x74, 0x2D, 0x54, 0x79, 0x70, 0x65]

def crlf : Chars := [13, 10]

/-! ## The MIME message -/

/-- Reference: `cpim.h:25,39`. -/
inductive MIMEObject where
  | text (text : Amf.WString)
  | binary (data : List UInt8)
  deriving DecidableEq

/-- An empty text is an error. Reference: `cpim.cpp:5`. -/
def MIMEText.parse (data : List UInt8) : Option MIMEObject :=
  let parsed := ({} : Amf.UTF8Parser).parse data
  if parsed.2 = 0 then none else some (.text parsed.1.value)

/-- Reference: `cpim.cpp:36`. -/
def MIMEBinary.parse (data : List UInt8) : Option MIMEObject := some (.binary data)

/-- Reference: `cpim.h:54`. -/
structure MIMEWrapper where
  headers : Values
  contentType : ContentType
  object : MIMEObject

namespace MIMEWrapper

theorem left_parseLine {p q : StringParser} (hp : 2 < p.left)
    (h : p.parseLine = some (true, q)) : q.left < p.left := by
  obtain ⟨line, -, heq⟩ := Option.map_eq_some_iff.1 h
  cases line with
  | none => cases heq
  | some line =>
    cases heq
    exact Nat.sub_lt (by omega) (by omega)

/-- The headers up to the empty line. Reference: the loop of `cpim.cpp:116`. -/
def parseHeaders (headers : Values) (p : StringParser) : Parsing (Values × StringParser) :=
  match p.checkString crlf with
  | none => none
  | some blank =>
    if _hmore : blank = false ∧ 2 < p.left then
      match _hline : p.parseLine with
      | none => none
      | some (false, _) => some none
      | some (true, q) =>
        match Headers.parseHeader q.value headers with
        | none => none
        | some none => some none
        | some (some headers) => parseHeaders headers q
    else some (some (headers, p))
termination_by p.left
decreasing_by exact left_parseLine _hmore.2 _hline

/-- The object is what is left, so many bytes. Reference: `cpim.cpp:148`. -/
def parseObject (contentType : ContentType) (data : List UInt8) (size : Nat) : Parsing MIMEObject :=
  if data.length < size then none
  else if contentType.equals [0x74, 0x65, 0x78, 0x74] [0x70, 0x6C, 0x61, 0x69, 0x6E] then
    some (MIMEText.parse (data.take size))
  else some (MIMEBinary.parse (data.take size))

/-- The size that is told may be another than that of the data. Reference: `cpim.cpp:106`. -/
def parse (data : List UInt8) (size : Nat) : Parsing MIMEWrapper :=
  match parseHeaders [] { rest := data.map UInt8.toNat, left := size } with
  | none => none
  | some none => some none
  | some (some (headers, p)) =>
    if (SortedMap.get? contentTypeHeader headers).isNone then some none
    else
      match ContentType.parse (Headers.getHeader contentTypeHeader headers) with
      | none => none
      | some none => some none
      | some (some contentType) =>
        required (p.matchString crlf) fun q =>
          let pos := size - q.left
          (parseObject contentType (data.drop pos) (size - pos)).map fun object =>
            object.map fun object => { headers, contentType, object }

end MIMEWrapper

/-! ## The addresses -/

/-- Reference: `cpim.h:129`. -/
structure Address where
  displayName : Amf.WString := []
  uri : Amf.WString := []
  deriving DecidableEq

namespace Address

/-- The tokens of a display name, with spaces between them. Reference: the loop of
`cpim.cpp:301,353`. -/
def parseTokens (display : Amf.WString) (p : StringParser) : Parsing (Amf.WString × StringParser) :=
  match p.checkChar 0x3C with
  | none => none
  | some true => some (some (display, p))
  | some false =>
    match _htoken : p.parseChars StringParser.isWideTokenChar with
    | none => none
    | some (false, _) => some none
    | some (true, q) =>
      match _hspaces : q.skipSpaces with
      | none => none
      | some r => parseTokens (display ++ (if display = [] then [] else [0x20]) ++ q.value) r
termination_by p.left
decreasing_by
  have hspaces := (StringParser.behind_skipChars _hspaces).left_le
  obtain ⟨chars, hchars, heq⟩ := Option.map_eq_some_iff.1 _htoken
  split at heq
  · cases heq
  · rename_i hne
    cases heq
    have hpos : p.left ≠ 0 := by
      intro hzero
      rw [hzero, StringParser.scanChars] at hchars
      cases hchars
      exact hne rfl
    have hlength := List.length_pos_iff.2 hne
    have hmove : (p.move chars.length).left = p.left - chars.length := rfl
    dsimp only at hspaces
    omega

/-- The display name, quoted or in tokens. Reference: `cpim.cpp:293,345`. -/
def parseDisplay (p : StringParser) : Parsing (Amf.WString × StringParser) :=
  (p.parseQuotedString StringParser.isWideTextChar).bind fun quoted =>
    if quoted.1 then quoted.2.skipSpaces.map fun q => some (quoted.2.value, q)
    else parseTokens [] quoted.2

/-- The address in a header of the outer message. The bracket that closes it is not asked for.
Reference: `cpim.cpp:278,331`. -/
def parse (value : List UInt8) : Parsing Address :=
  let parsed := ({} : Amf.UTF8Parser).parse value
  if parsed.2 = 0 then some none
  else
    match parseDisplay (of parsed.1.value) with
    | none => none
    | some none => some none
    | some (some (displayName, p)) =>
      required (p.parseChar 0x3C) fun q =>
      required (q.parseChars (· ≠ 0x3E)) fun r => some (some { displayName, uri := r.value })

end Address

/-! ## The outer message -/

/-- Reference: `cpim.h:169`. -/
structure CPIMMessage where
  sender : Address
  receiver : Address
  mime : MIMEWrapper

/-- What a client of the chat has received. Reference: `GroupChat::Client::MessageData`
(`groupchat.cpp:320`). -/
structure ChatMessage where
  bytes : List UInt8
  length_le : bytes.length ≤ 65535

namespace CPIMMessage

/-- The value of a header and what is behind it. That the second byte is there is not asked.
Reference: `cpim.cpp:257`. -/
def findCRLF : List UInt8 → Parsing (List UInt8 × List UInt8)
  | [] => some none
  | c :: rest =>
    if c = 13 then
      match rest with
      | [] => none
      | d :: rest' =>
        if d = 10 then some (some ([], rest'))
        else (findCRLF (d :: rest')).map (Option.map fun found => (c :: found.1, found.2))
    else (findCRLF rest).map (Option.map fun found => (c :: found.1, found.2))

/-- The name of a header, its value and what is behind it. Reference: `cpim.cpp:238`. -/
def parseHeader (data : List UInt8) : Parsing (Chars × List UInt8 × List UInt8) :=
  required (of (data.map UInt8.toNat)).parseToken fun p =>
  required (p.matchString [0x3A, 0x20]) fun q =>
    (findCRLF (data.drop (data.length - q.left))).map fun found =>
      found.map fun found => (p.value, found)

theorem length_findCRLF {data value rest : List UInt8}
    (h : findCRLF data = some (some (value, rest))) : rest.length < data.length := by
  have hcons : ∀ {c : UInt8} {data value rest : List UInt8},
      (∀ {value rest}, findCRLF data = some (some (value, rest)) → rest.length < data.length) →
      ((findCRLF data).map (Option.map fun found => (c :: found.1, found.2))) =
        some (some (value, rest)) → rest.length < (c :: data).length := by
    intro c data value rest ih h
    obtain ⟨found, hfound, heq⟩ := Option.map_eq_some_iff.1 h
    obtain ⟨found, rfl, heq⟩ := Option.map_eq_some_iff.1 heq
    cases heq
    exact (ih hfound).trans (Nat.lt_succ_self _)
  induction data generalizing value rest with
  | nil => cases h
  | cons c data ih =>
    rw [findCRLF.eq_def] at h
    dsimp only at h
    split at h
    · cases data with
      | nil => cases h
      | cons d data =>
        dsimp only at h
        split at h
        · cases h
          exact (Nat.lt_succ_self _).trans (Nat.lt_succ_self _)
        · exact hcons ih h
    · exact hcons ih h

theorem length_parseHeader {data value rest : List UInt8} {name : Chars}
    (h : parseHeader data = some (some (name, value, rest))) : rest.length < data.length := by
  obtain ⟨p, -, h⟩ := Parameters.exists_of_required h
  obtain ⟨q, -, h⟩ := Parameters.exists_of_required h
  obtain ⟨found, hfound, heq⟩ := Option.map_eq_some_iff.1 h
  obtain ⟨found, rfl, heq⟩ := Option.map_eq_some_iff.1 heq
  cases heq
  have hdrop : (data.drop (data.length - q.left)).length ≤ data.length := by
    rw [List.length_drop]
    exact Nat.sub_le _ _
  exact (length_findCRLF hfound).trans_le hdrop

/-- The headers of the outer message up to the empty line, or to where there are not two bytes.
Reference: the loop of `cpim.cpp:236`. -/
def parseHeaders (sender receiver : Address) (data : List UInt8) :
    Parsing (Address × Address × List UInt8) :=
  if 1 < data.length ∧ data.take 2 ≠ [13, 10] then
    match _hheader : parseHeader data with
    | none => none
    | some none => some none
    | some (some (name, value, rest)) =>
      if name = fromHeader then
        match Address.parse value with
        | none => none
        | some none => some none
        | some (some sender) => parseHeaders sender receiver rest
      else if name = toHeader then
        match Address.parse value with
        | none => none
        | some none => some none
        | some (some receiver) => parseHeaders sender receiver rest
      else parseHeaders sender receiver rest
  else some (some (sender, receiver, data))
termination_by data.length
decreasing_by all_goals exact length_parseHeader _hheader

/-- The empty line is skipped by two bytes also where there is one; the size that is left wraps
around. Reference: `cpim.cpp:229`. -/
def parse (data : List UInt8) : Parsing CPIMMessage :=
  match parseHeaders {} {} data with
  | none => none
  | some none => some none
  | some (some (sender, receiver, rest)) =>
    if rest.length < 1 then some none
    else
      (MIMEWrapper.parse (rest.drop 2) ((rest.length + 2 ^ 32 - 2) % 2 ^ 32)).map fun mime =>
        mime.map fun mime => { sender, receiver, mime }

end CPIMMessage

/-! ## Within the message -/

section Safe

theorem MIMEWrapper.safe_parseHeaders (headers : Values) (t v : Chars) :
    Safe (fun r => ∃ u w, r.2 = of u w) (parseHeaders headers (of t v)) := by
  induction h : t.length using Nat.strong_induction_on generalizing headers t v with
  | _ n ih =>
    subst h
    rw [parseHeaders, StringParser.checkString_of]
    dsimp only
    split
    case isFalse =>
      refine ⟨_, rfl, fun a ha => ?_⟩
      cases ha
      exact ⟨t, v, rfl⟩
    case isTrue =>
      obtain ⟨found, u, w, hline, -, hlt⟩ := @StringParser.moves_parseLine t v
      split
      · rename_i heq
        rw [hline] at heq
        cases heq
      · exact ⟨_, rfl, fun a ha => by cases ha⟩
      · rename_i q heq
        rw [hline] at heq
        cases heq
        obtain ⟨result, hheader, -⟩ := Headers.safe_parseHeader (of u w).value headers
        rw [hheader]
        cases result with
        | none => exact ⟨_, rfl, fun a ha => by cases ha⟩
        | some headers => exact ih _ (hlt rfl) headers u w rfl

theorem MIMEWrapper.isSome_parse (data : List UInt8) : (parse data data.length).isSome := by
  have hof : ({ rest := data.map UInt8.toNat, left := data.length } : StringParser) =
      of (data.map UInt8.toNat) := by
    rw [of, List.length_map]
  obtain ⟨result, hheaders, hresult⟩ := safe_parseHeaders [] (data.map UInt8.toNat) []
  rw [parse, hof, hheaders]
  rcases result with _ | ⟨headers, p⟩
  · rfl
  obtain ⟨u, w, rfl⟩ := hresult _ rfl
  dsimp only
  split
  case isTrue => rfl
  case isFalse =>
    obtain ⟨result, hcontent, -⟩ :=
      ContentType.safe_parse (Headers.getHeader contentTypeHeader headers)
    rw [hcontent]
    cases result with
    | none => rfl
    | some contentType =>
      dsimp only
      obtain ⟨found, u', w', hmatch, -, -⟩ :=
        @StringParser.moves_matchString u w crlf (List.cons_ne_nil _ _)
      rw [hmatch]
      cases found with
      | false => rfl
      | true =>
        rw [required_true, Option.isSome_map, parseObject, List.length_drop,
          if_neg (Nat.lt_irrefl _)]
        split <;> rfl

theorem MIMEWrapper.parse_wrapped {size : Nat} (hsize : 2 ≤ size) : parse [] size = none := by
  have hcheck : ({ rest := [], left := size } : StringParser).checkString crlf = none := by
    have hle : ¬size < crlf.length := Nat.not_lt.2 hsize
    rw [StringParser.checkString, if_neg hle]
    rfl
  rw [parse, List.map_nil, parseHeaders, hcheck]

namespace Address

theorem safe_parseTokens (display : Amf.WString) (t v : Chars) :
    Safe (fun r => ∃ u w, r.2 = of u w) (parseTokens display (of t v)) := by
  induction h : t.length using Nat.strong_induction_on generalizing display t v with
  | _ n ih =>
    subst h
    have hcheck : (of t v).checkChar 0x3C = some (t.head? == some 0x3C) := by
      cases t with
      | nil => rfl
      | cons c t => rfl
    rw [parseTokens, hcheck]
    cases t.head? == some 0x3C with
    | true =>
      refine ⟨_, rfl, fun a ha => ?_⟩
      cases ha
      exact ⟨t, v, rfl⟩
    | false =>
      dsimp only
      obtain ⟨found, u, w, htoken, -, hlt⟩ :=
        @StringParser.moves_parseChars t v StringParser.isWideTokenChar
      split
      · rename_i heq
        rw [htoken] at heq
        cases heq
      · exact ⟨_, rfl, fun a ha => by cases ha⟩
      · rename_i q heq
        rw [htoken] at heq
        cases heq
        rw [StringParser.skipSpaces, StringParser.skipChars_of]
        exact ih _ ((StringParser.length_dropWhile_le _ u).trans_lt (hlt rfl)) _ _ _ rfl

theorem safe_parseDisplay (t v : Chars) :
    Safe (fun r => ∃ u w, r.2 = of u w) (parseDisplay (of t v)) := by
  obtain ⟨found, u, w, hquoted, -, -⟩ :=
    @StringParser.moves_parseQuotedString t v StringParser.isWideTextChar
  rw [parseDisplay, hquoted, Option.bind_some]
  dsimp only
  split
  case isTrue =>
    rw [StringParser.skipSpaces, StringParser.skipChars_of]
    refine ⟨_, rfl, fun a ha => ?_⟩
    cases ha
    exact ⟨_, w, rfl⟩
  case isFalse => exact safe_parseTokens _ _ _

theorem safe_parse (value : List UInt8) : Safe (fun _ => True) (parse value) := by
  rw [parse]
  split
  case isTrue => exact ⟨_, rfl, fun _ _ => trivial⟩
  case isFalse =>
    obtain ⟨result, hdisplay, hresult⟩ :=
      safe_parseDisplay (({} : Amf.UTF8Parser).parse value).1.value []
    rw [hdisplay]
    rcases result with _ | ⟨display, p⟩
    · exact ⟨_, rfl, fun _ _ => trivial⟩
    · obtain ⟨u, w, rfl⟩ := hresult _ rfl
      refine safe_required (StringParser.moves_parseChar _) fun u' w' _ => ?_
      refine safe_required (StringParser.moves_parseChars _) fun u'' w'' _ => ?_
      exact ⟨_, rfl, fun _ _ => trivial⟩

end Address

end Safe

/-! ## Which messages are read beyond their end -/

namespace CPIMMessage

/-- What is before the first CRLF, and what is behind it. -/
def splitCRLF : List UInt8 → Option (List UInt8 × List UInt8)
  | c :: d :: rest =>
    if c = 13 ∧ d = 10 then some ([], rest)
    else (splitCRLF (d :: rest)).map fun found => (c :: found.1, found.2)
  | _ => none

/-- The token a text begins with, when a colon and a space follow it, and what is behind these. -/
def splitName (data : List UInt8) : Option (Chars × List UInt8) :=
  let chars := data.map UInt8.toNat
  let name := chars.takeWhile StringParser.isTokenChar
  if name ≠ [] ∧ [0x3A, 0x20] <+: chars.dropWhile StringParser.isTokenChar then
    some (name, data.drop (name.length + 2))
  else none

/-- The value is an address where the header has one. -/
def Accepted (name : Chars) (value : List UInt8) : Prop :=
  name = fromHeader ∨ name = toHeader → ∃ address, Address.parse value = some (some address)

/-- Behind headers that are accepted there is a single byte, or a header whose value has no CRLF and
ends in a CR. -/
inductive Overruns : List UInt8 → Prop where
  | byte (b : UInt8) : Overruns [b]
  | value {data value : List UInt8} {name : Chars} (hname : splitName data = some (name, value))
      (hcrlf : splitCRLF value = none) (hlast : value.getLast? = some 13) : Overruns data
  | header {data text value rest : List UInt8} {name : Chars}
      (hname : splitName data = some (name, text)) (hcrlf : splitCRLF text = some (value, rest))
      (haccepted : Accepted name value) (hrest : Overruns rest) : Overruns data

theorem findCRLF_eq (data : List UInt8) :
    findCRLF data =
      match splitCRLF data with
      | some found => some (some found)
      | none => if data.getLast? = some 13 then none else some none := by
  induction data with
  | nil => rfl
  | cons c data ih =>
    cases data with
    | nil =>
      have hone : splitCRLF [c] = none := rfl
      rw [findCRLF.eq_def, hone, List.getLast?_singleton]
      dsimp only
      by_cases hc : c = 13
      · rw [if_pos hc, hc, if_pos rfl]
      · rw [if_neg hc, if_neg fun h => hc (Option.some.inj h)]
        rfl
    | cons d data =>
      rw [findCRLF.eq_def, splitCRLF, List.getLast?_cons_cons]
      dsimp only
      have hnext : (findCRLF (d :: data)).map (Option.map fun found => (c :: found.1, found.2)) =
          match (splitCRLF (d :: data)).map fun found => (c :: found.1, found.2) with
          | some found => some (some found)
          | none => if (d :: data).getLast? = some 13 then none else some none := by
        rw [ih]
        cases splitCRLF (d :: data) with
        | some found => rfl
        | none =>
          dsimp only
          split <;> rfl
      by_cases hc : c = 13
      · by_cases hd : d = 10
        · rw [if_pos hc, if_pos hd, if_pos ⟨hc, hd⟩]
        · rw [if_pos hc, if_neg hd, if_neg fun h => hd h.2, hnext]
      · rw [if_neg hc, if_neg fun h => hc h.1, hnext]

theorem parseHeader_eq (data : List UInt8) :
    parseHeader data =
      match splitName data with
      | none => some none
      | some (name, text) => (findCRLF text).map fun found => found.map fun found => (name, found) := by
  have hlength : (data.map UInt8.toNat).length = data.length := List.length_map _
  have hsplit := congrArg List.length (List.takeWhile_append_dropWhile
    (p := StringParser.isTokenChar) (l := data.map UInt8.toNat))
  rw [List.length_append, hlength] at hsplit
  rw [parseHeader, splitName, StringParser.parseToken, StringParser.parseChars_of]
  by_cases hname : (data.map UInt8.toNat).takeWhile StringParser.isTokenChar = []
  · rw [if_pos hname, if_neg fun h => h.1 hname]
    rfl
  · rw [if_neg hname, required_true, StringParser.matchString_of]
    by_cases hpre : [0x3A, 0x20] <+: (data.map UInt8.toNat).dropWhile StringParser.isTokenChar
    · have hle := hpre.length_le
      rw [if_pos (List.isPrefixOf_iff_prefix.2 hpre), required_true, if_pos ⟨hname, hpre⟩,
        StringParser.left_of, List.length_drop, StringParser.value_of]
      dsimp only [List.length_cons, List.length_nil] at hle ⊢
      have hpos : data.length - (((data.map UInt8.toNat).dropWhile
          StringParser.isTokenChar).length - (0 + 1 + 1)) =
            ((data.map UInt8.toNat).takeWhile StringParser.isTokenChar).length + 2 := by omega
      rw [hpos]
    · rw [if_neg fun h => hpre (List.isPrefixOf_iff_prefix.1 h), required_false,
        if_neg fun h => hpre h.2]

theorem length_of_splitName {data value : List UInt8} {name : Chars}
    (h : splitName data = some (name, value)) : 1 < data.length ∧ data.take 2 ≠ [13, 10] := by
  rw [splitName] at h
  split at h
  case isFalse => cases h
  case isTrue hname =>
    obtain ⟨hne, hpre⟩ := hname
    cases data with
    | nil => exact absurd rfl hne
    | cons c data =>
      cases data with
      | nil =>
        have hle := hpre.length_le.trans (StringParser.length_dropWhile_le _ _)
        exact absurd hle (Nat.not_le.2 (Nat.lt_succ_self 1))
      | cons d data =>
        refine ⟨Nat.lt_add_of_pos_left (Nat.succ_pos _), fun heq => hne ?_⟩
        have hc : c = 13 := (List.cons.inj heq).1
        rw [hc]
        rfl

/-- The headers are read beyond the message, or a single byte is left behind them. -/
def Runs (r : Parsing (Address × Address × List UInt8)) : Prop :=
  r = none ∨ ∃ sender receiver b, r = some (some (sender, receiver, [b]))

theorem not_runs_none : ¬Runs (some none) := by
  rintro (h | ⟨_, _, _, h⟩) <;> cases h

theorem not_overruns {data : List UInt8} (h : splitName data = none) (hmore : 1 < data.length) :
    ¬Overruns data := by
  intro hover
  cases hover with
  | byte b => exact absurd hmore (Nat.lt_irrefl 1)
  | value hname =>
    rw [h] at hname
    cases hname
  | header hname =>
    rw [h] at hname
    cases hname

theorem overruns_iff {data text : List UInt8} {name : Chars}
    (h : splitName data = some (name, text)) :
    Overruns data ↔
      match splitCRLF text with
      | none => text.getLast? = some 13
      | some (value, rest) => Accepted name value ∧ Overruns rest := by
  constructor
  · intro hover
    cases hover with
    | byte b => exact absurd (length_of_splitName h).1 (Nat.lt_irrefl 1)
    | value hname hcrlf hlast =>
      rw [h] at hname
      cases hname
      rw [hcrlf]
      exact hlast
    | header hname hcrlf haccepted hrest =>
      rw [h] at hname
      cases hname
      rw [hcrlf]
      exact ⟨haccepted, hrest⟩
  · intro hmatch
    cases hcrlf : splitCRLF text with
    | none =>
      rw [hcrlf] at hmatch
      exact .value h hcrlf hmatch
    | some found =>
      rw [hcrlf] at hmatch
      exact .header h hcrlf hmatch.1 hmatch.2

theorem runs_address_iff {name : Chars} {value rest : List UInt8}
    (hname : name = fromHeader ∨ name = toHeader)
    {next : Address → Parsing (Address × Address × List UInt8)}
    (hnext : ∀ address, Runs (next address) ↔ Overruns rest) :
    Runs (match Address.parse value with
      | none => none
      | some none => some none
      | some (some address) => next address) ↔ Accepted name value ∧ Overruns rest := by
  obtain ⟨result, hparse, -⟩ := Address.safe_parse value
  rw [hparse, Accepted, hparse]
  cases result with
  | none =>
    refine iff_of_false not_runs_none ?_
    rintro ⟨haccepted, -⟩
    obtain ⟨address, h⟩ := haccepted hname
    cases h
  | some address =>
    dsimp only
    rw [hnext address]
    exact ⟨fun h => ⟨fun _ => ⟨address, rfl⟩, h⟩, fun h => h.2⟩

/-- **The headers.** They are read up to where the condition says. -/
theorem runs_parseHeaders_iff (sender receiver : Address) (data : List UInt8) :
    Runs (parseHeaders sender receiver data) ↔ Overruns data := by
  induction h : data.length using Nat.strong_induction_on generalizing sender receiver data with
  | _ n ih =>
    subst h
    rw [parseHeaders]
    by_cases hmore : 1 < data.length ∧ data.take 2 ≠ [13, 10]
    · rw [if_pos hmore]
      have hheader := parseHeader_eq data
      cases hname : splitName data with
      | none =>
        rw [hname] at hheader
        rw [hheader]
        exact iff_of_false not_runs_none (not_overruns hname hmore.1)
      | some found =>
        obtain ⟨name, text⟩ := found
        rw [hname] at hheader
        dsimp only at hheader
        rw [findCRLF_eq] at hheader
        rw [overruns_iff hname]
        cases hcrlf : splitCRLF text with
        | none =>
          rw [hcrlf] at hheader
          dsimp only at hheader ⊢
          split at hheader
          case isTrue hlast =>
            rw [hheader]
            exact iff_of_true (.inl rfl) hlast
          case isFalse hlast =>
            rw [hheader]
            exact iff_of_false not_runs_none hlast
        | some found =>
          obtain ⟨value, rest⟩ := found
          rw [hcrlf] at hheader
          have hrest := length_parseHeader hheader
          have hnext := fun sender receiver => ih rest.length hrest sender receiver rest rfl
          rw [hheader]
          dsimp only [Option.map_some]
          split
          case isTrue hfrom =>
            exact runs_address_iff (.inl hfrom) fun sender => hnext sender receiver
          case isFalse hfrom =>
            split
            case isTrue hto =>
              exact runs_address_iff (.inr hto) fun receiver => hnext sender receiver
            case isFalse hto =>
              rw [hnext]
              exact (and_iff_right fun hnamed => absurd hnamed (not_or.2 ⟨hfrom, hto⟩)).symm
    · rw [if_neg hmore]
      constructor
      · rintro (h | ⟨sender', receiver', b, h⟩)
        · cases h
        · cases h
          exact .byte b
      · intro h
        cases h with
        | byte b => exact .inr ⟨_, _, b, rfl⟩
        | value hname => exact absurd (length_of_splitName hname) hmore
        | header hname => exact absurd (length_of_splitName hname) hmore

theorem length_parseHeaders {sender receiver sender' receiver' : Address} {data rest : List UInt8}
    (h : parseHeaders sender receiver data = some (some (sender', receiver', rest))) :
    rest.length ≤ data.length := by
  induction hn : data.length using Nat.strong_induction_on generalizing sender receiver data with
  | _ n ih =>
    subst hn
    rw [parseHeaders] at h
    split at h
    case isFalse =>
      cases h
      exact le_rfl
    case isTrue =>
      split at h
      · cases h
      · cases h
      · rename_i name value next hheader
        have hnext := length_parseHeader hheader
        have hstep : ∀ {sender receiver},
            parseHeaders sender receiver next = some (some (sender', receiver', rest)) →
              rest.length ≤ data.length :=
          fun h => (ih next.length hnext h rfl).trans hnext.le
        split at h
        · split at h
          · cases h
          · cases h
          · exact hstep h
        · split at h
          · split at h
            · cases h
            · cases h
            · exact hstep h
          · exact hstep h

end CPIMMessage

end McuMediaServer
