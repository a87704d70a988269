import McuMediaServer.Sdp.Description

/-!
# What is looked up in a description

The attributes of a description by their names, and those that say something about a payload type.
A field that is not there throws when it is read.
-/

namespace McuMediaServer

namespace Sdp

/-- The lower case of the upper case of a character, where that is an ASCII letter. -/
def foldCase (c : Char) : Char :=
  if c = Char.ofNat 0x130 ∨ c = Char.ofNat 0x131 then 'i'
  else if c = Char.ofNat 0x17f then 's'
  else if c = Char.ofNat 0x212a then 'k'
  else c.toLower

/-- Whether a text is the same as one of ASCII characters, up to the case of letters. -/
def equalsIgnoreCase (s : Str) (ascii : String) : Bool :=
  s.map foldCase = ascii.toList.map foldCase

/-- The value of a key, if there is one. -/
def LinkedHashMap.get? (parameters : LinkedHashMap) (key : String) : Option (Option Str) :=
  (parameters.entries.find? fun entry => entry.1 = some key.toList).map Prod.snd

/-- The first attribute of a name. Reference: `MediaDescription.java:267`,
`SessionDescription.java:170`. -/
def getAttribute (key : String) : List (Attribute Own) → Option (Option (Attribute Own))
  | [] => some none
  | attr :: attributes =>
    attr.getField.bind fun field =>
      if equalsIgnoreCase field key then some (some attr) else getAttribute key attributes

/-- Reference: `MediaDescription.java:337`. -/
def hasAttribute (key : String) (attributes : List (Attribute Own)) : Option Bool :=
  (getAttribute key attributes).map Option.isSome

/-- All attributes of a name. Reference: `MediaDescription.java:278`. -/
def getAttributes (key : String) : List (Attribute Own) → Option (List (Attribute Own))
  | [] => some []
  | attr :: attributes =>
    attr.getField.bind fun field => (getAttributes key attributes).map fun attrs =>
      if equalsIgnoreCase field key then attr :: attrs else attrs

/-- The name and the rate that a payload type is mapped to. Reference: `MediaDescription.java:249`.
-/
def getRTPMap (fmt : Int) : List (Attribute Own) → Option (Option (Option Str × Option Int))
  | [] => some none
  | .rtpMap format name rate _ :: attributes =>
    format.bind fun format =>
      if format = fmt then some (some (name, rate)) else getRTPMap fmt attributes
  | _ :: attributes => getRTPMap fmt attributes

/-- The parameters of a payload type. Reference: `MediaDescription.java:232`. -/
def getFormatParameters (type : Int) : List (Attribute Own) → Option (Option LinkedHashMap)
  | [] => some none
  | .format fmt parameters :: attributes =>
    fmt.bind fun fmt =>
      if fmt = type then some (some parameters) else getFormatParameters type attributes
  | _ :: attributes => getFormatParameters type attributes

/-- The attributes that `getAttributes` finds are among those of the description. -/
theorem mem_of_mem_getAttributes {key : String} {attributes attrs : List (Attribute Own)}
    (h : getAttributes key attributes = some attrs) {attr : Attribute Own} (hattr : attr ∈ attrs) :
    attr ∈ attributes := by
  induction attributes generalizing attrs with
  | nil =>
    cases h
    exact hattr
  | cons a attributes ih =>
    rw [getAttributes, Option.bind_eq_some_iff] at h
    obtain ⟨field, _, h⟩ := h
    obtain ⟨rest, hrest, rfl⟩ := Option.map_eq_some_iff.1 h
    split at hattr
    · rcases List.mem_cons.1 hattr with rfl | hattr
      · exact List.mem_cons_self
      · exact List.mem_cons_of_mem _ (ih hrest hattr)
    · exact List.mem_cons_of_mem _ (ih hrest hattr)

theorem mem_getAttributes {key : String} {attributes attrs : List (Attribute Own)}
    (h : getAttributes key attributes = some attrs) {attr : Attribute Own}
    (hattr : attr ∈ attributes) (hfield : ∀ field, attr.getField = some field →
      equalsIgnoreCase field key = true) : attr ∈ attrs := by
  induction attributes generalizing attrs with
  | nil => exact absurd hattr List.not_mem_nil
  | cons a attributes ih =>
    rw [getAttributes, Option.bind_eq_some_iff] at h
    obtain ⟨field, ha, h⟩ := h
    obtain ⟨rest, hrest, rfl⟩ := Option.map_eq_some_iff.1 h
    rcases List.mem_cons.1 hattr with rfl | hattr
    · rw [if_pos (hfield field ha)]
      exact List.mem_cons_self
    · have hmem := ih hrest hattr
      split
      · exact List.mem_cons_of_mem _ hmem
      · exact hmem

end Sdp

end McuMediaServer
