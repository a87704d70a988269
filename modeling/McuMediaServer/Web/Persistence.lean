import Mathlib.Data.List.TakeWhile
import McuMediaServer.Web.Xml

/-!
# Saving and loading the configuration

The manager of the conferences keeps media mixers, profiles and templates by their identifiers, and
writes each kind to a file of its own, from which they are loaded at the next start. A mixer is
written with its name in the place of its identifier, and a template refers to the identifier, so
that a template is lost when the two are different; `Config.saved_roundTrips_iff` says what comes back.

Whether the address of a server is accepted (`valid`), and whether a name or an address is resolved
(`resolves`), is a question to the platform.
-/

namespace McuMediaServer

namespace Web

variable (valid resolves : Str → Bool)

/-! ## Media mixers -/

/-- Reference: `SubNetInfo.java:34`. -/
structure SubNetInfo where
  subnet : Str
  mask : Integer
  deriving DecidableEq

namespace SubNetInfo

/-- The net of all addresses. Reference: `MediaMixer.java:99`. -/
def any : SubNetInfo := ⟨"0.0.0.0".toList, 0, by decide, by decide⟩

/-- Reference: `SubNetInfo.java:100`. -/
def toString (n : SubNetInfo) : Str := n.subnet ++ '/' :: n.mask.toString

/-- The pieces before the first slashes; where one of them is wrong, the net of all addresses is
taken. Reference: `SubNetInfo.java:38`, `MediaMixer.java:92`. -/
def parse (cidr : Str) : SubNetInfo :=
  match cidr.dropWhile (· ≠ '/') with
  | [] => any
  | _ :: rest =>
    match Integer.parseInt (rest.takeWhile (· ≠ '/')) with
    | none => any
    | some mask => if resolves (cidr.takeWhile (· ≠ '/')) then
        { subnet := cidr.takeWhile (· ≠ '/'), mask } else any

/-- The net that is parsed again. -/
def Kept (n : SubNetInfo) : Prop := n = any ∨ '/' ∉ n.subnet ∧ resolves n.subnet = true

end SubNetInfo

/-- Reference: `MediaMixer.java:46`. -/
structure MediaMixer where
  uid : Str
  name : Str
  url : Str
  ip : Str
  publicIp : Str
  localNet : SubNetInfo
  deriving DecidableEq

/-- What a constructor does: an object, an address that is malformed, or another exception. -/
inductive Construction (α : Type)
  | created (a : α)
  | malformed
  | thrown

namespace MediaMixer

/-- Of an address that ends with a slash two characters are taken away, which throws where there is
only one. Reference: `MediaMixer.java:80`. -/
def withoutSlash (url : Str) : Option Str :=
  if url.getLast? = some '/' then
    if url.length < 2 then none else some (url.take (url.length - 2))
  else some url

/-- Reference: `MediaMixer.java:73`. -/
def new (id name url ip publicIp localNet : Str) : Construction MediaMixer :=
  match withoutSlash url with
  | none => .thrown
  | some stored =>
    if valid (url ++ "/mcu".toList) then
      .created {
        uid := id, name, url := stored, ip, publicIp, localNet := SubNetInfo.parse resolves localNet }
    else .malformed

/-- The name is written as the identifier. Reference: `ConferenceMngr.java:300`. -/
def save (m : MediaMixer) : Element where
  attributes := [("id", m.name), ("name", m.name), ("url", m.url), ("ip", m.ip),
    ("publicIp", m.publicIp), ("localNet", m.localNet.toString)]

end MediaMixer

/-! ## Profiles and templates -/

/-- Reference: `Profile.java:30`. -/
structure Profile where
  uid : Str
  name : Str
  videoSize : Integer
  videoBitrate : Integer
  videoFPS : Integer
  intraPeriod : Integer
  maxVideoBitrate : Integer
  audioRate : Integer
  properties : Properties := {}
  deriving DecidableEq

/-- Reference: `ConferenceMngr.java:391`. -/
def Profile.save (p : Profile) : Element where
  attributes := [("uid", p.uid), ("name", p.name), ("videoSize", p.videoSize.toString),
    ("videoBitrate", p.videoBitrate.toString), ("videoFPS", p.videoFPS.toString),
    ("intraPeriod", p.intraPeriod.toString), ("maxVideoBitrate", p.maxVideoBitrate.toString),
    ("audioRate", p.audioRate.toString)]
  properties := p.properties.entries

/-- Reference: `ConferenceTemplate.java:27`. -/
structure ConferenceTemplate where
  uid : Str
  name : Str
  did : Str
  mixer : MediaMixer
  size : Integer
  compType : Integer
  vad : Integer
  profile : Profile
  autoAccept : Bool
  audioCodecs : Str
  videoCodecs : Str
  textCodecs : Str
  properties : Properties := {}
  deriving DecidableEq

/-- Reference: `ConferenceMngr.java:335`. -/
def ConferenceTemplate.save (t : ConferenceTemplate) : Element where
  attributes := [("name", t.name), ("did", t.did), ("size", t.size.toString),
    ("compType", t.compType.toString), ("vad", t.vad.toString), ("mixer", t.mixer.uid),
    ("profile", t.profile.uid), ("autoAccept", boolToString t.autoAccept),
    ("audioCodecs", t.audioCodecs), ("videoCodecs", t.videoCodecs), ("textCodecs", t.textCodecs)]
  properties := t.properties.entries

/-! ## Loading -/

section Load

variable {V : Type}

/-- Load one element after the other into a map: an exception ends the loop, and an element that is
not accepted is left out. -/
def loadAll (load : Element → Option (Option (Str × V))) : List Element → List (Str × V) →
    List (Str × V)
  | [], m => m
  | e :: doc, m =>
    match load e with
    | none => m
    | some none => loadAll load doc m
    | some (some entry) => loadAll load doc (SortedMap.set entry.1 entry.2 m)

/-- A file that cannot be parsed leaves the map empty. -/
def loadFile (load : Element → Option (Option (Str × V))) (doc : List Element) : List (Str × V) :=
  match parseWritten doc with
  | none => []
  | some doc => loadAll load doc []

end Load

/-- An attribute of a number. -/
def Element.getInteger (e : Element) (name : String) : Option Integer :=
  (e.getNamedItem name).bind Integer.parseInt

/-- Reference: `ConferenceMngr.java:133`. -/
def loadMixer (e : Element) : Option (Option (Str × MediaMixer)) :=
  (e.getNamedItem "name").bind fun name =>
  (e.getNamedItem "url").bind fun url =>
  (e.getNamedItem "ip").bind fun ip =>
  (e.getNamedItem "publicIp").bind fun publicIp =>
    let id := (e.getNamedItem "id").getD (name ++ '@' :: url)
    let localNet := (e.getNamedItem "localNet").getD []
    match MediaMixer.new valid resolves id name url ip publicIp localNet with
    | .created mixer => some (some (mixer.uid, mixer))
    | .malformed => some none
    | .thrown => none

/-- Reference: `ConferenceMngr.java:178`. -/
def loadProfile (e : Element) : Option (Option (Str × Profile)) :=
  (e.getNamedItem "uid").bind fun uid =>
  (e.getNamedItem "name").bind fun name =>
  (e.getInteger "videoSize").bind fun videoSize =>
  (e.getInteger "videoBitrate").bind fun videoBitrate =>
  (e.getInteger "videoFPS").bind fun videoFPS =>
  (e.getInteger "intraPeriod").bind fun intraPeriod =>
  ((e.getNamedItem "maxVideoBitrate").elim (Integer.ofInt 0) Integer.parseInt).bind
    fun maxVideoBitrate =>
  ((e.getNamedItem "audioRate").elim (Integer.ofInt 8000) Integer.parseInt).bind fun audioRate =>
    some (some (uid, {
      uid, name, videoSize, videoBitrate, videoFPS, intraPeriod, maxVideoBitrate, audioRate
      properties := .ofEntries e.properties }))

/-- Nothing says whether somebody speaks. Reference: `XmlRpcMcuClient.java:129`. -/
def vadNone : Integer := ⟨0, by decide, by decide⟩

/-- A template whose mixer or profile is not there is left out. Reference:
`ConferenceMngr.java:223`. -/
def loadTemplate (mixers : List (Str × MediaMixer)) (profiles : List (Str × Profile)) (e : Element) :
    Option (Option (Str × ConferenceTemplate)) :=
  (e.getNamedItem "mixer").bind fun mixerUID =>
  (e.getNamedItem "profile").bind fun profileUID =>
    match SortedMap.get? mixerUID mixers, SortedMap.get? profileUID profiles with
    | some mixer, some profile =>
      (e.getNamedItem "name").bind fun name =>
      (e.getNamedItem "did").bind fun did =>
      (e.getInteger "size").bind fun size =>
      (e.getInteger "compType").bind fun compType =>
      (e.getNamedItem "audioCodecs").bind fun audioCodecs =>
      (e.getNamedItem "videoCodecs").bind fun videoCodecs =>
      (e.getNamedItem "textCodecs").bind fun textCodecs =>
        some (some (did, {
          uid := did, name, did, mixer, size, compType
          vad := (e.getInteger "vad").getD vadNone
          profile
          autoAccept := ((e.getNamedItem "autoAccept").map parseBoolean).getD false
          audioCodecs, videoCodecs, textCodecs
          properties := .ofEntries e.properties }))
    | _, _ => some none

/-- What the manager keeps: each object by its identifier, and templates of mixers and profiles that
it has. Reference: `ConferenceMngr.java:77`. -/
structure Config where
  mixers : List (Str × MediaMixer)
  profiles : List (Str × Profile)
  templates : List (Str × ConferenceTemplate)
  sorted_mixers : SortedMap.Sorted mixers
  sorted_profiles : SortedMap.Sorted profiles
  sorted_templates : SortedMap.Sorted templates
  uid_mixers : ∀ e ∈ mixers, e.2.uid = e.1
  uid_profiles : ∀ e ∈ profiles, e.2.uid = e.1
  uid_templates : ∀ e ∈ templates, e.2.uid = e.1
  mixer_templates : ∀ e ∈ templates, SortedMap.get? e.2.mixer.uid mixers = some e.2.mixer
  profile_templates : ∀ e ∈ templates, SortedMap.get? e.2.profile.uid profiles = some e.2.profile

/-- The maps that are loaded from the three files. Reference: `ConferenceMngr.java:120`. -/
def loadConfiguration (mixersXml profilesXml templatesXml : List Element) :
    List (Str × MediaMixer) × List (Str × Profile) × List (Str × ConferenceTemplate) :=
  let mixers := loadFile (loadMixer valid resolves) mixersXml
  let profiles := loadFile loadProfile profilesXml
  (mixers, profiles, loadFile (loadTemplate mixers profiles) templatesXml)

/-- In whatever order the maps are written, the same comes back. -/
def Config.RoundTrips (c : Config) : Prop :=
  ∀ (mixers : List MediaMixer) (profiles : List Profile) (templates : List ConferenceTemplate),
    mixers.Perm (c.mixers.map Prod.snd) → profiles.Perm (c.profiles.map Prod.snd) →
      templates.Perm (c.templates.map Prod.snd) →
        loadConfiguration valid resolves (mixers.map MediaMixer.save) (profiles.map Profile.save)
          (templates.map ConferenceTemplate.save) = (c.mixers, c.profiles, c.templates)

/-! ## One file -/

section File

variable {V : Type} {load : Element → Option (Option (Str × V))}

theorem mem_loadAll {doc : List Element} {m : List (Str × V)} {entry : Str × V}
    (h : entry ∈ loadAll load doc m) :
    entry ∈ m ∨ ∃ e ∈ doc, load e = some (some entry) := by
  induction doc generalizing m with
  | nil => exact .inl h
  | cons e doc ih =>
    rw [loadAll] at h
    split at h
    · exact .inl h
    · exact (ih h).imp id fun ⟨e', he', hload⟩ => ⟨e', List.mem_cons_of_mem _ he', hload⟩
    · rename_i entry' hentry
      rcases ih h with hm | ⟨e', he', hload⟩
      · rcases SortedMap.mem_set hm with rfl | hm
        · exact .inr ⟨e, List.mem_cons_self, hentry⟩
        · exact .inl hm
      · exact .inr ⟨e', List.mem_cons_of_mem _ he', hload⟩

theorem mem_loadFile {doc : List Element} {entry : Str × V} (h : entry ∈ loadFile load doc) :
    (∀ e ∈ doc, ∀ s ∈ e.texts, Legal s) ∧ ∃ e ∈ doc, load e = some (some entry) := by
  rw [loadFile, parseWritten] at h
  split at h
  · exact absurd h List.not_mem_nil
  · rename_i hparse
    split at hparse
    case isTrue hlegal =>
      cases hparse
      exact ⟨hlegal, (mem_loadAll h).resolve_left List.not_mem_nil⟩
    case isFalse => cases hparse

variable {save : V → Element} {key : V → Str} {l : List V} {m : List (Str × V)}

theorem loadFile_eq (hlegal : ∀ v ∈ l, ∀ s ∈ (save v).texts, Legal s)
    (hload : ∀ v ∈ l, load (save v) = some (some (key v, v))) :
    loadFile load (l.map save) = SortedMap.ofEntries (l.map fun v => (key v, v)) := by
  have hall : ∀ m, loadAll load (l.map save) m =
      (l.map fun v => (key v, v)).foldl (fun m e => SortedMap.set e.1 e.2 m) m := by
    clear hlegal
    induction l with
    | nil => exact fun _ => rfl
    | cons v l ih =>
      intro m
      rw [List.map_cons, loadAll, hload v List.mem_cons_self]
      exact ih (fun w hw => hload w (List.mem_cons_of_mem _ hw)) _
  have hdoc : ∀ e ∈ l.map save, ∀ s ∈ e.texts, Legal s := by
    intro e he
    obtain ⟨v, hv, rfl⟩ := List.mem_map.1 he
    exact hlegal v hv
  rw [loadFile, parseWritten, if_pos hdoc]
  exact hall []

theorem loadFile_of_perm (hm : SortedMap.Sorted m) (hkey : ∀ e ∈ m, key e.2 = e.1)
    (hperm : l.Perm (m.map Prod.snd)) (hlegal : ∀ e ∈ m, ∀ s ∈ (save e.2).texts, Legal s)
    (hload : ∀ e ∈ m, load (save e.2) = some (some (key e.2, e.2))) :
    loadFile load (l.map save) = m := by
  have hmem : ∀ v ∈ l, ∃ e ∈ m, e.2 = v := fun v hv =>
    List.mem_map.1 (hperm.mem_iff.1 hv)
  rw [@loadFile_eq _ load save key l]
  · refine SortedMap.ofEntries_eq hm (fun e he => ?_) fun k hk => ?_
    · obtain ⟨v, hv, rfl⟩ := List.mem_map.1 he
      obtain ⟨e, hmem, rfl⟩ := hmem v hv
      dsimp only
      rw [hkey e hmem]
      exact hm.get?_of_mem hmem
    · obtain ⟨e, he, rfl⟩ := List.mem_map.1 hk
      refine List.mem_map.2 ⟨(key e.2, e.2), List.mem_map.2 ⟨e.2, ?_, rfl⟩, hkey e he⟩
      exact hperm.mem_iff.2 (List.mem_map_of_mem he)
  · intro v hv
    obtain ⟨e, he, rfl⟩ := hmem v hv
    exact hlegal e he
  · intro v hv
    obtain ⟨e, he, rfl⟩ := hmem v hv
    exact hload e he

theorem exists_of_loadFile (h : loadFile load ((m.map Prod.snd).map save) = m) {e : Str × V}
    (he : e ∈ m) : (∀ s ∈ (save e.2).texts, Legal s) ∧
      ∃ e' ∈ m, load (save e'.2) = some (some e) := by
  obtain ⟨hlegal, el, hel, hload⟩ := mem_loadFile (h.symm ▸ he : e ∈ loadFile load _)
  obtain ⟨v, hv, rfl⟩ := List.mem_map.1 hel
  obtain ⟨e', he', rfl⟩ := List.mem_map.1 hv
  exact ⟨hlegal _ (List.mem_map_of_mem (List.mem_map_of_mem he)), e', he', hload⟩

end File

/-! ## What is loaded of an element that was saved -/

theorem loadMixer_save (m : MediaMixer) : loadMixer valid resolves m.save =
    match MediaMixer.new valid resolves m.name m.name m.url m.ip m.publicIp m.localNet.toString with
    | .created mixer => some (some (mixer.uid, mixer))
    | .malformed => some none
    | .thrown => none := rfl

variable {mixers : List (Str × MediaMixer)} {profiles : List (Str × Profile)}

section Save

variable {e : Element} {name : String} {s : Str} {n : Integer}

theorem getInteger_of_toString (h : e.getNamedItem name = some n.toString) :
    e.getInteger name = some n := by
  rw [Element.getInteger, h, Option.bind_some, Integer.parseInt_toString]

theorem loadProfile_save (p : Profile) : loadProfile p.save = some (some (p.uid, p)) := by
  have huid : p.save.getNamedItem "uid" = some p.uid := rfl
  have hname : p.save.getNamedItem "name" = some p.name := rfl
  have hmax : p.save.getNamedItem "maxVideoBitrate" = some p.maxVideoBitrate.toString := rfl
  have hrate : p.save.getNamedItem "audioRate" = some p.audioRate.toString := rfl
  have hproperties : Properties.ofEntries p.save.properties = p.properties :=
    Properties.ofEntries_of_perm (.refl _)
  rw [loadProfile, huid, Option.bind_some, hname, Option.bind_some,
    @getInteger_of_toString _ _ p.videoSize rfl, Option.bind_some,
    @getInteger_of_toString _ _ p.videoBitrate rfl, Option.bind_some,
    @getInteger_of_toString _ _ p.videoFPS rfl, Option.bind_some,
    @getInteger_of_toString _ _ p.intraPeriod rfl, Option.bind_some, hmax, Option.elim_some,
    Integer.parseInt_toString, Option.bind_some, hrate, Option.elim_some,
    Integer.parseInt_toString, Option.bind_some, hproperties]

theorem loadTemplate_save (t : ConferenceTemplate) {mixer : MediaMixer} {profile : Profile}
    (hmixer : SortedMap.get? t.mixer.uid mixers = some mixer)
    (hprofile : SortedMap.get? t.profile.uid profiles = some profile) :
    loadTemplate mixers profiles t.save =
      some (some (t.did, { t with uid := t.did, mixer, profile })) := by
  have hmixer' : t.save.getNamedItem "mixer" = some t.mixer.uid := rfl
  have hprofile' : t.save.getNamedItem "profile" = some t.profile.uid := rfl
  have hname : t.save.getNamedItem "name" = some t.name := rfl
  have hdid : t.save.getNamedItem "did" = some t.did := rfl
  have haccept : t.save.getNamedItem "autoAccept" = some (boolToString t.autoAccept) := rfl
  have haudio : t.save.getNamedItem "audioCodecs" = some t.audioCodecs := rfl
  have hvideo : t.save.getNamedItem "videoCodecs" = some t.videoCodecs := rfl
  have htext : t.save.getNamedItem "textCodecs" = some t.textCodecs := rfl
  have hproperties : Properties.ofEntries t.save.properties = t.properties :=
    Properties.ofEntries_of_perm (.refl _)
  rw [loadTemplate, hmixer', Option.bind_some, hprofile', Option.bind_some, hmixer, hprofile]
  dsimp only
  rw [hname, Option.bind_some, hdid, Option.bind_some, @getInteger_of_toString _ _ t.size rfl,
    Option.bind_some, @getInteger_of_toString _ _ t.compType rfl, Option.bind_some, haudio,
    Option.bind_some, hvideo, Option.bind_some, htext, Option.bind_some,
    @getInteger_of_toString _ _ t.vad rfl, Option.getD_some, haccept, Option.map_some,
    parseBoolean_toString, Option.getD_some, hproperties]

theorem loadTemplate_save_self {t : ConferenceTemplate}
    (hmixer : SortedMap.get? t.mixer.uid mixers = some t.mixer)
    (hprofile : SortedMap.get? t.profile.uid profiles = some t.profile) (hdid : t.did = t.uid) :
    loadTemplate mixers profiles t.save = some (some (t.uid, t)) := by
  rw [loadTemplate_save t hmixer hprofile]
  cases t
  cases hdid
  rfl

theorem did_of_loadTemplate
    {entry : Str × ConferenceTemplate} (h : loadTemplate mixers profiles e = some (some entry)) :
    entry.2.did = entry.2.uid := by
  rw [loadTemplate] at h
  obtain ⟨mixerUID, -, h⟩ := Option.bind_eq_some_iff.1 h
  obtain ⟨profileUID, -, h⟩ := Option.bind_eq_some_iff.1 h
  split at h
  · obtain ⟨name, -, h⟩ := Option.bind_eq_some_iff.1 h
    obtain ⟨did, -, h⟩ := Option.bind_eq_some_iff.1 h
    obtain ⟨size, -, h⟩ := Option.bind_eq_some_iff.1 h
    obtain ⟨compType, -, h⟩ := Option.bind_eq_some_iff.1 h
    obtain ⟨audioCodecs, -, h⟩ := Option.bind_eq_some_iff.1 h
    obtain ⟨videoCodecs, -, h⟩ := Option.bind_eq_some_iff.1 h
    obtain ⟨textCodecs, -, h⟩ := Option.bind_eq_some_iff.1 h
    cases h
    rfl
  · cases h

end Save

namespace SubNetInfo

theorem parse_toString_iff (n : SubNetInfo) : parse resolves n.toString = n ↔ n.Kept resolves := by
  have hmask : n.mask.toString.takeWhile (· ≠ '/') = n.mask.toString := by
    rw [List.takeWhile_eq_self_iff]
    intro c hc
    rcases Integer.toString_chars hc with rfl | hdigit
    · decide
    · refine decide_eq_true ?_
      rintro rfl
      cases hdigit
  rw [Kept]
  by_cases hslash : '/' ∈ n.subnet
  · refine iff_of_false (fun h => ?_) ?_
    · have hsubnet : '/' ∉ (parse resolves n.toString).subnet := by
        have htake : '/' ∉ n.toString.takeWhile (· ≠ '/') := by
          intro hmem
          have hne := List.mem_takeWhile_imp hmem
          exact absurd hne (by decide)
        rw [parse]
        split
        · decide
        · split
          · decide
          · split
            · exact htake
            · decide
      exact hsubnet (h.symm ▸ hslash)
    · rintro (hany | ⟨hnot, -⟩)
      · rw [hany] at hslash
        exact absurd hslash (by decide)
      · exact hnot hslash
  · have hall : ∀ c ∈ n.subnet, decide (c ≠ '/') = true := fun c hc =>
      decide_eq_true fun heq => hslash (heq ▸ hc)
    have htake : n.toString.takeWhile (· ≠ '/') = n.subnet := by
      rw [toString, List.takeWhile_append_of_pos hall]
      exact List.append_nil _
    have hdrop : n.toString.dropWhile (· ≠ '/') = '/' :: n.mask.toString := by
      rw [toString, List.dropWhile_append_of_pos hall]
      rfl
    rw [parse, hdrop]
    dsimp only
    rw [hmask, Integer.parseInt_toString, htake]
    dsimp only
    split
    case isTrue hresolves => exact iff_of_true rfl (.inr ⟨hslash, hresolves⟩)
    case isFalse hresolves =>
      rw [or_iff_left fun h => hresolves h.2]
      exact eq_comm

theorem legal_toString_iff (n : SubNetInfo) : Legal n.toString ↔ Legal n.subnet := by
  constructor
  · exact fun h c hc => h c (List.mem_append_left _ hc)
  · intro h c hc
    rcases List.mem_append.1 hc with hc | hc
    · exact h c hc
    · rcases List.mem_cons.1 hc with rfl | hc
      · decide
      · exact legal_toString _ c hc

end SubNetInfo

/-! ## What comes back -/

/-- All keys and values are texts of documents. -/
def Properties.Legal (p : Properties) : Prop := ∀ e ∈ p.entries, Web.Legal e.1 ∧ Web.Legal e.2

/-- The mixer that comes back: the name is the identifier, the address does not end with a slash and
is accepted, and the net is parsed again. -/
def MediaMixer.Kept (m : MediaMixer) : Prop :=
  m.name = m.uid ∧ m.url.getLast? ≠ some '/' ∧ valid (m.url ++ "/mcu".toList) = true ∧
    m.localNet.Kept resolves ∧ Legal m.name ∧ Legal m.url ∧ Legal m.ip ∧ Legal m.publicIp ∧
      Legal m.localNet.subnet

/-- The profile that comes back. -/
def Profile.Kept (p : Profile) : Prop := Legal p.uid ∧ Legal p.name ∧ p.properties.Legal

/-- The template that comes back, when its mixer and its profile do: the number is the identifier.
-/
def ConferenceTemplate.Kept (t : ConferenceTemplate) : Prop :=
  t.did = t.uid ∧ Legal t.name ∧ Legal t.did ∧ Legal t.audioCodecs ∧ Legal t.videoCodecs ∧
    Legal t.textCodecs ∧ t.properties.Legal

theorem legal_properties_iff (p : Properties) :
    (∀ s ∈ p.entries.map Prod.fst ++ p.entries.map Prod.snd, Legal s) ↔ p.Legal := by
  simp only [List.mem_append, List.mem_map, or_imp, forall_and, forall_exists_index, and_imp,
    forall_apply_eq_imp_iff₂, Properties.Legal]

theorem MediaMixer.legal_save_iff (m : MediaMixer) : (∀ s ∈ m.save.texts, Legal s) ↔
    Legal m.name ∧ Legal m.url ∧ Legal m.ip ∧ Legal m.publicIp ∧ Legal m.localNet.subnet := by
  rw [Element.texts, save]
  simp only [List.map_cons, List.map_nil, List.append_nil, List.forall_mem_cons,
    SubNetInfo.legal_toString_iff, List.not_mem_nil, false_imp_iff, implies_true, and_true]
  exact and_iff_right_of_imp fun h => h.1

theorem Profile.legal_save_iff (p : Profile) : (∀ s ∈ p.save.texts, Legal s) ↔ p.Kept := by
  rw [Element.texts, List.forall_mem_append, save, legal_properties_iff, Kept]
  simp only [List.map_cons, List.map_nil, List.forall_mem_cons, legal_toString, List.not_mem_nil,
    false_imp_iff, implies_true, and_true, and_assoc]

theorem ConferenceTemplate.legal_save_iff (t : ConferenceTemplate) :
    (∀ s ∈ t.save.texts, Legal s) ↔ Legal t.name ∧ Legal t.did ∧ Legal t.mixer.uid ∧
      Legal t.profile.uid ∧ Legal t.audioCodecs ∧ Legal t.videoCodecs ∧ Legal t.textCodecs ∧
        t.properties.Legal := by
  rw [Element.texts, List.forall_mem_append, save, legal_properties_iff]
  simp only [List.map_cons, List.map_nil, List.forall_mem_cons, legal_toString, legal_boolToString,
    true_and, List.not_mem_nil, false_imp_iff, implies_true, and_true, and_assoc]

namespace MediaMixer

variable {valid resolves} {m : MediaMixer}

theorem withoutSlash_eq_self_iff (url : Str) :
    withoutSlash url = some url ↔ url.getLast? ≠ some '/' := by
  rw [withoutSlash]
  split
  case isTrue hslash =>
    refine iff_of_false (fun h => ?_) (not_not_intro hslash)
    split at h
    · cases h
    · have hlength := congrArg List.length (Option.some.inj h)
      rw [List.length_take] at hlength
      omega
  case isFalse hslash => exact iff_of_true rfl hslash

theorem names_of_loadMixer {entry : Str × MediaMixer}
    (h : loadMixer valid resolves m.save = some (some entry)) :
    entry.1 = m.name ∧ entry.2.uid = m.name ∧ entry.2.name = m.name := by
  rw [loadMixer_save, new] at h
  split at h
  · rename_i mixer hnew
    cases h
    split at hnew
    · cases hnew
    · split at hnew
      · cases hnew
        exact ⟨rfl, rfl, rfl⟩
      · cases hnew
  · cases h
  · cases h

theorem loadMixer_save_iff (hname : m.name = m.uid) :
    loadMixer valid resolves m.save = some (some (m.uid, m)) ↔
      m.url.getLast? ≠ some '/' ∧ valid (m.url ++ "/mcu".toList) = true ∧
        m.localNet.Kept resolves := by
  rw [loadMixer_save, new, ← withoutSlash_eq_self_iff, ← SubNetInfo.parse_toString_iff]
  cases hurl : withoutSlash m.url with
  | none => exact iff_of_false (fun h => by cases h) fun h => by cases h.1
  | some stored =>
    dsimp only
    by_cases hvalid : valid (m.url ++ "/mcu".toList) = true
    · rw [if_pos hvalid]
      dsimp only
      rw [hname, Option.some.injEq, Option.some.injEq, Option.some.injEq, Prod.mk.injEq,
        and_iff_right rfl, and_iff_right hvalid]
      cases m
      cases hname
      rw [MediaMixer.mk.injEq]
      simp only [true_and]
    · rw [if_neg hvalid]
      exact iff_of_false (fun h => by cases h) fun h => hvalid h.2.1

end MediaMixer

section Named

def namedMixer : MediaMixer where
  uid := ['u']
  name := ['m']
  url := "http://h:8080".toList
  ip := "10.0.0.1".toList
  publicIp := "10.0.0.1".toList
  localNet := .any

def namedProfile : Profile := ⟨['p'], ['p'], vadNone, vadNone, vadNone, vadNone, vadNone, vadNone, {}⟩

def namedTemplate : ConferenceTemplate where
  uid := ['1']
  name := ['t']
  did := ['1']
  mixer := namedMixer
  size := vadNone
  compType := vadNone
  vad := vadNone
  profile := namedProfile
  autoAccept := true
  audioCodecs := []
  videoCodecs := []
  textCodecs := []

theorem uid_namedMixer : ∀ e ∈ [((['u'] : Str), namedMixer)], e.2.uid = e.1 := by decide

theorem uid_namedProfile : ∀ e ∈ [((['p'] : Str), namedProfile)], e.2.uid = e.1 := by decide

theorem uid_namedTemplate : ∀ e ∈ [((['1'] : Str), namedTemplate)], e.2.uid = e.1 := by decide

theorem mixer_namedTemplate : ∀ e ∈ [((['1'] : Str), namedTemplate)],
    SortedMap.get? e.2.mixer.uid [((['u'] : Str), namedMixer)] = some e.2.mixer := by decide

theorem profile_namedTemplate : ∀ e ∈ [((['1'] : Str), namedTemplate)],
    SortedMap.get? e.2.profile.uid [((['p'] : Str), namedProfile)] = some e.2.profile := by decide

end Named

namespace Config

variable {valid resolves} (c : Config)

/-- **What the manager keeps comes back** exactly when each mixer, profile and template does. -/
theorem saved_roundTrips_iff : c.RoundTrips valid resolves ↔
    (∀ e ∈ c.mixers, e.2.Kept valid resolves) ∧ (∀ e ∈ c.profiles, e.2.Kept) ∧
      ∀ e ∈ c.templates, e.2.Kept := by
  constructor
  · intro h
    have hload := h _ _ _ (.refl _) (.refl _) (.refl _)
    rw [loadConfiguration, Prod.mk.injEq, Prod.mk.injEq] at hload
    obtain ⟨hmixers, hprofiles, htemplates⟩ := hload
    refine ⟨fun e he => ?_, fun e he => ?_, fun e he => ?_⟩
    · have hname : ∀ e ∈ c.mixers, e.2.name = e.2.uid := by
        intro e he
        obtain ⟨-, e', -, hload⟩ := exists_of_loadFile hmixers he
        obtain ⟨-, huid, hname⟩ := MediaMixer.names_of_loadMixer hload
        exact hname.trans huid.symm
      obtain ⟨hlegal, e', he', hload⟩ := exists_of_loadFile hmixers he
      -- The mixer that was written under this identifier is the one that has it.
      have hkey : e.1 = e'.1 := by
        rw [(MediaMixer.names_of_loadMixer hload).1, hname e' he', c.uid_mixers e' he']
      have hsame : e' = e := by
        have hget := c.sorted_mixers.get?_of_mem he'
        rw [← hkey, c.sorted_mixers.get?_of_mem he] at hget
        exact Prod.ext hkey.symm (Option.some.inj hget).symm
      have hentry : e = (e.2.uid, e.2) := Prod.ext (c.uid_mixers e he).symm rfl
      rw [hsame] at hload
      obtain ⟨hslash, hvalid, hnet⟩ := (MediaMixer.loadMixer_save_iff (hname e he)).1
        (hload.trans (congrArg (fun entry => some (some entry)) hentry))
      exact ⟨hname e he, hslash, hvalid, hnet, (MediaMixer.legal_save_iff _).1 hlegal⟩
    · exact (Profile.legal_save_iff _).1 (exists_of_loadFile hprofiles he).1
    · obtain ⟨hlegal, e', -, hload⟩ := exists_of_loadFile htemplates he
      obtain ⟨hname, hdid, -, -, hcodecs⟩ := (ConferenceTemplate.legal_save_iff _).1 hlegal
      exact ⟨did_of_loadTemplate hload, hname, hdid, hcodecs⟩
  · rintro ⟨hmixers, hprofiles, htemplates⟩ mixers profiles templates hmperm hpperm htperm
    have hmixers' := loadFile_of_perm c.sorted_mixers c.uid_mixers hmperm
      (fun e he => (MediaMixer.legal_save_iff _).2 (hmixers e he).2.2.2.2)
      fun e he => (MediaMixer.loadMixer_save_iff (hmixers e he).1).2
        ⟨(hmixers e he).2.1, (hmixers e he).2.2.1, (hmixers e he).2.2.2.1⟩
    have hprofiles' := loadFile_of_perm c.sorted_profiles c.uid_profiles hpperm
      (fun e he => (Profile.legal_save_iff _).2 (hprofiles e he))
      fun e _ => loadProfile_save e.2
    rw [loadConfiguration, hmixers', hprofiles']
    refine congrArg (fun t => (c.mixers, c.profiles, t)) ?_
    refine loadFile_of_perm c.sorted_templates c.uid_templates htperm (fun e he => ?_) fun e he => ?_
    · obtain ⟨-, hname, hdid, hcodecs⟩ := htemplates e he
      have hmixer := hmixers _ (SortedMap.mem_of_get? (c.mixer_templates e he))
      have hprofile := hprofiles _ (SortedMap.mem_of_get? (c.profile_templates e he))
      have hlegal : Legal e.2.mixer.uid := by
        rw [← hmixer.1]
        exact hmixer.2.2.2.2.1
      exact (ConferenceTemplate.legal_save_iff _).2 ⟨hname, hdid, hlegal, hprofile.1, hcodecs⟩
    · exact loadTemplate_save_self (c.mixer_templates e he) (c.profile_templates e he)
        (htemplates e he).1

/-- A mixer with a name that is not its identifier, a profile, and a template of them. -/
def named : Config where
  mixers := [(['u'], namedMixer)]
  profiles := [(['p'], namedProfile)]
  templates := [(['1'], namedTemplate)]
  sorted_mixers := List.pairwise_singleton _ _
  sorted_profiles := List.pairwise_singleton _ _
  sorted_templates := List.pairwise_singleton _ _
  uid_mixers := uid_namedMixer
  uid_profiles := uid_namedProfile
  uid_templates := uid_namedTemplate
  mixer_templates := mixer_namedTemplate
  profile_templates := profile_namedTemplate

/-- The mixer comes back under its name, and the template is lost. -/
theorem not_roundTrips_named :
    ¬named.RoundTrips (fun _ => true) fun _ => true := by
  intro h
  have hload := h _ _ _ (.refl _) (.refl _) (.refl _)
  revert hload
  decide

end Config

end Web

end McuMediaServer
