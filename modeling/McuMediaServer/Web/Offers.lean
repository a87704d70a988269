import McuMediaServer.Web.Negotiation

/-!
# What descriptions offer

After each description that a participant has processed, what it sends of a medium is to follow that
description: the codec is the first of the supported ones among those that are offered, address and
port are those of the medium that offers it, and the extensions have the ids that the description
gives them (`RTPParticipant.Follows`). A description renews what the participant has when none of
what it has kept of the descriptions before gets in the way (`RTPParticipant.Renews`).

What is read of the formats is what is offered (`Formats.reads`).
-/

namespace McuMediaServer.Web.Negotiation

open Sdp (Own Attribute Connection MediaDescription SessionDescription equalsIgnoreCase getAttribute
  hasAttribute getAttributes getRTPMap getFormatParameters)

/-! ## What a description offers -/

/-- The profile of H.264 that is told of a payload type is supported, or none is told. -/
def profileSupported (md : MediaDescription Own) (type : Int) : Bool :=
  match ((getFormatParameters type md.attributes).join).bind (·.get? "profile-level-id") with
  | none => true
  | some value => (value.bind H264ProfileLevelID.parse).any fun id =>
      id.profile ≤ Codecs.maxH264SupportedProfile

/-- The codec of a payload type: the numbers below 96 stand for themselves, and the others are
mapped by name. Of SPEEX only that of 16 kHz is meant, and of H.264 the profiles that are supported.
-/
def codecOf (m : Media) (md : MediaDescription Own) (type : Int) : Option Int :=
  if type < 96 then some type
  else match (getRTPMap type md.attributes).join with
    | some (some name, rate) =>
      (some (Codecs.getCodecForName m name)).filter fun codec =>
        codec ≠ -1 ∧ (codec = Codecs.speex16 → rate = some 16000) ∧
          (codec = Codecs.h264 → profileSupported md type = true)
    | _ => none

/-- The payload type of a format with its codec. -/
def offer (m : Media) (md : MediaDescription Own) (fmt : Option Str) : Option (Int × Int) :=
  (fmt.bind Integer.parseInt).bind fun type =>
    (codecOf m md type.val).map fun codec => (type.val, codec)

/-- The payload types of a medium with their codecs. -/
def offered (m : Media) (md : MediaDescription Own) : List (Int × Int) :=
  md.formats.filterMap (offer m md)

/-- A video that is said to show something else than the main content is not accepted. -/
def showsMain (md : MediaDescription Own) : Bool :=
  match readContent md.attributes with
  | some (.other _) => false
  | _ => true

/-- What a medium of a description is accepted as: it is RTP, and its port is not zero. -/
def acceptedAs (md : MediaDescription Own) : Option Media :=
  if transport md = some "RTP".toList ∧ md.port ≠ some 0 then
    (md.media.bind Media.ofName?).filter fun m => m ≠ .video ∨ showsMain md = true
  else none

/-- The media of a description that are accepted as one. -/
def lines (m : Media) (mds : List (MediaDescription Own)) : List (MediaDescription Own) :=
  mds.filter fun md => acceptedAs md = some m

/-- The address of the last connection of a medium, or that of the session. -/
def addressOf (sdp : SessionDescription Own) (md : MediaDescription Own) : Option Str :=
  match md.connections.getLast? with
  | some c => c.address
  | none => sdp.connection.bind Sdp.Connection.address

/-- The address of a medium is not used as it is: it is translated, or it is not one of IPv4. -/
def Natted (nated : Option Str → Bool) (useICE : Bool) (sdp : SessionDescription Own)
    (md : MediaDescription Own) : Prop :=
  useICE = true ∨ nated (addressOf sdp md) = true ∨
    md.connections = [] ∧ ∃ conn ∈ sdp.connection, ∃ addrType ∈ conn.addrType,
      equalsIgnoreCase addrType "IP4" = false

/-- The ids that a medium gives to an extension. -/
def extensionIds (name : Str) (md : MediaDescription Own) : List Int :=
  md.attributes.filterMap fun attr =>
    match attr with
    | .extMap id _ n _ => if n = some name then id else none
    | _ => none

namespace RTPParticipant

variable (p : RTPParticipant) (m : Media)

/-- The index of a codec in the list of the supported ones. -/
def rank (codec : Int) : Option Nat :=
  if isRepair m codec then none else ((p.supportedCodecs m).getD []).idxOf? codec

/-- The indexes of the codecs that a medium offers. -/
def ranks (md : MediaDescription Own) : List Nat :=
  (offered m md).filterMap fun e => p.rank m e.2

/-- The codec to which a payload type is bound. -/
def bound (type : Int) : Option Int :=
  (p.rtpOutMediaMap m).bind (·.get? type)

local instance lawfulBEq_str : LawfulBEq Str := inferInstance

/-- The id with which an extension is sent. -/
def extensionId (name : Str) : Option (Option Str) :=
  if name ∈ (supportedExtensions m).getD [] then (p.rtpMediaProperties m).get? name else none

/-- What is sent is a codec that a medium of the description offers, none that is supported before
it, and it is sent to that medium, with a payload type of the description. -/
structure Sends (nated : Option Str → Bool) (sdp : SessionDescription Own)
    (md : MediaDescription Own) (codec : Int) (r : Nat) : Prop where
  offers : codec ∈ (offered m md).map Prod.snd
  index : p.rank m codec = some r
  first : ∀ md ∈ lines m sdp.medias, ∀ r' ∈ p.ranks m md, r ≤ r'
  chosen : (p.sender m).codec = some codec
  port : md.port = some (p.sender m).port
  ip : (p.sender m).ip = addressOf sdp md ∨
    (p.sender m).ip = anyAddress ∧ Natted nated p.useICE sdp md
  type : ∃ type, (type, codec) ∈ offered m md ∧ p.bound m type = some codec

/-- The participant follows a description in what it sends of a medium. -/
structure Follows (nated : Option Str → Bool) (sdp : SessionDescription Own) : Prop where
  sends : (∃ md ∈ lines m sdp.medias, p.ranks m md ≠ []) →
    ∃ md ∈ lines m sdp.medias, ∃ codec r, p.Sends m nated sdp md codec r
  silent : (∀ md ∈ lines m sdp.medias, p.ranks m md = []) → (p.sender m).port = 0
  extensions : lines m sdp.medias ≠ [] → ∀ name ∈ (supportedExtensions m).getD [],
    (∀ id, p.extensionId m name = some id → ∃ md ∈ lines m sdp.medias,
      ∃ n ∈ extensionIds name md, id = some (toString n).toList) ∧
    ((∃ md ∈ lines m sdp.medias, extensionIds name md ≠ []) → p.extensionId m name ≠ none)

end RTPParticipant

/-! ## When it can be read -/

/-- What is read of a medium that is accepted is there and can be parsed. -/
def Readable (m : Media) (md : MediaDescription Own) : Prop :=
  (iceCredentials md.attributes).isSome ∧ (overDTLS md).isSome ∧ (md.proto.getLast?.join).isSome ∧
  (readFingerprint md.attributes).isSome ∧ (readSetup md.attributes).isSome ∧
  (readCrypto md.attributes).isSome ∧ (readFormats m md).isSome ∧
  ∀ names ∈ supportedExtensions m, (readExtensions names md).isSome

/-- What is read of a medium is there and can be parsed. -/
def ReadableMedia (md : MediaDescription Own) : Prop :=
  (transport md).isSome ∧
  (transport md = some "RTP".toList → md.port.isSome ∧ (md.port ≠ some 0 →
    md.media.isSome ∧ (lowestRate kilobits md.bandwidths).isSome ∧
    (hasAttribute "rtcp-mux" md.attributes).isSome ∧
    (hasAttribute "rtcp-mux" md.attributes = some true → (md.media.bind Media.ofName?).isSome) ∧
    (readMid md.attributes).isSome ∧ (readDirection md.attributes).isSome ∧
    (md.media = some Media.video.name → (readContent md.attributes).isSome) ∧
    ∀ m ∈ acceptedAs md, Readable m md))

/-- What is read of a description is there and can be parsed. -/
def ReadableSession (sdp : SessionDescription Own) : Prop :=
  (∀ conn ∈ sdp.connection, conn.addrType.isSome) ∧ (sessionBitrate sdp).isSome ∧
  (iceCredentials sdp.attributes).isSome ∧ (readFingerprint sdp.attributes).isSome ∧
  ∀ md ∈ sdp.medias, ReadableMedia md

instance (m : Media) (md : MediaDescription Own) : Decidable (Readable m md) :=
  inferInstanceAs (Decidable (_ ∧ _))

instance (md : MediaDescription Own) : Decidable (ReadableMedia md) :=
  inferInstanceAs (Decidable (_ ∧ _))

instance (sdp : SessionDescription Own) : Decidable (ReadableSession sdp) :=
  inferInstanceAs (Decidable (_ ∧ _))

/-- The bindings that a medium makes. -/
def bindings (m : Media) (md : MediaDescription Own) : List (Int × Int) :=
  (readFormats m md).elim [] Formats.bindings

namespace RTPParticipant

variable (p : RTPParticipant) (m : Media)

/-- The bindings of a participant. -/
def boundTypes : List (Int × Int) := ((p.rtpOutMediaMap m).getD .empty).entries

/-- The bindings of before that the first of some media does not make anew. -/
def stale (mds : List (MediaDescription Own)) : List (Int × Int) :=
  (p.boundTypes m).filter fun e => ∀ md ∈ mds.head?, e.1 ∉ (bindings m md).map Prod.fst

/-- A description renews what a participant has of a medium: where the description has media of it,

* the last one offers what is to be chosen, if something is,
* no codec before that is bound to a payload type that is not bound anew,
* the payload types of retransmissions have parameters,
* there is a list of the codecs, and
* the extensions that have ids get ids again. -/
def RenewsMedia (mds : List (MediaDescription Own)) : Prop :=
  (∀ md ∈ mds.getLast?, (∃ md ∈ mds, p.ranks m md ≠ []) →
    ∃ r ∈ p.ranks m md, ∀ md ∈ mds, ∀ r' ∈ p.ranks m md, r ≤ r') ∧
  (mds ≠ [] → ∀ e ∈ p.stale m mds, ∀ r ∈ p.rank m e.2, ∃ md ∈ mds, ∃ r' ∈ p.ranks m md, r' ≤ r) ∧
  (m = .video → ∀ md ∈ mds, ∀ e ∈ p.stale m mds ++ mds.flatMap (bindings m), e.2 = Codecs.rtx →
    ((getFormatParameters e.1 md.attributes).join).isSome) ∧
  (mds ≠ [] → p.boundTypes m ++ mds.flatMap (bindings m) ≠ [] → (p.supportedCodecs m).isSome) ∧
  (mds ≠ [] → ∀ name ∈ (supportedExtensions m).getD [], p.extensionId m name ≠ none →
    ∃ md ∈ mds, extensionIds name md ≠ [])

instance (mds : List (MediaDescription Own)) : Decidable (p.RenewsMedia m mds) :=
  inferInstanceAs (Decidable (_ ∧ _))

/-- A description can be read, and renews what a participant has of each medium. -/
def Renews (sdp : SessionDescription Own) : Prop :=
  ReadableSession sdp ∧ ∀ m : Media, p.RenewsMedia m (lines m sdp.medias)

end RTPParticipant

/-! ## Formats -/

/-- What has been read of the formats before: all that is put is offered, all that is offered is put
but for H.264, of which a payload type is kept. -/
structure Formats.Reads (m : Media) (md : MediaDescription Own) (offers : List (Int × Int))
    (l : Formats) : Prop where
  puts : ∀ e, e ∈ l.puts ↔ e ∈ offers ∧ e.2 ≠ Codecs.h264
  h264 : 0 < l.h264type → (l.h264type, Codecs.h264) ∈ offers
  type : ∀ type, (type, Codecs.h264) ∈ offers → 0 < l.h264type
  profile : l.maxh264profile ≠ none → 0 < l.h264type

namespace Formats

variable {m : Media} {md : MediaDescription Own} {offers : List (Int × Int)} {l l' : Formats}

variable {e : Int × Int}

theorem Reads.put (h : Reads m md offers l) (he : e.2 ≠ Codecs.h264) :
    Reads m md (offers ++ [e]) { l with puts := l.puts ++ [e] } where
  puts e' := by
    rw [List.mem_append, List.mem_append, h.puts, List.mem_singleton, or_and_right]
    exact or_congr_right ⟨fun heq => ⟨heq, heq ▸ he⟩, And.left⟩
  h264 hpos := List.mem_append_left _ (h.h264 hpos)
  type type htype := by
    rcases List.mem_append.1 htype with htype | htype
    · exact h.type type htype
    · exact absurd (List.mem_singleton.1 htype ▸ rfl) he
  profile := h.profile

variable {type : Int}

theorem Reads.keep (h : Reads m md offers l) (htype : 0 < type)
    (profile : Option H264ProfileLevelID) (packetization : Option Int) :
    Reads m md (offers ++ [(type, Codecs.h264)])
      { l with h264type := type, maxh264profile := profile, packetization } where
  puts e := by
    rw [h.puts, List.mem_append, List.mem_singleton]
    refine ⟨fun he => ⟨.inl he.1, he.2⟩, fun he => ⟨he.1.resolve_right ?_, he.2⟩⟩
    rintro rfl
    exact he.2 rfl
  h264 _ := List.mem_append_right _ (List.mem_singleton_self _)
  type _ _ := htype
  profile _ := htype

theorem Reads.pass (h : Reads m md offers l) (hprofile : l.maxh264profile ≠ none) :
    Reads m md (offers ++ [(type, Codecs.h264)]) l where
  puts e := by
    rw [h.puts, List.mem_append, List.mem_singleton]
    refine ⟨fun he => ⟨.inl he.1, he.2⟩, fun he => ⟨he.1.resolve_right ?_, he.2⟩⟩
    rintro rfl
    exact he.2 rfl
  h264 hpos := List.mem_append_left _ (h.h264 hpos)
  type _ _ := h.profile hprofile
  profile := h.profile

theorem Reads.addH264 (h : Reads m md offers l) (htype : 0 < type)
    (hadd : l.addH264 md type = some l') :
    Reads m md (offers ++ if profileSupported md type then [(type, Codecs.h264)] else []) l' := by
  rw [Formats.addH264, Option.bind_eq_some_iff] at hadd
  obtain ⟨params, hparams, hadd⟩ := hadd
  cases hvalue : params.bind (·.get? "profile-level-id") with
  | none =>
    have hprofile : profileSupported md type = true := by
      rw [profileSupported, hparams, Option.join_some, hvalue]
    rw [hvalue] at hadd
    cases hadd
    rw [if_pos hprofile]
    split
    · exact h.keep htype _ _
    case isFalse hprofile => exact h.pass hprofile
  | some value =>
    rw [hvalue] at hadd
    dsimp only at hadd
    obtain ⟨id, hid, hadd⟩ := Option.bind_eq_some_iff.1 hadd
    have hprofile : profileSupported md type =
        decide (id.profile ≤ Codecs.maxH264SupportedProfile) := by
      rw [profileSupported, hparams, Option.join_some, hvalue]
      dsimp only
      rw [hid, Option.any_some]
    rcases em (id.profile ≤ Codecs.maxH264SupportedProfile) with hle | hgt
    · rw [hprofile, if_pos (decide_eq_true hle)]
      split at hadd
      · split at hadd
        · cases hadd
          exact h.keep htype _ _
        · obtain ⟨mode, _, rfl⟩ := Option.map_eq_some_iff.1 hadd
          exact h.keep htype _ _
      case isFalse hmax =>
        cases hadd
        refine h.pass fun hnone => hmax ⟨hle, ?_⟩
        rw [hnone]
        exact fun max hmax => absurd hmax (Option.not_mem_none max)
    · rw [hprofile, if_neg fun hle => hgt (of_decide_eq_true hle), List.append_nil]
      rw [if_neg fun hboth => hgt hboth.1] at hadd
      cases hadd
      exact h

theorem codecOf_of_rtpMap (htype : 96 ≤ type) {name : Str} {rate : Option Int}
    (hmap : getRTPMap type md.attributes = some (some (some name, rate))) :
    codecOf m md type = (some (Codecs.getCodecForName m name)).filter fun codec =>
      codec ≠ -1 ∧ (codec = Codecs.speex16 → rate = some 16000) ∧
        (codec = Codecs.h264 → profileSupported md type = true) := by
  rw [codecOf, if_neg (by omega), hmap, Option.join_some]

/-- **Formats.** One format more is read. -/
theorem Reads.add (h : Reads m md offers l) {fmt : Option Str}
    (hadd : l.add m md fmt = some l') :
    Reads m md (offers ++ (offer m md fmt).toList) l' := by
  rw [Formats.add] at hadd
  cases hfmt : fmt.bind Integer.parseInt with
  | none =>
    rw [hfmt] at hadd
    cases hadd
    rw [offer, hfmt, Option.bind_none, Option.toList_none, List.append_nil]
    exact h
  | some type =>
    rw [hfmt] at hadd
    rw [offer, hfmt, Option.bind_some]
    dsimp only at hadd
    split at hadd
    case isFalse hstatic =>
      cases hadd
      rw [codecOf, if_pos (by omega)]
      exact h.put (by dsimp only; rw [Codecs.h264]; omega)
    case isTrue hdynamic =>
      obtain ⟨rtpMap, hmap, hadd⟩ := Option.bind_eq_some_iff.1 hadd
      cases rtpMap with
      | none =>
        cases hadd
        rw [codecOf, if_neg (by omega), hmap]
        simpa using h
      | some named =>
        obtain ⟨name, rate⟩ := named
        dsimp only at hadd
        obtain ⟨codecName, rfl⟩ : ∃ codecName, name = some codecName :=
          Option.isSome_iff_exists.1 (Option.isSome_of_isSome_bind (Option.isSome_of_eq_some hadd))
        rw [Option.bind_some] at hadd
        rw [codecOf_of_rtpMap hdynamic hmap]
        split at hadd
        case isTrue hh264 =>
          have hread := h.addH264 (by omega) hadd
          rw [hh264]
          cases hprofile : profileSupported md type.val with
          | true => simpa [hprofile, Option.filter, Codecs.h264, Codecs.speex16] using hread
          | false => simpa [hprofile, Option.filter, Codecs.h264, Codecs.speex16] using hread
        case isFalse hh264 =>
          split at hadd
          case isTrue hspeex =>
            obtain ⟨rate, rfl, rfl⟩ := Option.map_eq_some_iff.1 hadd
            rw [hspeex]
            split
            case isTrue hrate =>
              subst hrate
              have hne : Codecs.speex16 ≠ Codecs.h264 := by decide
              have hput := h.put (e := (type.val, Codecs.speex16)) hne
              simpa [Option.filter, Codecs.h264, Codecs.speex16] using hput
            case isFalse hrate => simpa [hrate, Option.filter, Codecs.h264, Codecs.speex16] using h
          case isFalse hspeex =>
            split at hadd
            case isTrue hnone =>
              cases hadd
              simpa [hnone, Option.filter] using h
            case isFalse hnone =>
              cases hadd
              have hput := h.put (e := (type.val, Codecs.getCodecForName m codecName)) hh264
              simpa [hnone, hspeex, hh264, Option.filter] using hput

theorem Reads.foldlM (h : Reads m md offers l) {formats : List (Option Str)}
    (hread : formats.foldlM (Formats.add m md) l = some l') :
    Reads m md (offers ++ formats.filterMap (offer m md)) l' := by
  induction formats generalizing offers l with
  | nil =>
    cases hread
    rwa [List.filterMap_nil, List.append_nil]
  | cons fmt formats ih =>
    rw [List.foldlM_cons] at hread
    obtain ⟨next, hadd, hread⟩ := Option.bind_eq_some_iff.1 hread
    have hrest := ih (h.add hadd) hread
    rw [List.append_assoc] at hrest
    rw [List.filterMap_cons]
    cases hoffer : offer m md fmt with
    | none => rwa [hoffer] at hrest
    | some e => rwa [hoffer] at hrest

theorem Reads.init (m : Media) (md : MediaDescription Own) : Reads m md [] {} where
  puts e := by simp
  h264 hpos := absurd hpos (lt_irrefl 0)
  type _ htype := absurd htype List.not_mem_nil
  profile hne := absurd rfl hne

theorem reads (hread : readFormats m md = some l) : Reads m md (offered m md) l :=
  (Reads.init m md).foldlM hread

theorem Reads.mem_offers (h : Reads m md offers l) (he : e ∈ l.bindings) : e ∈ offers := by
  rw [Formats.bindings] at he
  split at he
  case isTrue hpos =>
    rcases List.mem_append.1 he with he | he
    · exact ((h.puts e).1 he).1
    · rw [List.mem_singleton.1 he]
      exact h.h264 hpos
  case isFalse => exact ((h.puts e).1 he).1

theorem Reads.exists_binding (h : Reads m md offers l) (he : e ∈ offers) :
    ∃ type, (type, e.2) ∈ l.bindings := by
  rw [Formats.bindings]
  rcases eq_or_ne e.2 Codecs.h264 with hh264 | hh264
  · have hpos := h.type e.1 (hh264 ▸ he)
    rw [if_pos hpos, hh264]
    exact ⟨l.h264type, List.mem_append_right _ (List.mem_singleton_self _)⟩
  · refine ⟨e.1, ?_⟩
    have hput := (h.puts e).2 ⟨he, hh264⟩
    split
    · exact List.mem_append_left _ hput
    · exact hput

end Formats

variable {e : Int × Int}

section Bindings

variable {m : Media} {md : MediaDescription Own}

theorem codecOf_of_mem_offered (he : e ∈ offered m md) : codecOf m md e.1 = some e.2 := by
  obtain ⟨fmt, _, hfmt⟩ := List.mem_filterMap.1 he
  obtain ⟨type, _, htype⟩ := Option.bind_eq_some_iff.1 hfmt
  obtain ⟨codec, hcodec, rfl⟩ := Option.map_eq_some_iff.1 htype
  exact hcodec

theorem mem_offered_of_mem_bindings (he : e ∈ bindings m md) : e ∈ offered m md := by
  rw [bindings] at he
  cases hread : readFormats m md with
  | none =>
    rw [hread] at he
    exact absurd he List.not_mem_nil
  | some l =>
    rw [hread] at he
    exact (Formats.reads hread).mem_offers he

theorem exists_binding (hread : (readFormats m md).isSome)
    (he : e ∈ offered m md) : ∃ type, (type, e.2) ∈ bindings m md := by
  obtain ⟨l, hl⟩ := Option.isSome_iff_exists.1 hread
  rw [bindings, hl]
  exact (Formats.reads hl).exists_binding he

theorem get?_putAll_bindings (map : HashMap Int Int) (he : e ∈ bindings m md) :
    (map.putAll (bindings m md)).get? e.1 = some e.2 := by
  obtain ⟨codec, hmem, hget⟩ :=
    HashMap.get?_putAll_of_mem (m := map) (List.mem_map_of_mem (f := Prod.fst) he)
  have hcodec := codecOf_of_mem_offered (mem_offered_of_mem_bindings hmem)
  rw [codecOf_of_mem_offered (mem_offered_of_mem_bindings he)] at hcodec
  rw [hget, hcodec]

end Bindings

end McuMediaServer.Web.Negotiation
