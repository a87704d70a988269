import Mathlib.Data.List.ReduceOption
import McuMediaServer.Web.Offers

/-!
# The choice of what is sent

All bindings of a medium are gone through when it is accepted, and the first of the supported codecs
among them is chosen (`Chosen`). What else is read of the medium leaves that alone
(`RTPParticipant.Keeps`); `RTPParticipant.Negotiates` is all that accepting a medium does.
-/

namespace McuMediaServer.Web.Negotiation

open Sdp (Own Attribute Connection MediaDescription SessionDescription equalsIgnoreCase getAttribute
  hasAttribute getAttributes getRTPMap getFormatParameters)

/-! ## The choice -/

/-- What is sent when entries have been gone through: it is as before while there is no codec that
counts, and the first of the codecs is chosen. -/
structure Chosen (rank : Int → Option Nat) (port : Int) (ip : Option Str) (before : Sender)
    (es : List (Int × Int)) (l : Selection) : Prop where
  none : l.priority = none → l.sender = before ∧ ∀ e ∈ es, rank e.2 = none
  some : ∀ r, l.priority = some r → l.sender.port = port ∧ l.sender.ip = ip ∧
    (∃ e ∈ es, rank e.2 = some r ∧ l.sender.codec = some e.2) ∧
    ∀ e ∈ es, ∀ r', rank e.2 = some r' → r ≤ r'

namespace Selection

variable {m : Media} {port : Int} {ip : Option Str} {codec : Int}

/-- Take a codec of an index that is lower than that of the one before. -/
def take (port : Int) (ip : Option Str) (codec : Int) (l : Selection) (r : Nat) : Selection :=
  match l.priority with
  | none => { sender := { port, ip, codec := some codec }, priority := some r }
  | some q =>
    if r < q then { sender := { l.sender with codec := some codec }, priority := some r } else l

theorem step_of_eq (hrepair : isRepair m codec = false) (l : Selection) (r : Nat) :
    step m port ip codec l (codec, r) = l.take port ip codec r := by
  obtain ⟨sender, priority⟩ := l
  rw [step, if_pos ⟨rfl, hrepair⟩, take]
  cases priority with
  | none => simp
  | some q => simp

theorem step_of_ne {e : Int × Nat} (h : ¬(e.1 = codec ∧ isRepair m codec = false))
    (l : Selection) : step m port ip codec l e = l :=
  if_neg h

theorem take_of_none {l : Selection} (h : l.priority = none) (r : Nat) :
    l.take port ip codec r =
      { sender := { port, ip, codec := some codec }, priority := some r } := by
  rw [take, h]

theorem take_of_lt {l : Selection} {q r : Nat} (h : l.priority = some q) (hlt : r < q) :
    l.take port ip codec r =
      { sender := { l.sender with codec := some codec }, priority := some r } := by
  rw [take, h]
  exact if_pos hlt

theorem take_of_le {l : Selection} {q r : Nat} (h : l.priority = some q) (hle : q ≤ r) :
    l.take port ip codec r = l := by
  rw [take, h]
  exact if_neg (by omega)

theorem exists_priority_take (l : Selection) (r : Nat) :
    ∃ q ≤ r, (l.take port ip codec r).priority = some q := by
  cases h : l.priority with
  | none =>
    rw [take_of_none h]
    exact ⟨r, le_rfl, rfl⟩
  | some q =>
    rcases lt_or_ge r q with hlt | hle
    · rw [take_of_lt h hlt]
      exact ⟨r, le_rfl, rfl⟩
    · rw [take_of_le h hle]
      exact ⟨q, hle, h⟩

theorem take_take {r r' : Nat} (h : r ≤ r') (l : Selection) :
    (l.take port ip codec r).take port ip codec r' = l.take port ip codec r := by
  obtain ⟨q, hq, hpriority⟩ := exists_priority_take l r
  exact take_of_le hpriority (hq.trans h)

/-- **One codec.** Going through the list of the supported codecs takes a codec with its first index
in it. -/
theorem foldl_step (codecs : List Int) (n : Nat) (l : Selection) :
    (codecs.zipIdx n).foldl (step m port ip codec) l =
      match if isRepair m codec then none else codecs.idxOf? codec with
      | none => l
      | some r => l.take port ip codec (n + r) := by
  induction codecs generalizing n l with
  | nil => simp
  | cons c codecs ih =>
    rw [List.zipIdx_cons, List.foldl_cons, ih]
    cases hrepair : isRepair m codec with
    | true => rw [step_of_ne (by simp [hrepair]), if_pos rfl, if_pos rfl]
    | false =>
      rw [if_neg Bool.false_ne_true, if_neg Bool.false_ne_true, List.idxOf?_cons]
      by_cases hc : c = codec
      · subst hc
        rw [step_of_eq hrepair, if_pos (beq_self_eq_true c)]
        cases codecs.idxOf? c with
        | none => rfl
        | some r => exact take_take (by omega) l
      · rw [step_of_ne fun h => hc h.1, if_neg (by simpa using hc)]
        cases codecs.idxOf? codec with
        | none => rfl
        | some r =>
          dsimp only [Option.map_some]
          rw [Nat.add_assoc, Nat.add_comm 1]

end Selection

namespace Chosen

variable {rank : Int → Option Nat} {port : Int} {ip : Option Str} {before : Sender}
  {es : List (Int × Int)} {l : Selection}

theorem nil : Chosen rank port ip before [] { sender := before } where
  none _ := ⟨rfl, fun _ he => absurd he List.not_mem_nil⟩
  some _ hr := by cases hr

theorem skip (h : Chosen rank port ip before es l) {e : Int × Int} (he : rank e.2 = .none) :
    Chosen rank port ip before (es ++ [e]) l where
  none hnone := by
    refine ⟨(h.none hnone).1, fun e' he' => ?_⟩
    rcases List.mem_append.1 he' with he' | he'
    · exact (h.none hnone).2 e' he'
    · rw [List.mem_singleton.1 he', he]
  some r hr := by
    obtain ⟨hport, hip, ⟨e', he', hcodec⟩, hfirst⟩ := h.some r hr
    refine ⟨hport, hip, ⟨e', List.mem_append_left _ he', hcodec⟩, fun e'' he'' r' hr' => ?_⟩
    rcases List.mem_append.1 he'' with he'' | he''
    · exact hfirst e'' he'' r' hr'
    · rw [List.mem_singleton.1 he'', he] at hr'
      cases hr'

theorem take (h : Chosen rank port ip before es l) {e : Int × Int} {r : Nat}
    (he : rank e.2 = .some r) :
    Chosen rank port ip before (es ++ [e]) (l.take port ip e.2 r) := by
  have hmem : e ∈ es ++ [e] := List.mem_append_right _ (List.mem_singleton_self e)
  cases hpriority : l.priority with
  | none =>
    rw [Selection.take_of_none hpriority]
    refine ⟨fun hnone => absurd hnone (Option.some_ne_none r), fun q hq => ?_⟩
    cases hq
    refine ⟨rfl, rfl, ⟨e, hmem, he, rfl⟩, fun e' he' r' hr' => ?_⟩
    rcases List.mem_append.1 he' with he' | he'
    · rw [(h.none hpriority).2 e' he'] at hr'
      cases hr'
    · rw [List.mem_singleton.1 he', he] at hr'
      exact (Option.some.inj hr').le
  | some q =>
    obtain ⟨hport, hip, ⟨e', he', hcodec⟩, hfirst⟩ := h.some q hpriority
    rcases lt_or_ge r q with hlt | hle
    · rw [Selection.take_of_lt hpriority hlt]
      refine ⟨fun hnone => absurd hnone (Option.some_ne_none r), fun q' hq' => ?_⟩
      cases hq'
      refine ⟨hport, hip, ⟨e, hmem, he, rfl⟩, fun e'' he'' r' hr' => ?_⟩
      rcases List.mem_append.1 he'' with he'' | he''
      · exact hlt.le.trans (hfirst e'' he'' r' hr')
      · rw [List.mem_singleton.1 he'', he] at hr'
        exact (Option.some.inj hr').le
    · rw [Selection.take_of_le hpriority hle]
      refine ⟨fun hnone => absurd (hpriority.symm.trans hnone) (Option.some_ne_none q),
        fun q' hq' => ?_⟩
      obtain rfl : q = q' := Option.some.inj (hpriority.symm.trans hq')
      refine ⟨hport, hip, ⟨e', List.mem_append_left _ he', hcodec⟩, fun e'' he'' r' hr' => ?_⟩
      rcases List.mem_append.1 he'' with he'' | he''
      · exact hfirst e'' he'' r' hr'
      · rw [List.mem_singleton.1 he'', he] at hr'
        exact hle.trans (Option.some.inj hr').le

end Chosen

/-! ## What the steps leave alone -/

namespace RTPParticipant

/-- What is sent, the bindings and the ids of the extensions are the same. -/
structure Keeps (p q : RTPParticipant) : Prop where
  supportedCodecs : q.supportedCodecs = p.supportedCodecs
  sender : q.sender = p.sender
  rtpOutMediaMap : q.rtpOutMediaMap = p.rtpOutMediaMap
  extensionId : q.extensionId = p.extensionId
  useICE : q.useICE = p.useICE

variable {p q : RTPParticipant} {m : Media} {md : MediaDescription Own}

theorem Keeps.trans {r : RTPParticipant} (h : Keeps p q) (h' : Keeps q r) : Keeps p r where
  supportedCodecs := h'.supportedCodecs.trans h.supportedCodecs
  sender := h'.sender.trans h.sender
  rtpOutMediaMap := h'.rtpOutMediaMap.trans h.rtpOutMediaMap
  extensionId := h'.extensionId.trans h.extensionId
  useICE := h'.useICE.trans h.useICE

theorem Keeps.rank (h : Keeps p q) : q.rank = p.rank := by
  funext m codec
  rw [RTPParticipant.rank, RTPParticipant.rank, h.supportedCodecs]

theorem keeps_putProperty {key : Str} (hkey : key ∉ (supportedExtensions m).getD [])
    (value : Option Str) : Keeps p (p.putProperty m key value) where
  supportedCodecs := rfl
  sender := rfl
  rtpOutMediaMap := rfl
  extensionId := by
    funext m' name
    rw [extensionId, extensionId]
    refine ite_congr rfl (fun hname => ?_) fun _ => rfl
    rw [putProperty]
    dsimp only
    rcases eq_or_ne m' m with rfl | hm
    · have hne : name ≠ key := fun heq => hkey (heq ▸ hname)
      rw [Function.update_self, HashMap.get?_put, if_neg hne]
    · rw [Function.update_of_ne hm]
  useICE := rfl

theorem keeps_readMedia {media : Str} (h : p.readMedia media md = some q) : Keeps p q := by
  rw [readMedia] at h
  obtain ⟨mux, _, h⟩ := Option.bind_eq_some_iff.1 h
  obtain ⟨p', hmux, h⟩ := Option.bind_eq_some_iff.1 h
  obtain ⟨mid, _, h⟩ := Option.bind_eq_some_iff.1 h
  obtain ⟨direction, _, rfl⟩ := Option.map_eq_some_iff.1 h
  have hkeeps : Keeps p p' := by
    split at hmux
    · obtain ⟨m, _, rfl⟩ := Option.map_eq_some_iff.1 hmux
      exact keeps_putProperty (by cases m <;> decide) _
    · cases hmux
      exact ⟨rfl, rfl, rfl, rfl, rfl⟩
  exact hkeeps.trans ⟨rfl, rfl, rfl, rfl, rfl⟩

theorem keeps_readKeys {remote : Remote} (h : p.readKeys m md remote = some q) : Keeps p q := by
  rw [readKeys] at h
  split at h
  · obtain ⟨setup, _, rfl⟩ := Option.map_eq_some_iff.1 h
    exact ⟨rfl, rfl, rfl, rfl, rfl⟩
  · obtain ⟨info, _, rfl⟩ := Option.map_eq_some_iff.1 h
    exact ⟨rfl, rfl, rfl, rfl, rfl⟩

theorem keeps_readSecurity {remote : Remote} {l : RTPParticipant × Remote}
    (h : p.readSecurity m md remote = some l) : Keeps p l.1 := by
  rw [readSecurity] at h
  obtain ⟨dtls, _, h⟩ := Option.bind_eq_some_iff.1 h
  obtain ⟨rtpProfile, _, h⟩ := Option.bind_eq_some_iff.1 h
  obtain ⟨l', hl', rfl⟩ := Option.map_eq_some_iff.1 h
  have hkeeps : Keeps p l'.1 := by
    split at hl'
    · obtain ⟨fingerprint, _, hl'⟩ := Option.bind_eq_some_iff.1 hl'
      obtain ⟨q, hq, rfl⟩ := Option.map_eq_some_iff.1 hl'
      have hkeys := keeps_readKeys hq
      exact ⟨hkeys.supportedCodecs, hkeys.sender, hkeys.rtpOutMediaMap, hkeys.extensionId,
        hkeys.useICE⟩
    · cases hl'
      exact ⟨rfl, rfl, rfl, rfl, rfl⟩
  exact hkeeps.trans ⟨rfl, rfl, rfl, rfl, rfl⟩

theorem keeps_selectRTX {type : Int} (h : p.selectRTX m md type = some q) : Keeps p q := by
  rw [selectRTX] at h
  obtain ⟨fp, _, h⟩ := Option.bind_eq_some_iff.1 h
  obtain ⟨fp, _, rfl⟩ := Option.map_eq_some_iff.1 h
  split
  · exact ⟨rfl, rfl, rfl, rfl, rfl⟩
  case h_2 apt _ =>
    have huse : Keeps p { p with useRTX := true } := ⟨rfl, rfl, rfl, rfl, rfl⟩
    refine (huse.trans (keeps_putProperty ?_ _)).trans (keeps_putProperty ?_ _)
    · cases m <;> decide
    · cases m <;> decide

/-! ## Steps that do not fail -/

theorem isSome_protoString (h : (transport md).isSome) : (protoString md).isSome := by
  have hfold (ps : List (Option Str)) (f : Option Str → Option Str → Option Str)
      (hf : ∀ value p, value.isSome ∨ p.isSome → (f value p).isSome) (value : Option Str)
      (hsome : value.isSome ∨ ∃ p ∈ ps, p.isSome) : (ps.foldl f value).isSome := by
    induction ps generalizing value with
    | nil =>
      obtain hsome | ⟨p, hp, -⟩ := hsome
      · exact hsome
      · exact absurd hp List.not_mem_nil
    | cons p ps ih =>
      rw [List.foldl_cons]
      refine ih (f value p) ?_
      obtain hsome | ⟨q, hq, hsome⟩ := hsome
      · exact .inl (hf _ _ (.inl hsome))
      · rcases List.mem_cons.1 hq with rfl | hq
        · exact .inl (hf _ _ (.inr hsome))
        · exact .inr ⟨q, hq, hsome⟩
  obtain ⟨name, hname⟩ := Option.isSome_iff_exists.1 h
  rw [transport, Option.join_eq_some_iff] at hname
  rw [protoString]
  refine hfold md.proto _ (fun value p hvalue => ?_) none
    (.inr ⟨some name, List.mem_reverse.1 (List.mem_of_getElem? hname), rfl⟩)
  cases value with
  | some value => rfl
  | none => exact hvalue.resolve_left Bool.false_ne_true

theorem exists_readMedia {media : Str} (hmux : (hasAttribute "rtcp-mux" md.attributes).isSome)
    (hknown : hasAttribute "rtcp-mux" md.attributes = some true → (Media.ofName? media).isSome)
    (hmid : (readMid md.attributes).isSome) (hdirection : (readDirection md.attributes).isSome) :
    ∃ q, p.readMedia media md = some q := by
  obtain ⟨mux, hmux⟩ := Option.isSome_iff_exists.1 hmux
  obtain ⟨mid, hmid⟩ := Option.isSome_iff_exists.1 hmid
  obtain ⟨direction, hdirection⟩ := Option.isSome_iff_exists.1 hdirection
  rw [readMedia, hmux, hmid, hdirection, Option.bind_some]
  cases mux with
  | false => exact ⟨_, rfl⟩
  | true =>
    obtain ⟨m, hm⟩ := Option.isSome_iff_exists.1 (hknown hmux)
    rw [if_pos rfl, hm]
    exact ⟨_, rfl⟩

theorem exists_readKeys (hsetup : (readSetup md.attributes).isSome)
    (hcrypto : (readCrypto md.attributes).isSome) (remote : Remote) :
    ∃ q, p.readKeys m md remote = some q := by
  obtain ⟨setup, hsetup⟩ := Option.isSome_iff_exists.1 hsetup
  obtain ⟨info, hcrypto⟩ := Option.isSome_iff_exists.1 hcrypto
  rw [readKeys, hsetup, hcrypto]
  split
  · exact ⟨_, rfl⟩
  · exact ⟨_, rfl⟩

theorem exists_readSecurity (h : Readable m md) (remote : Remote) :
    ∃ l, p.readSecurity m md remote = some l := by
  obtain ⟨_, hdtls, hprofile, hfingerprint, hsetup, hcrypto, _⟩ := h
  obtain ⟨dtls, hdtls⟩ := Option.isSome_iff_exists.1 hdtls
  obtain ⟨rtpProfile, hprofile⟩ := Option.isSome_iff_exists.1 hprofile
  obtain ⟨fingerprint, hfingerprint⟩ := Option.isSome_iff_exists.1 hfingerprint
  rw [readSecurity, hdtls, hprofile, hfingerprint, Option.bind_some, Option.bind_some,
    Option.bind_some]
  split
  · obtain ⟨q, hq⟩ := exists_readKeys hsetup hcrypto (fingerprint.getD remote)
    rw [hq]
    exact ⟨_, rfl⟩
  · exact ⟨_, rfl⟩

/-! ## Going through the bindings -/

/-- Entries have been gone through: what is sent of the medium has been chosen from them. -/
structure Chooses (p q : RTPParticipant) (m : Media) (port : Int) (ip : Option Str)
    (es : List (Int × Int)) (priority : Option Nat) : Prop where
  supportedCodecs : q.supportedCodecs = p.supportedCodecs
  rtpOutMediaMap : q.rtpOutMediaMap = p.rtpOutMediaMap
  extensionId : q.extensionId = p.extensionId
  useICE : q.useICE = p.useICE
  others : ∀ m' ≠ m, q.sender m' = p.sender m'
  chosen : Chosen (p.rank m) port ip (p.sender m) es { sender := q.sender m, priority }

variable {port : Int} {ip : Option Str} {es : List (Int × Int)}

/-- **One binding.** -/
theorem Chooses.selectEntry {priority : Option Nat} (h : Chooses p q m port ip es priority)
    {e : Int × Int} (hcodecs : (p.supportedCodecs m).isSome)
    (hrtx : m = .video → e.2 = Codecs.rtx →
      ((getFormatParameters e.1 md.attributes).join).isSome) :
    ∃ l, RTPParticipant.selectEntry m md port ip (q, priority) e = some l ∧
      Chooses p l.1 m port ip (es ++ [e]) l.2 := by
  obtain ⟨codecs, hcodecs⟩ := Option.isSome_iff_exists.1 hcodecs
  have hrepair : ∃ q', (if m = .video ∧ e.2 = Codecs.rtx then q.selectRTX m md e.1 else some q) =
      some q' ∧ Keeps q q' := by
    split
    case isTrue hvideo =>
      obtain ⟨fp, hfp⟩ := Option.isSome_iff_exists.1 (hrtx hvideo.1 hvideo.2)
      rw [Option.join_eq_some_iff] at hfp
      have hselect : ∃ q', q.selectRTX m md e.1 = some q' := by
        rw [selectRTX, hfp]
        exact ⟨_, rfl⟩
      obtain ⟨q', hq'⟩ := hselect
      exact ⟨q', hq', keeps_selectRTX hq'⟩
    case isFalse => exact ⟨q, rfl, ⟨rfl, rfl, rfl, rfl, rfl⟩⟩
  obtain ⟨q', hq', hkeeps⟩ := hrepair
  have hlist : q'.supportedCodecs m = some codecs := by
    rw [hkeeps.supportedCodecs, h.supportedCodecs, hcodecs]
  have hrank : p.rank m e.2 = if isRepair m e.2 then none else codecs.idxOf? e.2 := by
    rw [rank, hcodecs, Option.getD_some]
  rw [RTPParticipant.selectEntry, hq', Option.bind_some, hlist]
  refine ⟨_, rfl, ?_⟩
  dsimp only
  rw [hkeeps.sender, Selection.foldl_step, ← hrank]
  refine ⟨hkeeps.supportedCodecs.trans h.supportedCodecs,
    hkeeps.rtpOutMediaMap.trans h.rtpOutMediaMap, hkeeps.extensionId.trans h.extensionId,
    hkeeps.useICE.trans h.useICE, fun m' hm' => ?_, ?_⟩
  · rw [setSender]
    dsimp only
    rw [Function.update_of_ne hm', hkeeps.sender, h.others m' hm']
  · rw [setSender]
    dsimp only
    rw [Function.update_self]
    cases hr : p.rank m e.2 with
    | none => exact h.chosen.skip hr
    | some r =>
      have htake := h.chosen.take hr
      dsimp only
      rwa [Nat.zero_add]

/-- **Going through.** -/
theorem exists_chooses (port : Int) (ip : Option Str)
    (hcodecs : es ≠ [] → (p.supportedCodecs m).isSome)
    (hrtx : m = .video → ∀ e ∈ es, e.2 = Codecs.rtx →
      ((getFormatParameters e.1 md.attributes).join).isSome) :
    ∃ l, es.foldlM (RTPParticipant.selectEntry m md port ip) (p, none) = some l ∧
      Chooses p l.1 m port ip es l.2 := by
  induction es using List.reverseRecOn with
  | nil => exact ⟨(p, none), rfl, ⟨rfl, rfl, rfl, rfl, fun _ _ => rfl, Chosen.nil⟩⟩
  | append_singleton es e ih =>
    obtain ⟨l, hl, hchooses⟩ := ih (fun hne => hcodecs (by simp [hne]))
      fun hm e' he' => hrtx hm e' (List.mem_append_left _ he')
    obtain ⟨l', hl', hchooses'⟩ := hchooses.selectEntry (hcodecs (by simp))
      fun hm => hrtx hm e (List.mem_append_right _ (List.mem_singleton_self e))
    refine ⟨l', ?_, hchooses'⟩
    rw [List.foldlM_append, hl]
    simpa using hl'

end RTPParticipant

/-! ## Extensions -/

section Extensions

variable {md : MediaDescription Own} {names : List Str}

theorem mem_of_mapM {attrs : List (Attribute Own)} {ids : List (Option (Str × Int))}
    (h : attrs.mapM (readExtension names) = some ids) (e : Str × Int) :
    some e ∈ ids ↔ ∃ attr ∈ attrs, readExtension names attr = some (some e) := by
  induction attrs generalizing ids with
  | nil =>
    cases h
    simp
  | cons attr attrs ih =>
    rw [List.mapM_cons] at h
    obtain ⟨id, hid, h⟩ := Option.bind_eq_some_iff.1 h
    obtain ⟨rest, hrest, h⟩ := Option.bind_eq_some_iff.1 h
    cases h
    rw [List.mem_cons, ih hrest, List.exists_mem_cons_iff, hid, Option.some_inj, eq_comm]

theorem readExtension_eq_some {attr : Attribute Own} {e : Str × Int} :
    readExtension names attr = some (some e) ↔
      e.1 ∈ names ∧ ∃ direction attributes,
        attr = .extMap (some e.2) direction (some e.1) attributes := by
  constructor
  · intro h
    rw [readExtension.eq_def] at h
    split at h
    · split at h
      case isTrue hname =>
        obtain ⟨id, rfl, he⟩ := Option.map_eq_some_iff.1 h
        cases he
        exact ⟨hname, _, _, rfl⟩
      case isFalse => cases h
    · cases h
    · cases h
  · rintro ⟨hname, direction, attributes, rfl⟩
    rw [readExtension, if_pos hname, Option.map_some]

theorem mem_extensionIds {name : Str} {id : Int} :
    id ∈ extensionIds name md ↔ ∃ direction attributes,
      .extMap (some id) direction (some name) attributes ∈ md.attributes := by
  rw [extensionIds, List.mem_filterMap]
  constructor
  · rintro ⟨attr, hattr, hid⟩
    split at hid
    · split at hid
      case isTrue hname =>
        subst hname hid
        exact ⟨_, _, hattr⟩
      case isFalse => cases hid
    · cases hid
  · rintro ⟨direction, attributes, hattr⟩
    exact ⟨_, hattr, if_pos rfl⟩

theorem mem_readExtensions {ids : List (Str × Int)} (h : readExtensions names md = some ids)
    (e : Str × Int) : e ∈ ids ↔ e.1 ∈ names ∧ e.2 ∈ extensionIds e.1 md := by
  rw [readExtensions] at h
  obtain ⟨extmaps, hextmaps, h⟩ := Option.bind_eq_some_iff.1 h
  obtain ⟨read, hread, rfl⟩ := Option.map_eq_some_iff.1 h
  rw [List.reduceOption_mem_iff, mem_of_mapM hread, mem_extensionIds]
  constructor
  · rintro ⟨attr, hattr, he⟩
    obtain ⟨hname, direction, attributes, rfl⟩ := readExtension_eq_some.1 he
    exact ⟨hname, direction, attributes, Sdp.mem_of_mem_getAttributes hextmaps hattr⟩
  · rintro ⟨hname, direction, attributes, hattr⟩
    refine ⟨_, Sdp.mem_getAttributes hextmaps hattr fun field hfield => ?_,
      readExtension_eq_some.2 ⟨hname, direction, attributes, rfl⟩⟩
    cases hfield
    decide

end Extensions

namespace RTPParticipant

variable {p q : RTPParticipant} {m : Media} {md : MediaDescription Own}

theorem putExtension_fields (p : RTPParticipant) (offer : Bool) (e : Str × Int) :
    (p.putExtension m offer e).supportedCodecs = p.supportedCodecs ∧
      (p.putExtension m offer e).sender = p.sender ∧
      (p.putExtension m offer e).rtpOutMediaMap = p.rtpOutMediaMap ∧
      (p.putExtension m offer e).useICE = p.useICE ∧
      (p.putExtension m offer e).rtpMediaProperties = Function.update p.rtpMediaProperties m
        ((p.rtpMediaProperties m).put e.1 (some (toString e.2).toList)) := by
  cases offer with
  | false => exact ⟨rfl, rfl, rfl, rfl, rfl⟩
  | true => exact ⟨rfl, rfl, rfl, rfl, rfl⟩

theorem foldl_putExtension (ids : List (Str × Int)) (p : RTPParticipant) :
    let q := ids.foldl (fun p e => p.putExtension m (p.rtpExtensionMap m).isSome e) p
    q.supportedCodecs = p.supportedCodecs ∧ q.sender = p.sender ∧
      q.rtpOutMediaMap = p.rtpOutMediaMap ∧ q.useICE = p.useICE ∧
      q.rtpMediaProperties = Function.update p.rtpMediaProperties m
        ((p.rtpMediaProperties m).putAll
          (ids.map fun e => (e.1, some (toString e.2).toList))) := by
  induction ids generalizing p with
  | nil => simp
  | cons e ids ih =>
    obtain ⟨hcodecs, hsender, hmap, hice, hproperties⟩ :=
      ih (p.putExtension m (p.rtpExtensionMap m).isSome e)
    obtain ⟨hcodecs', hsender', hmap', hice', hproperties'⟩ :=
      p.putExtension_fields (m := m) (p.rtpExtensionMap m).isSome e
    refine ⟨hcodecs.trans hcodecs', hsender.trans hsender', hmap.trans hmap', hice.trans hice',
      hproperties.trans ?_⟩
    rw [hproperties', Function.update_idem, Function.update_self]
    rfl

/-- **Extensions.** A supported extension gets one of the ids that the medium gives it, if there is
one; the ids of the other media stay. -/
structure Extends (p q : RTPParticipant) (m : Media) (md : MediaDescription Own) : Prop where
  supportedCodecs : q.supportedCodecs = p.supportedCodecs
  sender : q.sender = p.sender
  rtpOutMediaMap : q.rtpOutMediaMap = p.rtpOutMediaMap
  useICE : q.useICE = p.useICE
  others : ∀ m' ≠ m, q.extensionId m' = p.extensionId m'
  given : ∀ name ∈ (supportedExtensions m).getD [], extensionIds name md ≠ [] →
    ∃ id ∈ extensionIds name md, q.extensionId m name = some (some (toString id).toList)
  kept : ∀ name ∈ (supportedExtensions m).getD [], extensionIds name md = [] →
    q.extensionId m name = p.extensionId m name

theorem exists_extends (h : ∀ names ∈ supportedExtensions m, (readExtensions names md).isSome) :
    ∃ q, p.selectExtensions m md = some q ∧ Extends p q m md := by
  rw [selectExtensions]
  cases hnames : supportedExtensions m with
  | none =>
    refine ⟨p, rfl, rfl, rfl, rfl, rfl, fun _ _ => rfl, fun name hname => ?_, fun _ _ _ => rfl⟩
    rw [hnames] at hname
    exact absurd hname List.not_mem_nil
  | some names =>
    obtain ⟨ids, hids⟩ := Option.isSome_iff_exists.1 (h names hnames)
    dsimp only
    rw [hids]
    refine ⟨_, rfl, ?_⟩
    obtain ⟨hcodecs, hsender, hmap, hice, hproperties⟩ :=
      foldl_putExtension (m := m) ids { p with
        rtpExtensionMap := Function.update p.rtpExtensionMap m
          ((p.rtpExtensionMap m).map fun _ => .empty) }
    refine ⟨hcodecs, hsender, hmap, hice, fun m' hm' => ?_, fun name hname hne => ?_,
      fun name hname hnone => ?_⟩
    · funext name
      rw [extensionId, extensionId, hproperties]
      dsimp only
      rw [Function.update_of_ne hm']
    · rw [extensionId, if_pos hname, hproperties]
      dsimp only
      rw [Function.update_self]
      rw [hnames] at hname
      obtain ⟨id, hid⟩ := List.exists_mem_of_ne_nil _ hne
      have hput : (name, id) ∈ ids := (mem_readExtensions hids _).2 ⟨hname, hid⟩
      have hkey : name ∈ (ids.map fun e => (e.1, some (toString e.2).toList)).map Prod.fst :=
        List.mem_map.2 ⟨_, List.mem_map_of_mem hput, rfl⟩
      obtain ⟨value, hvalue, hget⟩ :=
        HashMap.get?_putAll_of_mem (m := p.rtpMediaProperties m) hkey
      obtain ⟨e, he, heq⟩ := List.mem_map.1 hvalue
      cases heq
      exact ⟨e.2, ((mem_readExtensions hids e).1 he).2, hget⟩
    · rw [extensionId, extensionId, if_pos hname, if_pos hname, hproperties]
      dsimp only
      rw [Function.update_self]
      refine HashMap.get?_putAll_of_notMem fun hmem => ?_
      obtain ⟨e, he, heq⟩ := List.mem_map.1 hmem
      obtain ⟨e', he', rfl⟩ := List.mem_map.1 he
      have hid := ((mem_readExtensions hids e').1 he').2
      rw [show e'.1 = name from heq, hnone] at hid
      exact absurd hid List.not_mem_nil

/-! ## A medium that is accepted -/

/-- **Accepting.** The bindings of the medium are made. If there is a codec that counts among all
the bindings then, the first of them is sent to the medium, and otherwise what is sent stays. -/
structure Negotiates (nated : Option Str → Bool) (ip : Option Str) (p q : RTPParticipant)
    (m : Media) (md : MediaDescription Own) : Prop where
  supportedCodecs : q.supportedCodecs = p.supportedCodecs
  useICE : p.useICE = true → q.useICE = true
  senders : ∀ m' ≠ m, q.sender m' = p.sender m'
  maps : ∀ m' ≠ m, q.rtpOutMediaMap m' = p.rtpOutMediaMap m'
  map : q.rtpOutMediaMap m = some (((p.rtpOutMediaMap m).getD .empty).putAll (bindings m md))
  silent : (∀ type codec, q.bound m type = some codec → p.rank m codec = none) →
    q.sender m = p.sender m
  chooses : ∀ type codec r, q.bound m type = some codec → p.rank m codec = some r →
    md.port = some (q.sender m).port ∧ (q.sender m).ip = mediaIp nated q.useICE ip md ∧
    ∃ type' codec' r', q.bound m type' = some codec' ∧ p.rank m codec' = some r' ∧
      (q.sender m).codec = some codec' ∧ r' ≤ r
  ids : ∀ m' ≠ m, q.extensionId m' = p.extensionId m'
  given : ∀ name ∈ (supportedExtensions m).getD [], extensionIds name md ≠ [] →
    ∃ id ∈ extensionIds name md, q.extensionId m name = some (some (toString id).toList)
  kept : ∀ name ∈ (supportedExtensions m).getD [], extensionIds name md = [] →
    q.extensionId m name = p.extensionId m name

variable {nated : Option Str → Bool} {ip : Option Str} {it : HashMap.Iteration Int Int}
  {ice : Option ICEInfo} {port : Int} {remote : Remote}

theorem Negotiates.of_keeps {p₀ : RTPParticipant} (hkeeps : Keeps p₀ p)
    (h : Negotiates nated ip p q m md) : Negotiates nated ip p₀ q m md where
  supportedCodecs := h.supportedCodecs.trans hkeeps.supportedCodecs
  useICE hice := h.useICE (hkeeps.useICE.trans hice)
  senders m' hm' := (h.senders m' hm').trans (congrFun hkeeps.sender m')
  maps m' hm' := (h.maps m' hm').trans (congrFun hkeeps.rtpOutMediaMap m')
  map := by rw [h.map, hkeeps.rtpOutMediaMap]
  silent hnone := by
    rw [← hkeeps.rank] at hnone
    rw [h.silent hnone, hkeeps.sender]
  chooses := by
    rw [← hkeeps.rank]
    exact h.chooses
  ids m' hm' := (h.ids m' hm').trans (congrFun hkeeps.extensionId m')
  given := h.given
  kept := by
    rw [← hkeeps.extensionId]
    exact h.kept

/-- What is needed for the bindings to be gone through. -/
structure Selectable (p : RTPParticipant) (m : Media) (md : MediaDescription Own) : Prop where
  codecs : p.boundTypes m ++ bindings m md ≠ [] → (p.supportedCodecs m).isSome
  rtx : m = .video → ∀ type,
    (((p.rtpOutMediaMap m).getD .empty).putAll (bindings m md)).get? type = some Codecs.rtx →
    ((getFormatParameters type md.attributes).join).isSome

theorem Selectable.of_keeps (hkeeps : Keeps p q) (h : Selectable p m md) : Selectable q m md where
  codecs hne := by
    rw [boundTypes, hkeeps.rtpOutMediaMap] at hne
    rw [hkeeps.supportedCodecs]
    exact h.codecs hne
  rtx := by
    rw [hkeeps.rtpOutMediaMap]
    exact h.rtx

theorem exists_select (it : HashMap.Iteration Int Int) (port : Int) (ip : Option Str)
    (h : Selectable p m md) {formats : Formats} (hformats : readFormats m md = some formats) :
    ∃ q es priority, (p.bind m formats).select m it md port ip = some q ∧
      Chooses (p.bind m formats) q m port ip es priority ∧
      ∀ type codec, (type, codec) ∈ es ↔ q.bound m type = some codec := by
  have hbindings : formats.bindings = bindings m md := by rw [bindings, hformats, Option.elim_some]
  have hmap : (p.bind m formats).rtpOutMediaMap m =
      some (((p.rtpOutMediaMap m).getD .empty).putAll (bindings m md)) := by
    rw [RTPParticipant.bind, hbindings]
    exact Function.update_self ..
  have hentries (type codec : Int) :
      (type, codec) ∈ it.entrySet (((p.bind m formats).rtpOutMediaMap m).getD .empty) ↔
        (((p.rtpOutMediaMap m).getD .empty).putAll (bindings m md)).get? type = some codec := by
    rw [hmap, Option.getD_some]
    exact HashMap.Iteration.mem
  have hcodecs (hne : it.entrySet (((p.bind m formats).rtpOutMediaMap m).getD .empty) ≠ []) :
      ((p.bind m formats).supportedCodecs m).isSome := by
    obtain ⟨⟨type, codec⟩, he⟩ := List.exists_mem_of_ne_nil _ hne
    refine h.codecs fun hnil => ?_
    obtain ⟨hbound, hnone⟩ := List.append_eq_nil_iff.1 hnil
    have hget := (hentries type codec).1 he
    rw [hnone, HashMap.putAll_nil, ← HashMap.mem_entries] at hget
    rw [boundTypes] at hbound
    rw [hbound] at hget
    exact absurd hget List.not_mem_nil
  obtain ⟨l, hl, hchooses⟩ := exists_chooses port ip hcodecs
    fun hm e he hrtx => h.rtx hm e.1 (hrtx ▸ (hentries e.1 e.2).1 he)
  refine ⟨l.1, _, l.2, ?_, hchooses, fun type codec => ?_⟩
  · rw [select, hl, Option.map_some]
  · rw [hentries, bound, hchooses.rtpOutMediaMap, hmap, Option.bind_some]

theorem exists_negotiates (hread : Readable m md) (h : Selectable p m md)
    (hport : md.port = some port) :
    ∃ l, p.negotiate m nated it ip ice md port remote = some l ∧
      Negotiates nated ip p l.1 m md := by
  obtain ⟨mediaIce, hice⟩ := Option.isSome_iff_exists.1 hread.1
  obtain ⟨l, hl⟩ := exists_readSecurity
    (p := { p with useICE := p.useICE || mediaIce.isSome }) hread remote
  obtain ⟨_, _, _, _, _, _, hformats, hextensions⟩ := hread
  obtain ⟨formats, hformats⟩ := Option.isSome_iff_exists.1 hformats
  have hbindings : formats.bindings = bindings m md := by rw [bindings, hformats, Option.elim_some]
  have hkeeps := keeps_readSecurity hl
  have hselectable : Selectable l.1 m md :=
    Selectable.of_keeps hkeeps ⟨h.codecs, h.rtx⟩
  obtain ⟨q, es, priority, hq, hchooses, hes⟩ := exists_select it port
    (mediaIp nated (p.useICE || mediaIce.isSome) ip md) hselectable hformats
  obtain ⟨q', hq', hextends⟩ := exists_extends (p := q.putICE m (mediaIce.or ice)) hextensions
  refine ⟨(q', l.2), ?_, ?_⟩
  · rw [negotiate, hice, Option.bind_some, hl, Option.bind_some, hformats, Option.bind_some, hq,
      Option.bind_some, hq', Option.map_some]
  -- what has been gone through are the bindings, with the sender before
  have hsender : q'.sender m = q.sender m := congrFun hextends.sender m
  have hbefore : (l.1.bind m formats).sender = p.sender := hkeeps.sender
  have hids : q.extensionId = p.extensionId := hchooses.extensionId.trans hkeeps.extensionId
  have hrank : (l.1.bind m formats).rank m = p.rank m := congrFun hkeeps.rank m
  have huse : q'.useICE = (p.useICE || mediaIce.isSome) :=
    (hextends.useICE.trans hchooses.useICE).trans hkeeps.useICE
  have hbound (type codec : Int) : (type, codec) ∈ es ↔ q'.bound m type = some codec := by
    rw [hes, bound, bound, hextends.rtpOutMediaMap]
    rfl
  have hmap : q'.rtpOutMediaMap = (l.1.bind m formats).rtpOutMediaMap :=
    hextends.rtpOutMediaMap.trans hchooses.rtpOutMediaMap
  have hchosen := hchooses.chosen
  rw [hrank, hbefore, ← hsender] at hchosen
  constructor
  case supportedCodecs =>
    exact (hextends.supportedCodecs.trans hchooses.supportedCodecs).trans hkeeps.supportedCodecs
  case useICE =>
    intro huseICE
    rw [huse, huseICE, Bool.true_or]
  case senders =>
    intro m' hm'
    exact ((congrFun hextends.sender m').trans (hchooses.others m' hm')).trans
      (congrFun hbefore m')
  case maps =>
    intro m' hm'
    rw [hmap, RTPParticipant.bind]
    exact (Function.update_of_ne hm' ..).trans (congrFun hkeeps.rtpOutMediaMap m')
  case map =>
    rw [hmap, RTPParticipant.bind, hbindings, hkeeps.rtpOutMediaMap]
    exact Function.update_self ..
  case silent =>
    intro hnone
    cases hpriority : priority with
    | none => exact (hchosen.none hpriority).1
    | some r =>
      obtain ⟨_, _, ⟨e, he, hr, _⟩, _⟩ := hchosen.some r hpriority
      rw [hnone e.1 e.2 ((hbound e.1 e.2).1 he)] at hr
      cases hr
  case chooses =>
    intro type codec r hget hr
    have he := (hbound type codec).2 hget
    cases hpriority : priority with
    | none =>
      rw [(hchosen.none hpriority).2 _ he] at hr
      cases hr
    | some r' =>
      obtain ⟨hport', hip, ⟨e', he', hr', hcodec⟩, hfirst⟩ := hchosen.some r' hpriority
      refine ⟨hport.trans (congrArg some hport'.symm), hip.trans ?_, e'.1, e'.2, r',
        (hbound e'.1 e'.2).1 he', hr', hcodec, hfirst _ he r hr⟩
      rw [huse]
  case ids =>
    intro m' hm'
    exact (hextends.others m' hm').trans (congrFun hids m')
  case given => exact hextends.given
  case kept =>
    intro name hname hnone
    exact (hextends.kept name hname hnone).trans (congrFun (congrFun hids m) name)

theorem acceptedAs_of_rtp {media : Str} (hport : port ≠ 0)
    (htransport : transport md = some "RTP".toList) (hmdport : md.port = some port) (hmedia : md.media = some media) :
    acceptedAs md = (Media.ofName? media).filter fun m => m ≠ .video ∨ showsMain md = true := by
  have hne : md.port ≠ some 0 := fun h => hport (Option.some.inj (hmdport.symm.trans h))
  rw [acceptedAs, if_pos ⟨htransport, hne⟩, hmedia, Option.bind_some]

theorem ofName?_eq_video {media : Str} (h : Media.ofName? media = some .video) :
    media = Media.video.name := by
  rw [Media.ofName?] at h
  split at h
  · cases h
  · split at h
    case isTrue hvideo => exact hvideo
    case isFalse =>
      split at h
      · cases h
      · cases h

/-- **One medium.** What can be read is processed: nothing changes that is sent when the medium is
rejected. -/
theorem exists_processMedia (nated : Option Str → Bool) (it : HashMap.Iteration Int Int)
    (ip : Option Str) (ice : Option ICEInfo) (hread : ReadableMedia md)
    (l : RTPParticipant × Remote) (h : ∀ m, acceptedAs md = some m → Selectable l.1 m md) :
    ∃ l', processMedia nated it ip ice l md = some l' ∧
      (acceptedAs md = none → Keeps l.1 l'.1) ∧
      ∀ m, acceptedAs md = some m → Negotiates nated ip l.1 l'.1 m md := by
  obtain ⟨htransport, hread⟩ := hread
  obtain ⟨proto, hproto⟩ := Option.isSome_iff_exists.1 (isSome_protoString htransport)
  have hrejected (attributes : List (Attribute Own)) : ∃ r, rejected md attributes = some r := by
    rw [rejected, hproto]
    exact ⟨_, rfl⟩
  obtain ⟨name, htransport⟩ := Option.isSome_iff_exists.1 htransport
  rw [processMedia, htransport, Option.bind_some]
  rcases eq_or_ne name "RTP".toList with rfl | hname
  · obtain ⟨hport, hread⟩ := hread htransport
    obtain ⟨port, hport⟩ := Option.isSome_iff_exists.1 hport
    rw [if_pos rfl, hport, Option.bind_some]
    rcases eq_or_ne port 0 with rfl | hne
    · obtain ⟨r, hr⟩ := hrejected []
      rw [if_pos rfl, hr]
      have hnone : acceptedAs md = none := by
        rw [acceptedAs, if_neg fun hboth => hboth.2 hport]
      refine ⟨_, rfl, fun _ => ⟨rfl, rfl, rfl, rfl, rfl⟩, fun m hm => ?_⟩
      rw [hnone] at hm
      cases hm
    · obtain ⟨hmedia, hrate, hmux, hknown, hmid, hdirection, hcontent, hreadable⟩ :=
        hread fun hzero => hne (Option.some.inj (hport.symm.trans hzero))
      obtain ⟨media, hmedia⟩ := Option.isSome_iff_exists.1 hmedia
      obtain ⟨rate, hrate⟩ := Option.isSome_iff_exists.1 hrate
      rw [hmedia, Option.bind_some] at hknown
      obtain ⟨p, hp⟩ := exists_readMedia (p := l.1) hmux hknown hmid hdirection
      have hkeeps := keeps_readMedia hp
      have haccepted := acceptedAs_of_rtp hne htransport hport hmedia
      rw [if_neg hne, hrate, Option.bind_some, hmedia, Option.bind_some, hp, Option.bind_some]
      have haccept (m : Media) (hm : acceptedAs md = some m) (q : RTPParticipant)
          (hq : Keeps l.1 q) :
          ∃ l', q.negotiate m nated it ip ice md port l.2 = some l' ∧
            (acceptedAs md = none → Keeps l.1 l'.1) ∧
            ∀ m, acceptedAs md = some m → Negotiates nated ip l.1 l'.1 m md := by
        obtain ⟨l', hl', hnegotiates⟩ :=
          exists_negotiates (hreadable m hm) (Selectable.of_keeps hq (h m hm)) hport
        refine ⟨l', hl', fun hnone => ?_, fun m' hm' => ?_⟩
        · rw [hm] at hnone
          cases hnone
        · obtain rfl : m = m' := Option.some.inj (hm.symm.trans hm')
          exact hnegotiates.of_keeps hq
      have hreject (hnone : acceptedAs md = none) (attributes : List (Attribute Own)) :
          ∃ l', (rejected md attributes).map (fun md => (p.reject md, l.2)) = some l' ∧
            (acceptedAs md = none → Keeps l.1 l'.1) ∧
            ∀ m, acceptedAs md = some m → Negotiates nated ip l.1 l'.1 m md := by
        obtain ⟨r, hr⟩ := hrejected attributes
        rw [hr]
        refine ⟨_, rfl, fun _ => hkeeps.trans ⟨rfl, rfl, rfl, rfl, rfl⟩, fun m hm => ?_⟩
        rw [hnone] at hm
        cases hm
      cases hm : Media.ofName? media with
      | none =>
        rw [hm] at haccepted
        exact hreject haccepted []
      | some m =>
        rw [hm] at haccepted
        cases m with
        | audio => exact haccept .audio haccepted _ (hkeeps.trans ⟨rfl, rfl, rfl, rfl, rfl⟩)
        | text => exact haccept .text haccepted _ (hkeeps.trans ⟨rfl, rfl, rfl, rfl, rfl⟩)
        | video =>
          have hvideo := ofName?_eq_video hm
          obtain ⟨content, hcontent⟩ := Option.isSome_iff_exists.1 (hcontent (hvideo ▸ hmedia))
          dsimp only
          rw [hcontent, Option.bind_some]
          cases content with
          | unsaid =>
            have hshows : showsMain md = true := by rw [showsMain, hcontent]
            rw [hshows] at haccepted
            exact haccept .video haccepted _ (hkeeps.trans ⟨rfl, rfl, rfl, rfl, rfl⟩)
          | main value =>
            have hshows : showsMain md = true := by rw [showsMain, hcontent]
            rw [hshows] at haccepted
            exact haccept .video haccepted _ (hkeeps.trans ⟨rfl, rfl, rfl, rfl, rfl⟩)
          | other attr =>
            have hshows : showsMain md = false := by rw [showsMain, hcontent]
            rw [hshows] at haccepted
            exact hreject haccepted [attr]
  · obtain ⟨r, hr⟩ := hrejected []
    rw [if_neg hname, Option.bind_some, if_pos rfl, hr]
    have hnone : acceptedAs md = none := by
      rw [acceptedAs, if_neg fun hboth => hname (Option.some.inj (htransport.symm.trans hboth.1))]
    refine ⟨_, rfl, fun _ => ⟨rfl, rfl, rfl, rfl, rfl⟩, fun m hm => ?_⟩
    rw [hnone] at hm
    cases hm

end RTPParticipant

end McuMediaServer.Web.Negotiation
