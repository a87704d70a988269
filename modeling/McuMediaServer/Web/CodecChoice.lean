import McuMediaServer.Base.Run
import McuMediaServer.Web.Selection

/-!
# The codec that is sent

The bindings and the ids of the descriptions before are kept, and each medium of a description
chooses from all of them. `RTPParticipant.followsAll_of_renews` says when that makes no difference.
-/

namespace McuMediaServer.Web.Negotiation

open Sdp (Own Attribute Connection MediaDescription SessionDescription equalsIgnoreCase getAttribute
  hasAttribute getAttributes getRTPMap getFormatParameters)

namespace RTPParticipant

variable {p q : RTPParticipant} {m : Media} {md : MediaDescription Own}
  {nated : Option Str → Bool} {ip : Option Str} {it : HashMap.Iteration Int Int}
  {ice : Option ICEInfo}

/-! ## All media of a description -/

/-- A medium is neither sent otherwise nor bound otherwise. -/
structure Same (p q : RTPParticipant) (m : Media) : Prop where
  supportedCodecs : q.supportedCodecs = p.supportedCodecs
  useICE : p.useICE = true → q.useICE = true
  sender : q.sender m = p.sender m
  map : q.rtpOutMediaMap m = p.rtpOutMediaMap m
  ids : q.extensionId m = p.extensionId m

theorem Keeps.same (h : Keeps p q) (m : Media) : Same p q m where
  supportedCodecs := h.supportedCodecs
  useICE hice := h.useICE.trans hice
  sender := congrFun h.sender m
  map := congrFun h.rtpOutMediaMap m
  ids := congrFun h.extensionId m

theorem Negotiates.same {m' : Media} (h : Negotiates nated ip p q m' md) (hm : m ≠ m') :
    Same p q m where
  supportedCodecs := h.supportedCodecs
  useICE := h.useICE
  sender := h.senders m hm
  map := h.maps m hm
  ids := h.ids m hm

theorem bound_eq (p : RTPParticipant) (m : Media) (type : Int) :
    p.bound m type = ((p.rtpOutMediaMap m).getD .empty).get? type := by
  rw [bound]
  cases p.rtpOutMediaMap m <;> rfl

theorem mem_boundTypes {type codec : Int} :
    (type, codec) ∈ p.boundTypes m ↔ p.bound m type = some codec := by
  rw [boundTypes, HashMap.mem_entries, bound_eq]

theorem Negotiates.bound_or (h : Negotiates nated ip p q m md) {type codec : Int}
    (hbound : q.bound m type = some codec) :
    (type, codec) ∈ bindings m md ∨
      type ∉ (bindings m md).map Prod.fst ∧ p.bound m type = some codec := by
  rw [bound_eq, h.map, Option.getD_some] at hbound
  rcases em (type ∈ (bindings m md).map Prod.fst) with hmem | hmem
  · obtain ⟨codec', hcodec', hget⟩ := HashMap.get?_putAll_of_mem hmem
    rw [hget] at hbound
    exact .inl (Option.some.inj hbound ▸ hcodec')
  · rw [HashMap.get?_putAll_of_notMem hmem] at hbound
    exact .inr ⟨hmem, (bound_eq p m type).trans hbound⟩

theorem lines_concat (m : Media) (mds : List (MediaDescription Own)) (md : MediaDescription Own) :
    lines m (mds ++ [md]) =
      if acceptedAs md = some m then lines m mds ++ [md] else lines m mds := by
  rw [lines, List.filter_append, ← lines]
  split
  case isTrue h => simp [h]
  case isFalse h => simp [h]

/-- Media of a description have been processed, those that are accepted as `m` among them. -/
structure Processed (nated : Option Str → Bool) (ip : Option Str) (p₀ : RTPParticipant) (m : Media)
    (mds : List (MediaDescription Own)) (p : RTPParticipant) : Prop where
  supportedCodecs : p.supportedCodecs = p₀.supportedCodecs
  bound : ∀ type codec, p.bound m type = some codec →
    (∃ md ∈ mds, (type, codec) ∈ bindings m md) ∨ (type, codec) ∈ p₀.stale m mds
  last : ∀ md, mds.getLast? = some md → (∀ e ∈ bindings m md, p.bound m e.1 = some e.2) ∧
    ∀ type codec r, p.bound m type = some codec → p₀.rank m codec = some r →
      md.port = some (p.sender m).port ∧
      (∃ ice, (ice = true → p.useICE = true) ∧ (p.sender m).ip = mediaIp nated ice ip md) ∧
      ∃ type' codec' r', p.bound m type' = some codec' ∧ p₀.rank m codec' = some r' ∧
        (p.sender m).codec = some codec' ∧ r' ≤ r
  silent : (∀ md ∈ mds, p₀.ranks m md = []) →
    (mds ≠ [] → ∀ e ∈ p₀.stale m mds, p₀.rank m e.2 = none) → (p.sender m).port = 0
  given : ∀ name ∈ (supportedExtensions m).getD [], (∃ md ∈ mds, extensionIds name md ≠ []) →
    ∃ md ∈ mds, ∃ id ∈ extensionIds name md,
      p.extensionId m name = some (some (toString id).toList)
  kept : ∀ name ∈ (supportedExtensions m).getD [], (∀ md ∈ mds, extensionIds name md = []) →
    p.extensionId m name = p₀.extensionId m name

variable {p₀ : RTPParticipant} {mds : List (MediaDescription Own)}

theorem Processed.rank (h : Processed nated ip p₀ m mds p) : p.rank = p₀.rank := by
  funext m codec
  rw [RTPParticipant.rank, RTPParticipant.rank, h.supportedCodecs]

theorem Processed.same (h : Processed nated ip p₀ m mds p) (hsame : Same p q m) :
    Processed nated ip p₀ m mds q := by
  have hbound : q.bound m = p.bound m := by
    funext type
    rw [RTPParticipant.bound, RTPParticipant.bound, hsame.map]
  refine ⟨hsame.supportedCodecs.trans h.supportedCodecs, ?_, fun md hmd => ?_, ?_, ?_, ?_⟩
  · rw [hbound]
    exact h.bound
  · rw [hbound, hsame.sender]
    obtain ⟨hbindings, hchooses⟩ := h.last md hmd
    refine ⟨hbindings, fun type codec r htype hr => ?_⟩
    obtain ⟨hport, ⟨ice, hice, hip⟩, hcodec⟩ := hchooses type codec r htype hr
    exact ⟨hport, ⟨ice, fun htrue => hsame.useICE (hice htrue), hip⟩, hcodec⟩
  · rw [hsame.sender]
    exact h.silent
  · rw [hsame.ids]
    exact h.given
  · rw [hsame.ids]
    exact h.kept

theorem stale_concat (hne : mds ≠ []) (md : MediaDescription Own) :
    p₀.stale m (mds ++ [md]) = p₀.stale m mds := by
  rw [stale, stale, List.head?_append_of_ne_nil _ hne]

/-- **Accepting one more.** -/
theorem Processed.negotiate (h : Processed nated ip p₀ m mds p)
    (hn : Negotiates nated ip p q m md) : Processed nated ip p₀ m (mds ++ [md]) q := by
  have hmem : md ∈ mds ++ [md] := List.mem_append_right _ (List.mem_singleton_self md)
  -- what is bound is bound by one of the media, or has not been made anew
  have hbound (type codec : Int) (htype : q.bound m type = some codec) :
      (∃ md' ∈ mds ++ [md], (type, codec) ∈ bindings m md') ∨
        (type, codec) ∈ p₀.stale m (mds ++ [md]) := by
    rcases hn.bound_or htype with hnew | ⟨hnot, hold⟩
    · exact .inl ⟨md, hmem, hnew⟩
    · rcases h.bound type codec hold with ⟨md', hmd', hbinding⟩ | hstale
      · exact .inl ⟨md', List.mem_append_left _ hmd', hbinding⟩
      · right
        rcases eq_or_ne mds [] with rfl | hne
        · rw [stale, List.mem_filter] at hstale ⊢
          refine ⟨hstale.1, decide_eq_true fun md' hmd' => ?_⟩
          obtain rfl : md = md' := Option.some.inj hmd'
          exact hnot
        · rwa [stale_concat hne]
  refine ⟨hn.supportedCodecs.trans h.supportedCodecs, hbound, fun md' hmd' => ?_,
    fun hoffers hstale => ?_, fun name hname hids => ?_, fun name hname hids => ?_⟩
  · obtain rfl : md = md' := by
      rw [List.getLast?_concat] at hmd'
      exact Option.some.inj hmd'
    refine ⟨fun e he => ?_, fun type codec r htype hr => ?_⟩
    · rw [bound_eq, hn.map, Option.getD_some]
      exact get?_putAll_bindings _ he
    · rw [← h.rank] at hr
      obtain ⟨hport, hip, type', codec', r', htype', hr', hcodec, hle⟩ :=
        hn.chooses type codec r htype hr
      rw [h.rank] at hr'
      exact ⟨hport, ⟨q.useICE, id, hip⟩, type', codec', r', htype', hr', hcodec, hle⟩
  · rw [hn.silent fun type codec htype => ?_]
    · refine h.silent (fun md' hmd' => hoffers md' (List.mem_append_left _ hmd')) fun hne => ?_
      rw [← stale_concat hne md]
      exact hstale (by simp)
    · rw [h.rank]
      rcases hbound type codec htype with ⟨md', hmd', hbinding⟩ | hold
      · have hranks := hoffers md' hmd'
        rw [ranks, List.filterMap_eq_nil_iff] at hranks
        exact hranks _ (mem_offered_of_mem_bindings hbinding)
      · exact hstale (by simp) _ hold
  · rcases eq_or_ne (extensionIds name md) [] with hnone | hsome
    · obtain ⟨md', hmd', hids⟩ := hids
      have hmd'' : md' ∈ mds := by
        rcases List.mem_append.1 hmd' with hmd' | hmd'
        · exact hmd'
        · exact absurd (List.mem_singleton.1 hmd' ▸ hnone) hids
      obtain ⟨md'', hmd'', id, hid, hget⟩ := h.given name hname ⟨md', hmd'', hids⟩
      exact ⟨md'', List.mem_append_left _ hmd'', id, hid, (hn.kept name hname hnone).trans hget⟩
    · obtain ⟨id, hid, hget⟩ := hn.given name hname hsome
      exact ⟨md, hmem, id, hid, hget⟩
  · rw [hn.kept name hname (hids md hmem)]
    exact h.kept name hname fun md' hmd' => hids md' (List.mem_append_left _ hmd')

theorem Processed.selectable {rest : List (MediaDescription Own)}
    (h : Processed nated ip p₀ m mds p) (hrenews : p₀.RenewsMedia m (mds ++ md :: rest)) :
    Selectable p m md := by
  obtain ⟨_, _, hrtx, hcodecs, _⟩ := hrenews
  have hmem : md ∈ mds ++ md :: rest := List.mem_append_right _ List.mem_cons_self
  -- what has been bound up to now is bound by one of the media, or was bound before
  have hstale (type codec : Int) (htype : p.bound m type = some codec)
      (hnot : type ∉ (bindings m md).map Prod.fst) :
      (type, codec) ∈ p₀.stale m (mds ++ md :: rest) ++
        (mds ++ md :: rest).flatMap (bindings m) := by
    rcases h.bound type codec htype with ⟨md', hmd', hbinding⟩ | hstale
    · exact List.mem_append_right _ (List.mem_flatMap.2
        ⟨md', List.mem_append_left _ hmd', hbinding⟩)
    · refine List.mem_append_left _ ?_
      rw [stale, List.mem_filter] at hstale ⊢
      refine ⟨hstale.1, decide_eq_true fun md' hmd' => ?_⟩
      cases mds with
      | nil =>
        obtain rfl : md = md' := Option.some.inj hmd'
        exact hnot
      | cons first mds => exact of_decide_eq_true hstale.2 md' hmd'
  constructor
  · intro hne
    rw [h.supportedCodecs]
    refine hcodecs (by simp) fun hnil => hne ?_
    obtain ⟨hbefore, hnone⟩ := List.append_eq_nil_iff.1 hnil
    have hbindings : bindings m md = [] := List.flatMap_eq_nil_iff.1 hnone md hmem
    rw [hbindings, List.append_nil]
    refine List.eq_nil_iff_forall_not_mem.2 fun ⟨type, codec⟩ he => ?_
    rcases h.bound type codec (mem_boundTypes.1 he) with ⟨md', hmd', hbinding⟩ | hold
    · rw [List.flatMap_eq_nil_iff.1 hnone md' (List.mem_append_left _ hmd')] at hbinding
      exact absurd hbinding List.not_mem_nil
    · rw [stale, List.mem_filter, hbefore] at hold
      exact absurd hold.1 List.not_mem_nil
  · intro hm type htype
    rcases em (type ∈ (bindings m md).map Prod.fst) with hnew | hnew
    · obtain ⟨codec, hcodec, hget⟩ :=
        HashMap.get?_putAll_of_mem (m := (p.rtpOutMediaMap m).getD .empty) hnew
      obtain rfl : Codecs.rtx = codec := Option.some.inj (htype.symm.trans hget)
      exact hrtx hm md hmem (type, Codecs.rtx)
        (List.mem_append_right _ (List.mem_flatMap.2 ⟨md, hmem, hcodec⟩)) rfl
    · rw [HashMap.get?_putAll_of_notMem hnew, ← bound_eq] at htype
      exact hrtx hm md hmem (type, Codecs.rtx) (hstale type Codecs.rtx htype hnew) rfl

theorem processed_reset (nated : Option Str → Bool) (ip : Option Str) (p : RTPParticipant)
    (m : Media) (videoBitrate : Int) (useICE useDTLS : Bool) :
    Processed nated ip p m [] (p.reset videoBitrate useICE useDTLS) where
  supportedCodecs := rfl
  bound type codec htype := by
    right
    rw [stale, List.mem_filter]
    exact ⟨mem_boundTypes.2 htype, decide_eq_true fun md hmd => absurd hmd (Option.not_mem_none md)⟩
  last md hmd := by cases hmd
  silent _ _ := rfl
  given name _ hids := by
    obtain ⟨md, hmd, _⟩ := hids
    exact absurd hmd List.not_mem_nil
  kept _ _ _ := rfl

/-- **All media.** The media of a description that is renewed are processed one after the other. -/
theorem exists_foldlM_processMedia (it : HashMap.Iteration Int Int) (ice : Option ICEInfo)
    {medias : List (MediaDescription Own)}
    (hread : ∀ md ∈ medias, ReadableMedia md)
    (hrenews : ∀ m : Media, p₀.RenewsMedia m (lines m medias)) {l₀ : RTPParticipant × Remote}
    (hinit : ∀ m, Processed nated ip p₀ m [] l₀.1) (before : List (MediaDescription Own))
    (hbefore : before <+: medias) :
    ∃ l, before.foldlM (processMedia nated it ip ice) l₀ = some l ∧
      (l₀.1.useICE = true → l.1.useICE = true) ∧
      ∀ m, Processed nated ip p₀ m (lines m before) l.1 := by
  induction before using List.reverseRecOn with
  | nil => exact ⟨l₀, rfl, id, hinit⟩
  | append_singleton before md ih =>
    obtain ⟨rest, rfl⟩ := hbefore
    obtain ⟨l, hl, hice, hprocessed⟩ := ih ((List.prefix_append before [md]).trans
      (List.prefix_append _ rest))
    have hselectable (m : Media) (hm : acceptedAs md = some m) : Selectable l.1 m md := by
      have hlines : lines m (before ++ [md] ++ rest) = lines m before ++ md :: lines m rest := by
        rw [lines, List.filter_append, ← lines, ← lines, lines_concat, if_pos hm,
          List.append_assoc, List.singleton_append]
      exact (hprocessed m).selectable (hlines ▸ hrenews m)
    obtain ⟨l', hl', hkeeps, hnegotiates⟩ :=
      exists_processMedia nated it ip ice (hread md (by simp)) l hselectable
    refine ⟨l', ?_, ?_, fun m => ?_⟩
    · rw [List.foldlM_append, hl]
      simpa using hl'
    · intro huse
      cases hm : acceptedAs md with
      | none => exact (hkeeps hm).useICE.trans (hice huse)
      | some m => exact (hnegotiates m hm).useICE (hice huse)
    · rw [lines_concat]
      split
      case isTrue hm => exact (hprocessed m).negotiate (hnegotiates m hm)
      case isFalse hm =>
        cases hm' : acceptedAs md with
        | none => exact (hprocessed m).same ((hkeeps hm').same m)
        | some m' =>
          refine (hprocessed m).same ((hnegotiates m' hm').same ?_)
          rintro rfl
          exact hm hm'

/-! ## What is sent follows -/

theorem mediaIp_of_none (ice : Bool) (hnone : md.connections.getLast? = none) :
    mediaIp nated ice ip md = ip := by
  rw [mediaIp, List.getLast?_eq_none_iff.1 hnone]
  rfl

theorem mediaIp_of_some (ice : Bool) {c : Connection} (hlast : md.connections.getLast? = some c) :
    mediaIp nated ice ip md = if nated c.address || ice then anyAddress else c.address := by
  obtain ⟨cs, hcs⟩ := List.getLast?_eq_some_iff.1 hlast
  rw [mediaIp, hcs, List.foldl_append]
  rfl

theorem mediaIp_follows {sdp : SessionDescription Own} {ice session useICE : Bool}
    (hip : sessionIp nated session sdp = some ip) (hsession : session = true → useICE = true)
    (hice : ice = true → useICE = true) :
    mediaIp nated ice ip md = addressOf sdp md ∨
      mediaIp nated ice ip md = anyAddress ∧ Natted nated useICE sdp md := by
  cases hlast : md.connections.getLast? with
  | some c =>
    have haddress : addressOf sdp md = c.address := by rw [addressOf, hlast]
    rw [mediaIp_of_some ice hlast, Natted, haddress]
    split
    case isTrue hnat =>
      refine .inr ⟨rfl, ?_⟩
      rcases Bool.or_eq_true_iff.1 hnat with hnated | huse
      · exact .inr (.inl hnated)
      · exact .inl (hice huse)
    case isFalse => exact .inl rfl
  | none =>
    have haddress : addressOf sdp md = sdp.connection.bind Sdp.Connection.address := by
      rw [addressOf, hlast]
    rw [mediaIp_of_none ice hlast, Natted, haddress]
    rw [sessionIp] at hip
    cases hconn : sdp.connection with
    | none =>
      rw [hconn] at hip
      cases hip
      exact .inl rfl
    | some conn =>
      rw [hconn] at hip
      obtain ⟨addrType, htype, rfl⟩ := Option.map_eq_some_iff.1 hip
      rw [Option.bind_some]
      split
      case isTrue hother =>
        have hempty := List.getLast?_eq_none_iff.1 hlast
        exact .inr ⟨rfl, .inr (.inr ⟨hempty, conn, rfl, addrType, htype, by simpa using hother⟩)⟩
      case isFalse =>
        split
        case isTrue hnat =>
          refine .inr ⟨rfl, ?_⟩
          rcases Bool.or_eq_true_iff.1 hnat with hnated | huse
          · exact .inr (.inl hnated)
          · exact .inl (hsession huse)
        case isFalse => exact .inl rfl

theorem rank_inj {codec codec' : Int} {r : Nat} (h : p.rank m codec = some r)
    (h' : p.rank m codec' = some r) : codec = codec' := by
  rw [rank] at h h'
  split at h
  · cases h
  · split at h'
    · cases h'
    · obtain ⟨_, hget, _⟩ := List.idxOf?_eq_some_iff.1 h
      obtain ⟨_, hget', _⟩ := List.idxOf?_eq_some_iff.1 h'
      exact hget.symm.trans hget'

theorem mem_ranks {e : Int × Int} (he : e ∈ offered m md) {r : Nat} (hr : p.rank m e.2 = some r) :
    r ∈ p.ranks m md :=
  List.mem_filterMap.2 ⟨e, he, hr⟩

/-- **What is sent.** When something is offered that is supported, the first of it is sent to the
last of the media, which offers it. -/
theorem Processed.sends {sdp : SessionDescription Own} {session : Bool}
    (hip : sessionIp nated session sdp = some ip) (hsession : session = true → p.useICE = true)
    (hread : ∀ md ∈ lines m sdp.medias, (readFormats m md).isSome)
    (h : Processed nated ip p₀ m (lines m sdp.medias) p)
    (hrenews : p₀.RenewsMedia m (lines m sdp.medias))
    (hoffers : ∃ md ∈ lines m sdp.medias, p₀.ranks m md ≠ []) :
    ∃ md ∈ lines m sdp.medias, ∃ codec r, p.Sends m nated sdp md codec r := by
  obtain ⟨hlast, hstale, _⟩ := hrenews
  have hne : lines m sdp.medias ≠ [] := by
    obtain ⟨md, hmd, _⟩ := hoffers
    exact List.ne_nil_of_mem hmd
  obtain ⟨md, hmd⟩ : ∃ md, (lines m sdp.medias).getLast? = some md :=
    ⟨_, List.getLast?_eq_some_getLast hne⟩
  have hmem : md ∈ lines m sdp.medias := List.mem_of_getLast? hmd
  obtain ⟨r, hr, hfirst⟩ := hlast md hmd hoffers
  obtain ⟨e, he, hrank⟩ := List.mem_filterMap.1 hr
  obtain ⟨type, htype⟩ := exists_binding (hread md hmem) he
  obtain ⟨hbindings, hchooses⟩ := h.last md hmd
  have hbound : p.bound m type = some e.2 := hbindings (type, e.2) htype
  obtain ⟨hport, ⟨ice, hice, hsent⟩, type', codec', r', htype', hr', hcodec, hle⟩ :=
    hchooses type e.2 r hbound hrank
  -- nothing that is bound has a lower index
  have hge : r ≤ r' := by
    rcases h.bound type' codec' htype' with ⟨md', hmd', hbinding⟩ | hold
    · exact hfirst md' hmd' r' (mem_ranks (mem_offered_of_mem_bindings hbinding) hr')
    · obtain ⟨md', hmd', r'', hr'', hle'⟩ := hstale hne _ hold r' hr'
      exact (hfirst md' hmd' r'' hr'').trans hle'
  obtain rfl : r = r' := le_antisymm hge hle
  obtain rfl : e.2 = codec' := rank_inj hrank hr'
  have hranks : p.ranks m = p₀.ranks m := by
    funext md
    rw [ranks, ranks, h.rank]
  refine ⟨md, hmem, e.2, r, ?_, ?_, ?_, hcodec, hport, ?_, ?_⟩
  · exact List.mem_map_of_mem he
  · rw [h.rank, hrank]
  · rw [hranks]
    exact hfirst
  · rw [hsent]
    exact mediaIp_follows hip hsession hice
  · exact ⟨type, mem_offered_of_mem_bindings htype, hbound⟩

theorem readable_of_mem_lines {medias : List (MediaDescription Own)}
    (hread : ∀ md ∈ medias, ReadableMedia md) (hmd : md ∈ lines m medias) : Readable m md := by
  obtain ⟨hmem, haccepted⟩ := List.mem_filter.1 hmd
  have haccepted := of_decide_eq_true haccepted
  have hrtp : transport md = some "RTP".toList ∧ md.port ≠ some 0 := by
    by_contra hnot
    rw [acceptedAs, if_neg hnot] at haccepted
    cases haccepted
  obtain ⟨_, hread⟩ := hread md hmem
  obtain ⟨_, hread⟩ := hread hrtp.1
  obtain ⟨_, _, _, _, _, _, _, hreadable⟩ := hread hrtp.2
  exact hreadable m haccepted

theorem Processed.extensions (h : Processed nated ip p₀ m mds p) (hrenews : p₀.RenewsMedia m mds)
    (hne : mds ≠ []) {name : Str} (hname : name ∈ (supportedExtensions m).getD []) :
    (∀ id, p.extensionId m name = some id → ∃ md ∈ mds, ∃ n ∈ extensionIds name md,
      id = some (toString n).toList) ∧
    ((∃ md ∈ mds, extensionIds name md ≠ []) → p.extensionId m name ≠ none) := by
  obtain ⟨_, _, _, _, hids⟩ := hrenews
  rcases em (∃ md ∈ mds, extensionIds name md ≠ []) with hgiven | hgiven
  · obtain ⟨md, hmd, n, hn, hget⟩ := h.given name hname hgiven
    refine ⟨fun id hid => ⟨md, hmd, n, hn, ?_⟩, fun _ hnone => ?_⟩
    · exact Option.some.inj (hid.symm.trans hget)
    · rw [hget] at hnone
      cases hnone
  · have hkept := h.kept name hname fun md hmd => by_contra fun hsome => hgiven ⟨md, hmd, hsome⟩
    refine ⟨fun id hid => ?_, fun hsome => absurd hsome hgiven⟩
    rw [hkept] at hid
    exact absurd (hids hne name hname fun hnone => by rw [hnone] at hid; cases hid) hgiven

/-- **One description.** A description that renews what a participant has is followed. -/
theorem follows_of_renews (nated : Option Str → Bool) (it : HashMap.Iteration Int Int)
    (p : RTPParticipant) (sdp : SessionDescription Own) (h : p.Renews sdp) :
    ∃ q, p.processSDP nated it sdp = some q ∧ ∀ m, q.Follows m nated sdp := by
  obtain ⟨⟨hconn, hbitrate, hice, hfingerprint, hread⟩, hrenews⟩ := h
  have hip : ∃ ip, sessionIp nated p.useICE sdp = some ip := by
    rw [sessionIp]
    cases hconnection : sdp.connection with
    | none => exact ⟨none, rfl⟩
    | some conn =>
      obtain ⟨addrType, htype⟩ := Option.isSome_iff_exists.1 (hconn conn hconnection)
      dsimp only
      rw [htype]
      exact ⟨_, rfl⟩
  obtain ⟨ip, hip⟩ := hip
  obtain ⟨bitrate, hbitrate⟩ := Option.isSome_iff_exists.1 hbitrate
  obtain ⟨ice, hice⟩ := Option.isSome_iff_exists.1 hice
  obtain ⟨fingerprint, hfingerprint⟩ := Option.isSome_iff_exists.1 hfingerprint
  have hinit (m : Media) := processed_reset nated ip p m bitrate (p.useICE || ice.isSome)
    (p.useDTLS || fingerprint.isSome)
  have hall : ∃ l, sdp.medias.foldlM (processMedia nated it ip ice)
      (p.reset bitrate (p.useICE || ice.isSome) (p.useDTLS || fingerprint.isSome),
        fingerprint.getD {}) = some l ∧
      ((p.useICE || ice.isSome) = true → l.1.useICE = true) ∧
      ∀ m, Processed nated ip p m (lines m sdp.medias) l.1 :=
    exists_foldlM_processMedia it ice hread hrenews hinit sdp.medias (List.prefix_refl _)
  obtain ⟨l, hl, huse, hprocessed⟩ := hall
  have hranks (m : Media) : l.1.ranks m = p.ranks m := by
    funext md
    rw [ranks, ranks, (hprocessed m).rank]
  have hsession : p.useICE = true → l.1.useICE = true :=
    fun htrue => huse (Bool.or_eq_true_iff.2 (.inl htrue))
  refine ⟨l.1, ?_, fun m => ⟨fun hoffers => ?_, fun hnone => ?_, fun hne name hname => ?_⟩⟩
  · rw [processSDP, hip, Option.bind_some, hbitrate, Option.bind_some, hice, Option.bind_some,
      hfingerprint, Option.bind_some, hl, Option.map_some]
  · rw [hranks] at hoffers
    exact (hprocessed m).sends hip hsession
      (fun md hmd => (readable_of_mem_lines hread hmd).2.2.2.2.2.2.1) (hrenews m) hoffers
  · rw [hranks] at hnone
    refine (hprocessed m).silent hnone fun hne e he => ?_
    cases hr : p.rank m e.2 with
    | none => rfl
    | some r =>
      obtain ⟨md, hmd, r', hr', _⟩ := (hrenews m).2.1 hne e he r hr
      rw [hnone md hmd] at hr'
      exact absurd hr' List.not_mem_nil
  · exact (hprocessed m).extensions (hrenews m) hne hname

/-- After each of the descriptions processed the participant follows it. -/
def FollowsAll (nated : Option Str → Bool) (it : HashMap.Iteration Int Int) (p : RTPParticipant)
    (sdps : List (SessionDescription Own)) : Prop :=
  ∀ before sdp, before ++ [sdp] <+: sdps →
    ∃ q, (before ++ [sdp]).foldlM (fun p sdp => p.processSDP nated it sdp) p = some q ∧
      ∀ m, q.Follows m nated sdp

/-- **In a run whose descriptions all renew what the participant has, each of them is followed.** -/
theorem followsAll_of_renews (nated : Option Str → Bool) (it : HashMap.Iteration Int Int)
    (supportedCodecs : Media → Option (List Int)) (sdps : List (SessionDescription Own))
    (h : StepRun.MeetsM (fun p sdp => p.processSDP nated it sdp) Renews (new supportedCodecs)
      sdps) :
    FollowsAll nated it (new supportedCodecs) sdps := by
  generalize new supportedCodecs = p at h ⊢
  induction sdps generalizing p with
  | nil =>
    intro before sdp hbefore
    exact absurd (List.prefix_nil.1 hbefore) (by simp)
  | cons first sdps ih =>
    obtain ⟨hrenews, hrest⟩ := h
    obtain ⟨q, hq, hfollows⟩ := follows_of_renews nated it p first hrenews
    intro before sdp hbefore
    cases before with
    | nil =>
      obtain ⟨rfl, _⟩ := List.cons_prefix_cons.1 hbefore
      refine ⟨q, ?_, hfollows⟩
      rw [List.nil_append, List.foldlM_cons, hq]
      rfl
    | cons b before =>
      obtain ⟨rfl, htail⟩ := List.cons_prefix_cons.1 hbefore
      obtain ⟨q', hq', hfollows'⟩ := ih q (hrest q hq) before sdp htail
      refine ⟨q', ?_, hfollows'⟩
      rw [List.cons_append, List.foldlM_cons, hq]
      exact hq'

/-- A medium of audio. -/
def audioLine (formats : List String) (attributes : List (Attribute Own)) :
    MediaDescription Own where
  media := some Media.audio.name
  port := some 5004
  proto := [some "RTP".toList, some "AVP".toList]
  formats := formats.map fun fmt => some fmt.toList
  connections := []
  bandwidths := []
  attributes := attributes

/-- A description with one medium of audio. -/
def audioOffer (formats : List String) (attributes : List (Attribute Own)) :
    SessionDescription Own where
  version := some 0
  emails := []
  phones := []
  bandwidths := []
  attributes := []
  times := []
  connection := some ⟨some "IN".toList, some "IP4".toList, some "192.0.2.1".toList⟩
  medias := [audioLine formats attributes]

/-- OPUS and PCMU, with the level of the audio. -/
def opusOffer : SessionDescription Own :=
  audioOffer ["98", "0"] [.rtpMap (some 98) (some "opus".toList) (some 48000) none,
    .extMap (some 4) none (some "urn:ietf:params:rtp-hdrext:ssrc-audio-level".toList) none]

/-- OPUS is preferred to PCMU. -/
def audioCodecs : Media → Option (List Int)
  | .audio => some [98, 0]
  | _ => none

theorem followsAll_of_renews_opusOffer :
    FollowsAll (fun _ => false) (.sorted Int Int) (new audioCodecs) [opusOffer] :=
  followsAll_of_renews (fun _ => false) (.sorted Int Int) audioCodecs [opusOffer] (by
    refine ⟨⟨by decide, fun m => ?_⟩, fun _ _ => trivial⟩
    cases m <;> decide)

/-- A codec that is not offered any more is still sent. -/
theorem not_followsAll_pcmu : ¬ ∀ (nated : Option Str → Bool) (it : HashMap.Iteration Int Int)
    (supportedCodecs : Media → Option (List Int)) (sdps : List (SessionDescription Own)),
    FollowsAll nated it (new supportedCodecs) sdps := by
  intro h
  obtain ⟨q, hq, hfollows⟩ := h (fun _ => false) (.sorted Int Int) audioCodecs
    [opusOffer, audioOffer ["0"] []] [opusOffer] (audioOffer ["0"] []) (List.prefix_refl _)
  have hsent : (([opusOffer, audioOffer ["0"] []].foldlM
      (fun (p : RTPParticipant) sdp => p.processSDP (fun _ => false) (.sorted Int Int) sdp)
        (new audioCodecs)).map fun q => ((q.sender .audio).codec, q.supportedCodecs .audio)) =
          some (some 98, some [98, 0]) := by decide
  rw [show [opusOffer, audioOffer ["0"] []] = [opusOffer] ++ [audioOffer ["0"] []] from rfl, hq,
    Option.map_some, Option.some_inj, Prod.mk.injEq] at hsent
  have hoffers : ∃ md ∈ lines .audio (audioOffer ["0"] []).medias, q.ranks .audio md ≠ [] := by
    have haccepted : acceptedAs (audioLine ["0"] []) = some .audio := by decide
    have hoffered : (0, 0) ∈ offered .audio (audioLine ["0"] []) := by decide
    have hrank : q.rank .audio 0 = some 1 := by
      rw [rank, hsent.2]
      decide
    refine ⟨audioLine ["0"] [], List.mem_filter.2 ⟨List.mem_singleton_self _,
      decide_eq_true haccepted⟩, List.ne_nil_of_mem (mem_ranks hoffered hrank)⟩
  obtain ⟨md, hmd, codec, r, hsends⟩ := (hfollows .audio).sends hoffers
  have hcodec := hsends.chosen
  rw [hsent.1] at hcodec
  have hoffered := hsends.offers
  obtain rfl : md = audioLine ["0"] [] := List.mem_singleton.1 (List.mem_of_mem_filter hmd)
  rw [← Option.some.inj hcodec] at hoffered
  exact absurd hoffered (by decide)

end RTPParticipant

end McuMediaServer.Web.Negotiation
