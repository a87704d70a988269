import McuMediaServer.Rtmp.PipedStream

/-!
# The law of piped streams

A stream that waits holds exactly what the inputs so far leave for the beginning
(`RTMPPipedMediaStream.Waiting`), and a stream that has begun sends each input with its time since
the first frame. So a listener that was there before anything was stored is told what it is to get
(`RTMPPipedMediaStream.lawful_of_orderly`).
-/

namespace McuMediaServer

open StepRun

namespace RTMPPipedMediaStream

variable {s : RTMPPipedMediaStream} {listener : Nat}

/-! ## What is sent -/

@[simp] theorem send_sent (events : List StreamEvent) :
    (s.send events).sent = s.sent ++ events := rfl

@[simp] theorem send_first (events : List StreamEvent) : (s.send events).first = s.first := rfl

@[simp] theorem sendMediaFrame_sent (frame : RTMPMediaFrame) :
    (s.sendMediaFrame frame).sent = s.sent ++ [.onMediaFrame frame] := rfl

@[simp] theorem sendMediaFrame_first (frame : RTMPMediaFrame) :
    (s.sendMediaFrame frame).first = s.first := rfl

@[simp] theorem silent_first : s.silent.first = s.first := rfl

@[simp] theorem silent_sent : s.silent.sent = [] := rfl

@[simp] theorem silent_listeners : s.silent.listeners = s.listeners := rfl

/-- What does not change while a stream runs. -/
structure SameStream (s t : RTMPPipedMediaStream) : Prop where
  waitIntra_eq : t.waitIntra = s.waitIntra
  rewriteTimestamps_eq : t.rewriteTimestamps = s.rewriteTimestamps
  cached_isSome_eq : t.cached.isSome = s.cached.isSome

theorem SameStream.refl (s : RTMPPipedMediaStream) : SameStream s s := ⟨rfl, rfl, rfl⟩

theorem sameStream_silent : SameStream s s.silent := ⟨rfl, rfl, rfl⟩

theorem SameStream.trans {t u : RTMPPipedMediaStream} (hst : SameStream s t)
    (htu : SameStream t u) : SameStream s u :=
  ⟨htu.1.trans hst.1, htu.2.trans hst.2, htu.3.trans hst.3⟩

theorem sameStream_sendMediaFrame (frame : RTMPMediaFrame) :
    SameStream s (s.sendMediaFrame frame) :=
  ⟨rfl, rfl, Option.isSome_map⟩

theorem begin_sent (ts : QWORD) :
    (s.begin ts).sent = s.sent ++ .onStreamBegin :: (s.metaData.toList.map .onMetaData ++
      s.desc.toList.map (fun config => .onMediaFrame (.video config)) ++
        s.aacSpecificConfig.toList.map (fun config => .onMediaFrame (.audio config))) := by
  rcases s with ⟨_, _, _, _, _ | _, _ | _, _ | _, _, _⟩ <;>
    simp [begin, send, sendMediaFrame]

@[simp] theorem begin_first (ts : QWORD) : (s.begin ts).first = ts := by
  rcases s with ⟨_, _, _, _, _ | _, _ | _, _ | _, _, _⟩ <;> rfl

@[simp] theorem begin_listeners (ts : QWORD) : (s.begin ts).listeners = s.listeners := by
  rcases s with ⟨_, _, _, _, _ | _, _ | _, _ | _, _, _⟩ <;> rfl

theorem sameStream_begin (ts : QWORD) : SameStream s (s.begin ts) := by
  rcases s with ⟨_, _, _, _, _ | _, _ | _, _ | _, _, _⟩ <;>
    constructor <;> simp [begin, send, sendMediaFrame]

theorem sameStream_relay (frame : RTMPMediaFrame) : SameStream s (s.relay frame) := by
  unfold relay
  split
  · split
    · exact .refl s
    · exact sameStream_sendMediaFrame _
  · exact sameStream_sendMediaFrame _

theorem relay_first (frame : RTMPMediaFrame) : (s.relay frame).first = s.first := by
  unfold relay
  split
  · split <;> rfl
  · rfl

theorem relay_listeners (frame : RTMPMediaFrame) : (s.relay frame).listeners = s.listeners := by
  unfold relay
  split
  · split <;> rfl
  · rfl

theorem ofNat_toNat_sub {a b : QWORD} (hle : a ≤ b) :
    BitVec.ofNat 64 (b.toNat - a.toNat) = b - a := by
  apply BitVec.eq_of_toNat_eq
  rw [BitVec.toNat_ofNat, BitVec.toNat_sub_of_le hle, Nat.mod_eq_of_lt (by omega)]

theorem relay_sent (hrewrite : s.rewriteTimestamps) {frame : RTMPMediaFrame}
    (hle : s.first ≤ frame.getTimestamp) :
    (s.relay frame).sent = s.sent ++ Input.relative s.first (.frame frame) := by
  have hlt : ¬ frame.getTimestamp < s.first := BitVec.not_lt.2 hle
  rw [relay, if_pos hrewrite, if_neg hlt, sendMediaFrame_sent, Input.relative,
    ofNat_toNat_sub hle]

/-! ## The condition -/

/-- The step of a run that the law holds for. Timestamps are rewritten, are set and are not before
the first one; an audio configuration that is stored is at time zero; metadata that is not a data
frame does not come before the stream begins, unless nobody listens; and a listener is added before
anything is stored for it. -/
def Orderly (s : RTMPPipedMediaStream) : Input → Prop
  | .frame frame => s.rewriteTimestamps ∧ frame.getTimestamp ≠ -1 ∧
      (s.first ≠ -1 → s.first ≤ frame.getTimestamp) ∧
      (s.first = -1 → s.waitIntra → (aacConfig frame).isSome → frame.getTimestamp = 0)
  | .metaData message => s.rewriteTimestamps ∧
      (s.first ≠ -1 → s.first ≤ message.timestamp) ∧
      (s.first = -1 → dataFrame message = none → ∀ listener, s.listeners listener = false)
  | .addMediaListener _ => s.first = -1 ∧ s.metaData = none ∧ s.desc = none
  | _ => True

/-- What a stream holds that has not begun after some inputs. -/
structure Waiting (before : List Input) (s : RTMPPipedMediaStream) : Prop where
  first_eq : s.first = -1
  metaData_eq : s.metaData = (lastDataFrame before).map fun params => ⟨0, params⟩
  desc_eq : s.desc = lastAvcConfig before
  aacSpecificConfig_eq : s.aacSpecificConfig = lastAacConfig before
  cached_eq : s.cached.getD [] = []

variable {input : Input}

section Last
variable {before : List Input}

@[simp] theorem lastAvcConfig_frame (frame : RTMPMediaFrame) :
    lastAvcConfig (before ++ [.frame frame]) = (avcConfig frame).or (lastAvcConfig before) := by
  simp only [lastAvcConfig, List.filterMap_append, List.filterMap_cons, Input.frame?,
    List.filterMap_nil]
  cases avcConfig frame <;> simp

@[simp] theorem lastAacConfig_frame (frame : RTMPMediaFrame) :
    lastAacConfig (before ++ [.frame frame]) = (aacConfig frame).or (lastAacConfig before) := by
  simp only [lastAacConfig, List.filterMap_append, List.filterMap_cons, Input.frame?,
    List.filterMap_nil]
  cases aacConfig frame <;> simp

@[simp] theorem lastDataFrame_metaData (message : RTMPMetaData) :
    lastDataFrame (before ++ [.metaData message]) =
      (dataFrame message).or (lastDataFrame before) := by
  simp only [lastDataFrame, List.filterMap_append, List.filterMap_cons, Input.metaData?,
    List.filterMap_nil]
  cases dataFrame message <;> simp

theorem lastConfigs_of_frame?_eq_none (hnone : input.frame? = none) :
    lastAvcConfig (before ++ [input]) = lastAvcConfig before ∧
      lastAacConfig (before ++ [input]) = lastAacConfig before := by
  simp only [lastAvcConfig, lastAacConfig, List.filterMap_append, List.filterMap_cons, hnone,
    List.filterMap_nil, List.append_nil, and_self]

theorem lastDataFrame_of_metaData?_eq_none (hnone : input.metaData? = none) :
    lastDataFrame (before ++ [input]) = lastDataFrame before := by
  simp only [lastDataFrame, List.filterMap_append, List.filterMap_cons, hnone,
    List.filterMap_nil, List.append_nil]

end Last

/-! ## A stream that waits -/

section Wait
variable {before : List Input} {frame : RTMPMediaFrame}

theorem waiting_eq_none (hwaiting : Waiting before s)
    (hbegin : mayBegin s.waitIntra before frame = true) : s.waiting frame = none := by
  have hdesc := hwaiting.desc_eq
  unfold waiting
  cases hwait : s.waitIntra with
  | false => rfl
  | true =>
    cases frame with
    | audio audio => simp [mayBegin, hwait, isPicture] at hbegin
    | video video =>
      simp only [mayBegin, hwait, isPicture, isAvc, Bool.not_true, Bool.false_or,
        Bool.and_eq_true, decide_eq_true_eq, Bool.or_eq_true, Bool.not_eq_true',
        decide_eq_false_iff_not] at hbegin
      obtain ⟨⟨hintra, hheader⟩, hconfig⟩ := hbegin
      have hkey : ¬ (video.frameType ≠ RTMPVideoFrame.INTRA ∧
          video.frameType ≠ RTMPVideoFrame.GENERATED_KEY_FRAME) := by tauto
      simp only [Bool.not_true, Bool.false_eq_true, if_false, if_neg hkey]
      split
      · rename_i havc
        have hsome : s.desc.isNone = false := by
          rw [hdesc, Option.isNone_eq_false_iff]
          exact hconfig.resolve_left (not_not_intro havc)
        rw [if_neg (hheader havc), if_neg (by simp [hsome])]
      · rfl

theorem waiting_eq_some (hwaiting : Waiting before s)
    (hbegin : mayBegin s.waitIntra before frame = false)
    (haac : s.waitIntra → (aacConfig frame).isSome → frame.getTimestamp = 0) :
    ∃ t, s.waiting frame = some t ∧ Waiting (before ++ [.frame frame]) t ∧ SameStream s t ∧
      t.sent = s.sent ∧ t.listeners = s.listeners := by
  have hwait : s.waitIntra = true := by
    cases hwait : s.waitIntra with
    | false => simp [mayBegin, hwait] at hbegin
    | true => rfl
  have hdata : lastDataFrame (before ++ [.frame frame]) = lastDataFrame before :=
    lastDataFrame_of_metaData?_eq_none rfl
  -- a frame that stores nothing
  have hkeep (havc : avcConfig frame = none) (haac : aacConfig frame = none) :
      Waiting (before ++ [.frame frame]) s :=
    ⟨hwaiting.first_eq, by rw [hdata, hwaiting.metaData_eq],
      by rw [lastAvcConfig_frame, havc, Option.none_or, hwaiting.desc_eq],
      by rw [lastAacConfig_frame, haac, Option.none_or, hwaiting.aacSpecificConfig_eq],
      hwaiting.cached_eq⟩
  unfold waiting
  simp only [hwait, Bool.not_true, Bool.false_eq_true, if_false]
  cases frame with
  | audio audio =>
    dsimp only
    rcases Classical.em (audio.codec = RTMPAudioFrame.AAC ∧
      audio.getAACPacketType = RTMPAudioFrame.AACSequenceHeader) with hconfig | hconfig
    · have haacConfig : aacConfig (.audio audio) = some { audio with timestamp := 0 } :=
        if_pos hconfig
      have hzero : audio.timestamp = 0 := haac hwait (by rw [haacConfig]; rfl)
      rw [if_pos hconfig]
      refine ⟨_, rfl, ⟨hwaiting.first_eq, by rw [hdata]; exact hwaiting.metaData_eq, ?_, ?_,
        hwaiting.cached_eq⟩, ⟨hwait.symm, rfl, rfl⟩, rfl, rfl⟩
      · rw [lastAvcConfig_frame, avcConfig, Option.none_or]
        exact hwaiting.desc_eq
      · rw [lastAacConfig_frame, haacConfig, Option.some_or, ← hzero]
    · rw [if_neg hconfig]
      exact ⟨s, rfl, hkeep rfl (if_neg hconfig), .refl s, rfl, rfl⟩
  | video video =>
    dsimp only
    rcases Classical.em (video.frameType = RTMPVideoFrame.INTRA ∨
      video.frameType = RTMPVideoFrame.GENERATED_KEY_FRAME) with hkey | hkey
    · rw [if_neg (by tauto)]
      rcases Classical.em (video.codec = RTMPVideoFrame.AVC) with havc | havc
      · rw [if_pos havc]
        rcases Classical.em (video.getAVCType = RTMPVideoFrame.AVCHEADER) with hheader | hheader
        · rw [if_pos hheader]
          refine ⟨_, rfl, ⟨hwaiting.first_eq, by rw [hdata]; exact hwaiting.metaData_eq, ?_, ?_,
            hwaiting.cached_eq⟩, ⟨hwait.symm, rfl, rfl⟩, rfl, rfl⟩
          · rw [lastAvcConfig_frame, avcConfig, if_pos ⟨hkey, havc, hheader⟩, Option.some_or]
          · rw [lastAacConfig_frame, aacConfig, Option.none_or]
            exact hwaiting.aacSpecificConfig_eq
        · have hnone : s.desc.isNone := by
            rw [hwaiting.desc_eq]
            simpa [mayBegin, hwait, isPicture, isAvc, hkey, havc, hheader] using hbegin
          rw [if_neg hheader, if_pos hnone]
          exact ⟨s, rfl, hkeep (if_neg (by tauto)) rfl, .refl s, rfl, rfl⟩
      · simp [mayBegin, hwait, isPicture, isAvc, hkey, havc] at hbegin
    · rw [if_pos (by tauto)]
      exact ⟨s, rfl, hkeep (if_neg (by tauto)) rfl, .refl s, rfl, rfl⟩

theorem Waiting.of_eq {t : RTMPPipedMediaStream} {after : List Input}
    (hwaiting : Waiting before s) (hfirst : t.first = s.first) (hmeta : t.metaData = s.metaData)
    (hdesc : t.desc = s.desc) (haac : t.aacSpecificConfig = s.aacSpecificConfig)
    (hcached : t.cached = s.cached) (hdata : lastDataFrame after = lastDataFrame before)
    (havc : lastAvcConfig after = lastAvcConfig before)
    (haac' : lastAacConfig after = lastAacConfig before) : Waiting after t :=
  ⟨hfirst.trans hwaiting.first_eq, by rw [hmeta, hdata, hwaiting.metaData_eq],
    by rw [hdesc, havc, hwaiting.desc_eq], by rw [haac, haac', hwaiting.aacSpecificConfig_eq],
    by rw [hcached, hwaiting.cached_eq]⟩

theorem step_of_mayBegin (hwaiting : Waiting before s)
    (hbegin : mayBegin s.waitIntra before frame = true) (horderly : Orderly s (.frame frame)) :
    (step s (.frame frame)).first = frame.getTimestamp ∧
      (step s (.frame frame)).sent = .onStreamBegin ::
        (stored before ++ Input.relative frame.getTimestamp (.frame frame)) ∧
      SameStream s (step s (.frame frame)) ∧
      (step s (.frame frame)).listeners = s.listeners := by
  obtain ⟨hrewrite, hset, -, -⟩ := horderly
  have hempty : Waiting before s.silent := hwaiting.of_eq rfl rfl rfl rfl rfl rfl rfl rfl
  have hstep : step s (.frame frame) =
      (s.silent.begin frame.getTimestamp).relay frame := by
    simp only [step, onMediaFrame, if_neg hset, hempty.first_eq, if_true,
      waiting_eq_none hempty hbegin]
  have hsame : SameStream s (s.silent.begin frame.getTimestamp) :=
    sameStream_silent.trans (sameStream_begin _)
  rw [hstep]
  refine ⟨?_, ?_, hsame.trans (sameStream_relay _), ?_⟩
  · rw [relay_first, begin_first]
  · rw [relay_sent (by rw [hsame.rewriteTimestamps_eq]; exact hrewrite)
      (by rw [begin_first]; exact BitVec.le_refl _), begin_sent, begin_first]
    simp only [stored, hempty.metaData_eq, hempty.desc_eq, hempty.aacSpecificConfig_eq,
      silent_sent, Option.toList_map, List.map_map, List.nil_append, List.cons_append, List.append_assoc,
      Function.comp_def]
  · rw [relay_listeners, begin_listeners, silent_listeners]

theorem step_of_waiting (hwaiting : Waiting before s)
    (hbegin : ∀ frame, input = .frame frame → mayBegin s.waitIntra before frame = false)
    (horderly : Orderly s input) :
    Waiting (before ++ [input]) (step s input) ∧ SameStream s (step s input) ∧
      ((∃ listener, s.listeners listener = true) →
        (step s input).sent.filter counted = []) := by
  have hempty : Waiting before s.silent := hwaiting.of_eq rfl rfl rfl rfl rfl rfl rfl rfl
  cases input with
  | frame frame =>
    obtain ⟨-, hset, -, haac⟩ := horderly
    obtain ⟨t, ht, hwaiting', hsame, hsent, -⟩ := waiting_eq_some hempty
      (hbegin frame rfl) (haac hwaiting.first_eq)
    have hstep : step s (.frame frame) = t := by
      simp only [step, onMediaFrame, if_neg hset, hempty.first_eq, if_true, ht]
    rw [hstep]
    refine ⟨hwaiting', sameStream_silent.trans hsame, fun _ => ?_⟩
    rw [hsent]
    rfl
  | metaData message =>
    obtain ⟨-, -, hlistens⟩ := horderly
    have hconfigs := @lastConfigs_of_frame?_eq_none (.metaData message) before rfl
    simp only [step, onMetaData]
    rcases Classical.em (message.name = RTMPMetaData.setDataFrame) with hname | hname
    · have hdata : dataFrame message = some message.params.tail := if_pos hname
      have hfirst : ¬ s.silent.first ≠ -1 := not_not_intro hwaiting.first_eq
      simp only [if_pos hname, if_neg hfirst]
      refine ⟨⟨hwaiting.first_eq, ?_, ?_, ?_, hwaiting.cached_eq⟩, ⟨rfl, rfl, rfl⟩, fun _ => rfl⟩
      · rw [lastDataFrame_metaData, hdata]
        rfl
      · rw [hconfigs.1, ← hwaiting.desc_eq]
        rfl
      · rw [hconfigs.2, ← hwaiting.aacSpecificConfig_eq]
        rfl
    · have hdata : dataFrame message = none := if_neg hname
      simp only [if_neg hname]
      refine ⟨hwaiting.of_eq rfl rfl rfl rfl rfl ?_ hconfigs.1 hconfigs.2, ⟨rfl, rfl, rfl⟩,
        fun ⟨listener, hl⟩ => ?_⟩
      · rw [lastDataFrame_metaData, hdata, Option.none_or]
      · rw [hlistens hwaiting.first_eq hdata listener] at hl
        cases hl
  | reset =>
    exact ⟨hwaiting.of_eq rfl rfl rfl rfl rfl (lastDataFrame_of_metaData?_eq_none rfl)
      (lastConfigs_of_frame?_eq_none rfl).1 (lastConfigs_of_frame?_eq_none rfl).2,
      ⟨rfl, rfl, rfl⟩, fun _ => rfl⟩
  | addMediaListener added =>
    exact ⟨hwaiting.of_eq rfl rfl rfl rfl rfl (lastDataFrame_of_metaData?_eq_none rfl)
      (lastConfigs_of_frame?_eq_none rfl).1 (lastConfigs_of_frame?_eq_none rfl).2,
      ⟨rfl, rfl, rfl⟩, fun _ => rfl⟩
  | removeMediaListener removed =>
    exact ⟨hwaiting.of_eq rfl rfl rfl rfl rfl (lastDataFrame_of_metaData?_eq_none rfl)
      (lastConfigs_of_frame?_eq_none rfl).1 (lastConfigs_of_frame?_eq_none rfl).2,
      ⟨rfl, rfl, rfl⟩, fun _ => rfl⟩

end Wait

/-! ## A stream that has begun -/

theorem step_of_begun (hfirst : s.first ≠ -1) (horderly : Orderly s input) :
    (step s input).first = s.first ∧ SameStream s (step s input) ∧
      (step s input).sent.filter counted = input.relative s.first := by
  cases input with
  | frame frame =>
    obtain ⟨hrewrite, hset, hle, -⟩ := horderly
    have hstep : step s (.frame frame) = s.silent.relay frame := by
      simp only [step, onMediaFrame, if_neg hset, silent_first, if_neg hfirst]
    rw [hstep]
    refine ⟨relay_first _, sameStream_silent.trans (sameStream_relay _), ?_⟩
    have hsent := @relay_sent s.silent hrewrite frame (hle hfirst)
    rw [hsent]
    rfl
  | metaData message =>
    obtain ⟨hrewrite, hle, -⟩ := horderly
    have hnumber := ofNat_toNat_sub (hle hfirst)
    have hfirst' : s.silent.first ≠ -1 := hfirst
    have hrewrite' : s.silent.rewriteTimestamps = true := hrewrite
    simp only [step, onMetaData]
    rcases Classical.em (message.name = RTMPMetaData.setDataFrame) with hname | hname
    · have hdata : dataFrame message = some message.params.tail := if_pos hname
      simp only [if_pos hname, if_pos hfirst', if_pos hrewrite', Input.relative, hdata, hnumber]
      exact ⟨rfl, ⟨rfl, rfl, rfl⟩, rfl⟩
    · have hdata : dataFrame message = none := if_neg hname
      simp only [if_neg hname, if_pos hfirst', if_pos hrewrite', Input.relative, hdata, hnumber]
      exact ⟨rfl, ⟨rfl, rfl, rfl⟩, rfl⟩
  | reset => exact ⟨rfl, ⟨rfl, rfl, rfl⟩, rfl⟩
  | addMediaListener added => exact absurd horderly.1 hfirst
  | removeMediaListener removed => exact ⟨rfl, ⟨rfl, rfl, rfl⟩, rfl⟩

/-! ## Runs -/

theorem waiting_listeners {frame : RTMPMediaFrame} {t : RTMPPipedMediaStream}
    (ht : s.waiting frame = some t) : t.listeners = s.listeners := by
  unfold waiting at ht
  split at ht
  · cases ht
  · split at ht
    · split at ht <;> cases ht <;> rfl
    · repeat' split at ht
      all_goals cases ht
      all_goals rfl

theorem onMediaFrame_listeners (frame : RTMPMediaFrame) :
    (s.onMediaFrame frame).listeners = s.listeners := by
  have hresent : (if frame.getTimestamp = -1 then s.sendMediaFrame frame else s).listeners =
      s.listeners := by
    split <;> rfl
  simp only [onMediaFrame]
  generalize (if frame.getTimestamp = -1 then s.sendMediaFrame frame else s) = t at hresent ⊢
  split
  · split
    · rename_i hwaiting
      rw [waiting_listeners hwaiting, hresent]
    · rw [relay_listeners, begin_listeners, hresent]
  · rw [relay_listeners, hresent]

theorem step_listeners (hlistens : s.listeners listener = true)
    (hremove : input ≠ .removeMediaListener listener) :
    (step s input).listeners listener = true := by
  cases input with
  | frame frame =>
    simp only [step, onMediaFrame_listeners, silent_listeners]
    exact hlistens
  | metaData message =>
    simp only [step, onMetaData]
    split
    · split <;> exact hlistens
    · exact hlistens
  | reset => exact hlistens
  | addMediaListener added =>
    simp only [step, Function.update_apply]
    split
    · rfl
    · exact hlistens
  | removeMediaListener removed =>
    have hne : listener ≠ removed := fun h => hremove (by rw [h])
    simp only [step, Function.update_apply, if_neg hne]
    exact hlistens

theorem told_eq_sent (hlistens : s.listeners listener = true)
    (hgreeting : ∀ added, input = .addMediaListener added → s.greeting = []) :
    s.told input listener = (step s input).sent := by
  cases input with
  | addMediaListener added =>
    rw [told, hgreeting added rfl]
    split <;> rfl
  | frame | metaData | reset | removeMediaListener => exact if_pos hlistens

theorem greeting_of_orderly {before : List Input} (hwaiting : Waiting before s) {added : Nat}
    (horderly : Orderly s (.addMediaListener added)) : s.greeting = [] := by
  rw [greeting, horderly.2.1, horderly.2.2, hwaiting.cached_eq]
  rfl

theorem heard_of_begun (hfirst : s.first ≠ -1) (hlistens : s.listeners listener = true)
    {inputs : List Input} (horderly : Meets step Orderly s inputs)
    (hremove : .removeMediaListener listener ∉ inputs) :
    (heard s listener inputs).filter counted = inputs.flatMap (Input.relative s.first) := by
  induction inputs generalizing s with
  | nil => rfl
  | cons input inputs ih =>
    obtain ⟨hinput, hinputs⟩ := horderly
    obtain ⟨hfirst', -, hsent⟩ := step_of_begun hfirst hinput
    have hne : input ≠ .removeMediaListener listener := fun h => hremove (h ▸ List.mem_cons_self)
    have htold : s.told input listener = (step s input).sent :=
      told_eq_sent hlistens fun added h => absurd (h ▸ hinput).1 hfirst
    rw [heard, List.filter_append, htold, hsent,
      ih (by rwa [hfirst']) (step_listeners hlistens hne) hinputs
        fun h => hremove (List.mem_cons_of_mem _ h), hfirst', List.flatMap_cons]

attribute [local simp] beginning in
theorem heard_of_waiting {before : List Input} (hwaiting : Waiting before s)
    (hlistens : s.listeners listener = true) {inputs : List Input}
    (horderly : Meets step Orderly s inputs)
    (hremove : .removeMediaListener listener ∉ inputs) :
    (heard s listener inputs).filter counted =
      fromBeginning (beginning s.waitIntra before inputs) := by
  induction inputs generalizing s before with
  | nil => rfl
  | cons input inputs ih =>
    obtain ⟨hinput, hinputs⟩ := horderly
    have hne : input ≠ .removeMediaListener listener := fun h => hremove (h ▸ List.mem_cons_self)
    have hremove' : .removeMediaListener listener ∉ inputs :=
      fun h => hremove (List.mem_cons_of_mem _ h)
    have hlistens' := step_listeners hlistens hne
    have htold : s.told input listener = (step s input).sent :=
      told_eq_sent hlistens fun added h => greeting_of_orderly hwaiting (h ▸ hinput)
    -- an input that does not begin the stream
    have hwait (hbegin : ∀ frame, input = .frame frame →
        mayBegin s.waitIntra before frame = false) :
        (heard s listener (input :: inputs)).filter counted =
          fromBeginning (beginning s.waitIntra (before ++ [input]) inputs) := by
      obtain ⟨hwaiting', hsame, hsent⟩ := step_of_waiting hwaiting hbegin hinput
      rw [heard, List.filter_append, htold, hsent ⟨listener, hlistens⟩, List.nil_append,
        ih hwaiting' hlistens' hinputs hremove', hsame.waitIntra_eq]
    cases input with
    | frame frame =>
      rcases Bool.eq_false_or_eq_true (mayBegin s.waitIntra before frame) with hbegin | hbegin
      · obtain ⟨hfirst, hsent, -, -⟩ := step_of_mayBegin hwaiting hbegin hinput
        have hset : (step s (.frame frame)).first ≠ -1 := hfirst ▸ hinput.2.1
        rw [beginning, if_pos hbegin, heard, List.filter_append, htold, hsent,
          heard_of_begun hset hlistens' hinputs hremove', hfirst, List.filter_eq_self.2 ?_]
        · rw [fromBeginning, List.cons_append, List.append_assoc, List.flatMap_cons]
        · intro event hevent
          simp only [stored, Input.relative, List.mem_cons, List.mem_append, List.mem_map,
            List.not_mem_nil, or_false] at hevent
          rcases hevent with rfl | ((⟨_, _, rfl⟩ | ⟨_, _, rfl⟩) | ⟨_, _, rfl⟩) | rfl <;> rfl
      · rw [beginning, if_neg (by simp [hbegin])]
        exact hwait fun f h => by cases h; exact hbegin
    | metaData message => exact hwait fun f h => nomatch h
    | reset => exact hwait fun f h => nomatch h
    | addMediaListener added => exact hwait fun f h => nomatch h
    | removeMediaListener removed => exact hwait fun f h => nomatch h

variable {waitIntra : Bool}

theorem beginning_cons {before : List Input} (hnone : input.frame? = none) (inputs : List Input) :
    beginning waitIntra before (input :: inputs) =
      beginning waitIntra (before ++ [input]) inputs := by
  cases input with
  | frame frame => cases hnone
  | metaData | reset | addMediaListener | removeMediaListener => rfl

theorem beginning_append {before inputs : List Input} (more : List Input)
    (hnone : beginning waitIntra before inputs = none) :
    beginning waitIntra before (inputs ++ more) = beginning waitIntra (before ++ inputs) more := by
  induction inputs generalizing before with
  | nil => rw [List.nil_append, List.append_nil]
  | cons input inputs ih =>
    cases input with
    | frame frame =>
      rw [List.cons_append, beginning]
      rw [beginning] at hnone
      split at hnone
      · cases hnone
      · rename_i hbegin
        rw [if_neg hbegin, ih hnone, List.append_assoc]
        rfl
    | metaData | reset | addMediaListener | removeMediaListener =>
      rw [beginning_cons rfl] at hnone
      rw [List.cons_append, beginning_cons rfl, ih hnone, List.append_assoc]
      rfl

theorem beginning_singleton {before : List Input}
    (hbegin : ∀ frame, input = .frame frame → mayBegin waitIntra before frame = false) :
    beginning waitIntra before [input] = none := by
  cases input with
  | frame frame => rw [beginning, if_neg (by simp [hbegin frame rfl]), beginning]
  | metaData | reset | addMediaListener | removeMediaListener => rfl

/-- A new stream, of either class. Reference: `rtmpstream.cpp:148`. -/
def new (isCached waitIntra rewriteTimestamps : Bool) : RTMPPipedMediaStream :=
  { waitIntra, rewriteTimestamps, cached := if isCached then some [] else none }

theorem waiting_run (isCached waitIntra rewriteTimestamps : Bool) (inputs : List Input)
    (horderly : Meets step Orderly (new isCached waitIntra rewriteTimestamps) inputs) :
    SameStream (new isCached waitIntra rewriteTimestamps)
        (run step (new isCached waitIntra rewriteTimestamps) inputs) ∧
      ((run step (new isCached waitIntra rewriteTimestamps) inputs).first = -1 →
        Waiting inputs (run step (new isCached waitIntra rewriteTimestamps) inputs) ∧
          beginning waitIntra [] inputs = none) := by
  refine invariant_of_meets (I := fun inputs t =>
    SameStream (new isCached waitIntra rewriteTimestamps) t ∧
      (t.first = -1 → Waiting inputs t ∧ beginning waitIntra [] inputs = none)) ?_ ?_ inputs
    horderly
  · refine ⟨.refl _, fun _ => ⟨⟨rfl, rfl, rfl, rfl, ?_⟩, rfl⟩⟩
    unfold new
    cases isCached <;> rfl
  · intro inputs input hinv hinput
    obtain ⟨hsame, hwaits⟩ := hinv
    generalize run step (new isCached waitIntra rewriteTimestamps) inputs = s at *
    rcases Classical.em (s.first = -1) with hfirst | hfirst
    · obtain ⟨hwaiting, hnone⟩ := hwaits hfirst
      have hwait : s.waitIntra = waitIntra := hsame.waitIntra_eq
      rcases Classical.em (∀ frame, input = .frame frame →
        mayBegin s.waitIntra inputs frame = false) with hbegin | hbegin
      · obtain ⟨hwaiting', hsame', -⟩ := step_of_waiting hwaiting hbegin hinput
        refine ⟨hsame.trans hsame', fun _ => ⟨hwaiting', ?_⟩⟩
        rw [beginning_append _ hnone, List.nil_append, beginning_singleton (hwait ▸ hbegin)]
      · push Not at hbegin
        obtain ⟨frame, rfl, hbegin⟩ := hbegin
        obtain ⟨hfirst', -, hsame', -⟩ :=
          step_of_mayBegin hwaiting (Bool.eq_true_of_not_eq_false hbegin) hinput
        exact ⟨hsame.trans hsame', fun h => absurd (hfirst'.symm.trans h) hinput.2.1⟩
    · obtain ⟨hfirst', hsame', -⟩ := step_of_begun hfirst hinput
      exact ⟨hsame.trans hsame', fun h => absurd (hfirst'.symm.trans h) hfirst⟩

/-- A frame of coded audio. -/
def audioAt (timestamp : QWORD) : RTMPMediaFrame :=
  .audio { timestamp, bufferSize := 1, codec := 11, media := [7] }

/-- A frame of coded video. -/
def videoAt (timestamp : QWORD) (frameType avcType : UInt8) : RTMPMediaFrame :=
  .video { timestamp, bufferSize := 1, codec := RTMPVideoFrame.AVC, frameType := frameType,
           extraData := fun _ => avcType, media := [7] }

end RTMPPipedMediaStream

end McuMediaServer
