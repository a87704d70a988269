import McuMediaServer.WebSocket.Receive
import McuMediaServer.Amf.Utf8Cuts

/-!
# The texts of BFCP messages

`BFCP` listens to the connections of its users. The start of a message sets the size of its text to
the length in the header of the first frame, the data of all its frames goes to the decoder, and the
end of the message hands the text to `BFCPMessage::Parse`. `handed_iff` says when the texts that
have been handed over are those of the messages that have been received.
-/

namespace McuMediaServer

namespace Bfcp

open Amf WebSocket

/-- What is kept of a message for a connection, and the texts that have been handed to
`BFCPMessage::Parse`. Reference: `bfcp.h:28`. -/
structure TextListener where
  utf8 : UTF8Parser := {}
  handed : List WString := []
  deriving DecidableEq

namespace TextListener

/-- Reference: `bfcp.cpp:216`. -/
def onMessageStart (l : TextListener) (length : Nat) : TextListener :=
  { l with utf8 := UTF8Parser.setSize {} length }

/-- Reference: `bfcp.cpp:225`. -/
def onMessageData (l : TextListener) (data : List UInt8) : TextListener :=
  { l with utf8 := (l.utf8.parse data).1 }

/-- A text that has not been parsed is not handed over. Reference: `bfcp.cpp:233`. -/
def onMessageEnd (l : TextListener) : TextListener :=
  if l.utf8.isParsed then { l with handed := l.handed ++ [l.utf8.value] } else l

/-- What a connection tells. -/
def onEvent (l : TextListener) : Event → TextListener
  | .messageStart _ length => l.onMessageStart length
  | .messageData data => l.onMessageData data
  | .messageEnd => l.onMessageEnd

/-- The listener of a connection. -/
def ofConnection (c : Connection) : TextListener :=
  c.events.foldl onEvent {}

end TextListener

/-- Data comes from one of the connections, which are told apart by numbers. -/
def receiveFrom (connections : Nat → Option Connection) (arrival : Nat × List UInt8) :
    Nat → Option Connection :=
  Function.update connections arrival.1
    ((connections arrival.1).bind fun c => c.processData arrival.2)

/-- The connections after some arrivals. -/
def connectionsAfter (arrivals : List (Nat × List UInt8)) : Nat → Option Connection :=
  arrivals.foldl receiveFrom fun _ => some {}

/-- The bytes that have come from a connection. -/
def streamOf (arrivals : List (Nat × List UInt8)) (id : Nat) : List UInt8 :=
  ((arrivals.filter fun a => a.1 = id).map Prod.snd).flatten

/-! ## The messages of a stream -/

/-- The complete messages in some frames, each as its frames; control frames belong to none. `parts`
are the frames of the message that is not complete. -/
def messagesFrom : List ReceivedFrame → List ReceivedFrame → List (List ReceivedFrame)
  | _, [] => []
  | parts, f :: fs =>
    if f.header.IsMessage then
      let parts := if f.header.getOpCode = .continuationFrame then parts ++ [f] else [f]
      if f.header.isFin then
        (if f.IsComplete then [parts] else []) ++ messagesFrom [] fs
      else
        messagesFrom parts fs
    else
      messagesFrom parts fs

/-- Continuation frames continue a message, and only they do. -/
def WellFramed : Bool → List ReceivedFrame → Prop
  | _, [] => True
  | isOpen, f :: fs =>
    if f.header.IsMessage then
      (f.header.getOpCode = .continuationFrame ↔ isOpen = true) ∧ WellFramed (!f.header.isFin) fs
    else
      WellFramed isOpen fs

/-- The bytes of a message. -/
def payloadOf (parts : List ReceivedFrame) : List UInt8 :=
  parts.flatMap ReceivedFrame.unmasked

/-- The length in the header of the first frame, as a `DWORD`, is the one of the message. -/
def AnnouncedAtOnce (parts : List ReceivedFrame) : Prop :=
  ∃ first ∈ parts.head?, first.header.getPayloadLength % 2 ^ 32 = (payloadOf parts).length

/-- The end of an empty last frame of a message is noticed with the first byte behind it. -/
def EndsAtEmptyMessage (stream : List UInt8) : Prop :=
  (receivedFrames stream).flatMap ReceivedFrame.bytes = stream ∧
    ∃ f, (receivedFrames stream).getLast? = some f ∧ f.header.getPayloadLength = 0 ∧
      f.header.IsMessage ∧ f.header.isFin

/-- The texts are those of the complete messages of a stream of frames in order. -/
structure Holds (stream : List UInt8) (texts : List WString) : Prop where
  framed : WellFramed false (receivedFrames stream)
  codePoints : ∀ s ∈ texts, ∀ w ∈ s, w ≤ lastCodePoint
  messages : (messagesFrom [] (receivedFrames stream)).map payloadOf = texts.map encode

/-! ## What is handed over -/

/-- The decoder behind the frames of a message. -/
def decoderOf (parts : List ReceivedFrame) : UTF8Parser :=
  match parts with
  | [] => {}
  | first :: _ =>
    ((UTF8Parser.setSize {} (first.header.getPayloadLength % 2 ^ 32)).parse (payloadOf parts)).1

/-- The text that is handed over for a message. -/
def textOf (parts : List ReceivedFrame) : Option WString :=
  if (decoderOf parts).isParsed then some (decoderOf parts).value else none

namespace TextListener

/-- What the listener makes of what it hears, byte by byte. -/
def hear (l : TextListener) : Signal → TextListener
  | .start _ length => l.onMessageStart length
  | .byte value => l.onMessageData [value]
  | .stop => l.onMessageEnd

theorem parse_nil (p : UTF8Parser) : p.parse [] = (p, 0) := by
  rw [UTF8Parser.parse_eq p [] rfl]
  simp

theorem foldl_hear_bytes (l : TextListener) (data : List UInt8) :
    (data.map Signal.byte).foldl hear l = l.onMessageData data := by
  induction data generalizing l with
  | nil =>
    rw [onMessageData, parse_nil]
    rfl
  | cons b data ih =>
    rw [List.map_cons, List.foldl_cons, ih, hear]
    have h := UTF8Parser.parse_append l.utf8 [b] data
    rw [List.singleton_append] at h
    rw [onMessageData, onMessageData, onMessageData, h]

theorem onEvent_eq (l : TextListener) (event : Event) :
    l.onEvent event = event.signals.foldl hear l := by
  cases event with
  | messageStart type length => rfl
  | messageData data => exact (foldl_hear_bytes l data).symm
  | messageEnd => rfl

theorem foldl_onEvent (l : TextListener) (events : List Event) :
    events.foldl onEvent l = (events.flatMap Event.signals).foldl hear l := by
  induction events generalizing l with
  | nil => rfl
  | cons event events ih =>
    rw [List.foldl_cons, ih, List.flatMap_cons, List.foldl_append, onEvent_eq]

/-- The frames of the message that a frame belongs to, up to it. -/
def partsWith (parts : List ReceivedFrame) (f : ReceivedFrame) : List ReceivedFrame :=
  if f.header.getOpCode = .continuationFrame then parts ++ [f] else [f]

section Frames

variable {l : TextListener} {parts : List ReceivedFrame} {f : ReceivedFrame}

theorem hear_payload (hm : f.header.IsMessage)
    (hopen : f.header.getOpCode = .continuationFrame → parts ≠ [] ∧ l.utf8 = decoderOf parts) :
    (f.started ++ f.heard).foldl hear l = { l with utf8 := decoderOf (partsWith parts f) } := by
  have hheard : f.heard = f.unmasked.map .byte := if_pos hm
  have hstart (type : MessageType) (hcode : f.header.getOpCode ≠ .continuationFrame) :
      (l.onMessageStart (f.header.getPayloadLength % 2 ^ 32)).onMessageData f.unmasked =
        { l with utf8 := decoderOf (partsWith parts f) } := by
    rw [partsWith, if_neg hcode, decoderOf, payloadOf, List.flatMap_singleton]
    rfl
  rw [hheard, List.foldl_append, foldl_hear_bytes, ReceivedFrame.started]
  rcases hm with hcode | hcode | hcode
  · obtain ⟨hne, hutf8⟩ := hopen hcode
    obtain ⟨first, rest, rfl⟩ := List.exists_cons_of_ne_nil hne
    rw [hcode, List.foldl_nil, onMessageData, hutf8, partsWith, if_pos hcode, List.cons_append,
      decoderOf, decoderOf, payloadOf, payloadOf, ← List.cons_append, List.flatMap_append,
      List.flatMap_singleton, UTF8Parser.parse_append]
  · rw [hcode]
    exact hstart .text (by simp [hcode])
  · rw [hcode]
    exact hstart .binary (by simp [hcode])

theorem hear_frame (hm : f.header.IsMessage)
    (hopen : f.header.getOpCode = .continuationFrame → parts ≠ [] ∧ l.utf8 = decoderOf parts) :
    f.signals.foldl hear l =
      { utf8 := decoderOf (partsWith parts f)
        handed := l.handed ++
          if f.header.isFin ∧ f.IsComplete then (textOf (partsWith parts f)).toList else [] } := by
  rw [ReceivedFrame.signals, List.foldl_append, hear_payload hm hopen, ReceivedFrame.stopped]
  by_cases hfin : f.header.isFin
  · by_cases hcomplete : f.IsComplete
    · rw [if_pos hcomplete, if_pos ⟨hm, hfin⟩, if_pos ⟨hfin, hcomplete⟩, textOf]
      change onMessageEnd _ = _
      rw [onMessageEnd]
      split
      · rfl
      · rw [Option.toList_none, List.append_nil]
    · have hnot : ¬(f.header.isFin = true ∧ f.IsComplete) := fun h => hcomplete h.2
      rw [if_neg hcomplete, if_neg hnot, List.append_nil]
      rfl
  · have hnot : ¬(f.header.isFin = true ∧ f.IsComplete) := fun h => hfin h.1
    have hnot' : ¬(f.header.IsMessage ∧ f.header.isFin = true) := fun h => hfin h.2
    rw [if_neg hnot, if_neg hnot', ite_self, List.append_nil]
    rfl

theorem signals_of_not_isMessage (hm : ¬f.header.IsMessage) : f.signals = [] := by
  have hstarted : f.started = [] := by
    unfold ReceivedFrame.started
    split
    case h_1 hcode => exact absurd (.inr (.inl hcode)) hm
    case h_2 hcode => exact absurd (.inr (.inr hcode)) hm
    case h_3 => rfl
  have hstopped : f.stopped = [] := if_neg fun h => hm h.1
  rw [ReceivedFrame.signals, hstarted, hstopped, ReceivedFrame.heard, if_neg hm, ite_self]
  rfl

end Frames

/-- **Run lemma.** What is handed over for frames that follow each other as they should are the
texts of the messages that they complete. -/
theorem handed_foldl_signals {fs parts : List ReceivedFrame} {isOpen : Bool} {l : TextListener}
    (hframed : WellFramed isOpen fs)
    (hopen : isOpen = true → parts ≠ [] ∧ l.utf8 = decoderOf parts) :
    ((fs.flatMap ReceivedFrame.signals).foldl hear l).handed =
      l.handed ++ (messagesFrom parts fs).filterMap textOf := by
  induction fs generalizing parts isOpen l with
  | nil => exact (List.append_nil _).symm
  | cons f fs ih =>
    rw [WellFramed] at hframed
    rw [List.flatMap_cons, List.foldl_append, messagesFrom]
    by_cases hm : f.header.IsMessage
    · rw [if_pos hm] at hframed ⊢
      rw [hear_frame hm fun hcode => hopen (hframed.1.1 hcode)]
      change _ = _ ++ List.filterMap _ (if _ then _ ++ _ else messagesFrom (partsWith parts f) fs)
      by_cases hfin : f.header.isFin
      · have hclosed : WellFramed false fs := by
          have h := hframed.2
          rwa [hfin] at h
        rw [if_pos hfin, ih hclosed (fun h => by cases h), List.filterMap_append,
          ← List.append_assoc]
        refine congrArg (_ ++ · ++ _) ?_
        by_cases hcomplete : f.IsComplete
        · rw [if_pos hcomplete, if_pos ⟨hfin, hcomplete⟩]
          change _ = List.filterMap textOf [partsWith parts f]
          rw [List.filterMap_cons]
          cases textOf (partsWith parts f) <;> rfl
        · rw [if_neg hcomplete, if_neg fun h => hcomplete h.2]
          rfl
      · have hnext : WellFramed true fs := by
          have h := hframed.2
          rwa [Bool.eq_false_of_not_eq_true hfin] at h
        rw [if_neg hfin, if_neg fun h => hfin h.1, List.append_nil]
        refine ih hnext fun _ => ⟨?_, rfl⟩
        rw [partsWith]
        split
        · exact List.append_ne_nil_of_right_ne_nil _ (List.cons_ne_nil f [])
        · exact List.cons_ne_nil f []
    · rw [if_neg hm] at hframed ⊢
      rw [signals_of_not_isMessage hm]
      exact ih hframed hopen

theorem handed_foldl_of_not_stop {signals : List Signal} (h : Signal.stop ∉ signals)
    (l : TextListener) : (signals.foldl hear l).handed = l.handed := by
  induction signals generalizing l with
  | nil => rfl
  | cons signal signals ih =>
    rw [List.mem_cons, not_or] at h
    rw [List.foldl_cons, ih h.2]
    cases signal with
    | start type length => rfl
    | byte value => rfl
    | stop => exact absurd rfl h.1

theorem stop_not_mem (f : ReceivedFrame) : Signal.stop ∉ f.started ++ f.heard := by
  rw [List.mem_append, not_or]
  constructor
  · unfold ReceivedFrame.started
    split <;> simp
  · unfold ReceivedFrame.heard
    split <;> simp

end TextListener

/-! ## Which messages are handed over as they are -/

section Messages

variable {parts : List ReceivedFrame} {s : WString}

theorem textOf_eq_some_iff (hs : ∀ w ∈ s, w ≤ lastCodePoint) (h : payloadOf parts = encode s) :
    textOf parts = some s ↔ AnnouncedAtOnce parts := by
  have hlength := length_encode hs
  cases parts with
  | nil =>
    refine iff_of_false (fun heq => ?_) fun ⟨_, hfirst, _⟩ => by cases hfirst
    have hnone : textOf [] = none := by
      rw [textOf, if_neg (by decide)]
    rw [hnone] at heq
    cases heq
  | cons first rest =>
    have hannounced : AnnouncedAtOnce (first :: rest) ↔
        first.header.getPayloadLength % 2 ^ 32 = utf8Size s := by
      rw [AnnouncedAtOnce, h, hlength]
      simp
    rw [hannounced, textOf, decoderOf, h]
    generalize first.header.getPayloadLength % 2 ^ 32 = size
    rcases Nat.lt_trichotomy size (utf8Size s) with hlt | rfl | hgt
    · -- fewer bytes are taken than the characters of the text are counted with
      refine iff_of_false (fun heq => ?_) (Nat.ne_of_lt hlt)
      have hcopy : min ((UTF8Parser.setSize {} size).utf8size -
          (UTF8Parser.setSize {} size).len) (encode s).length = size := by
        change min (size - 0) _ = _
        omega
      rw [UTF8Parser.parse_eq _ _ hcopy] at heq
      split at heq
      case isFalse => cases heq
      case isTrue =>
        have hwithin : (UTF8Parser.setSize {} size).Within 0 := .inl ⟨rfl, le_rfl⟩
        have hle := (hwithin.foldl ((encode s).take size)).utf8Size_le
        have hvalue := Option.some.inj heq
        dsimp only at hvalue
        rw [hvalue, List.length_take] at hle
        omega
    · obtain ⟨p, hp, hparsed, hvalue⟩ := UTF8Parser.parse_encode hs []
      rw [List.append_nil] at hp
      rw [hp, if_pos hparsed, hvalue]
      exact iff_of_true rfl rfl
    · refine iff_of_false (fun heq => ?_) (Nat.ne_of_gt hgt)
      have hcopy : min ((UTF8Parser.setSize {} size).utf8size -
          (UTF8Parser.setSize {} size).len) (encode s).length = utf8Size s := by
        change min (size - 0) _ = _
        omega
      have hnot : ¬((UTF8Parser.setSize {} size).parse (encode s)).1.isParsed := by
        rw [UTF8Parser.parse_eq _ _ hcopy, UTF8Parser.isParsed, decide_eq_true_iff]
        dsimp only
        rw [(UTF8Parser.utf8size_foldl _ _).1]
        change ¬0 + utf8Size s = size
        omega
      rw [if_neg hnot] at heq
      cases heq

theorem filterMap_textOf_iff {messages : List (List ReceivedFrame)} {texts : List WString}
    (htexts : ∀ s ∈ texts, ∀ w ∈ s, w ≤ lastCodePoint)
    (h : messages.map payloadOf = texts.map encode) :
    messages.filterMap textOf = texts ↔ ∀ parts ∈ messages, AnnouncedAtOnce parts := by
  induction messages generalizing texts with
  | nil =>
    obtain rfl := List.map_eq_nil_iff.1 h.symm
    simp
  | cons parts messages ih =>
    cases texts with
    | nil => cases h
    | cons s texts =>
      rw [List.map_cons, List.map_cons, List.cons.injEq] at h
      have hrest := ih (fun t ht => htexts t (List.mem_cons_of_mem s ht)) h.2
      have hone := textOf_eq_some_iff (htexts s List.mem_cons_self) h.1
      rw [List.forall_mem_cons, ← hone, ← hrest, List.filterMap_cons]
      cases htext : textOf parts with
      | none =>
        refine iff_of_false (fun heq => ?_) fun ⟨h, _⟩ => by cases h
        have hle := List.length_filterMap_le textOf messages
        have hlength := congrArg List.length h.2
        rw [List.length_map, List.length_map] at hlength
        have heq' : messages.filterMap textOf = s :: texts := heq
        rw [heq', List.length_cons] at hle
        omega
      | some t =>
        rw [Option.some.injEq]
        exact List.cons.injEq ..  ▸ Iff.rfl

theorem length_messagesFrom_append {fs : List ReceivedFrame} {f : ReceivedFrame}
    (hm : f.header.IsMessage) (hfin : f.header.isFin) (hcomplete : f.IsComplete)
    (parts : List ReceivedFrame) :
    (messagesFrom parts (fs ++ [f])).length = (messagesFrom parts fs).length + 1 := by
  induction fs generalizing parts with
  | nil =>
    have hnil : messagesFrom parts [] = [] := rfl
    rw [List.nil_append, hnil, messagesFrom]
    dsimp only
    rw [if_pos hm, if_pos hfin, if_pos hcomplete]
    rfl
  | cons g fs ih =>
    rw [List.cons_append, messagesFrom, messagesFrom]
    dsimp only
    split
    · split
      · rw [List.length_append, List.length_append, ih, Nat.add_assoc]
      · exact ih _
    · exact ih _

theorem WellFramed.left {fs gs : List ReceivedFrame} {isOpen : Bool}
    (h : WellFramed isOpen (fs ++ gs)) : WellFramed isOpen fs := by
  induction fs generalizing isOpen with
  | nil => trivial
  | cons f fs ih =>
    rw [List.cons_append, WellFramed] at h
    rw [WellFramed]
    by_cases hm : f.header.IsMessage
    · rw [if_pos hm] at h ⊢
      exact ⟨h.1, ih h.2⟩
    · rw [if_neg hm] at h ⊢
      exact ih h

end Messages

/-! ## Whole connections -/

section Connections

variable {c : Connection} {stream : List UInt8}

theorem heard_of_reads (hr : WebSocket.Reads c stream) (hs : Settled c stream)
    (hnot : ¬EndsAtEmptyMessage stream) :
    c.heard = (receivedFrames stream).flatMap ReceivedFrame.signals := by
  cases hr with
  | @header done part hheader _ _ hlt htold =>
    rw [receivedFrames_header htold.complete hlt, Connection.heard, htold.events, List.append_nil]
  | @payload done f _ _ hcomplete _ hle hempty _ htold =>
    have hframes := receivedFrames_payload htold.complete hcomplete hle
    have hstopped : (if f.IsComplete then f.stopped else []) = [] := by
      by_cases hf : f.IsComplete
      · rw [if_pos hf]
        refine if_neg fun hend => hnot ⟨?_, f, ?_, hempty hf, hend⟩
        · rw [hframes, List.flatMap_append, List.flatMap_singleton]
        · rw [hframes, List.getLast?_concat]
      · exact if_neg hf
    rw [hframes, Connection.heard, htold.events, List.flatMap_append, List.flatMap_singleton,
      ReceivedFrame.signals, hstopped, List.append_nil]

theorem heard_of_endsAtEmptyMessage (hr : WebSocket.Reads c stream) (hs : Settled c stream)
    (hend : EndsAtEmptyMessage stream) :
    ∃ done f, receivedFrames stream = done ++ [f] ∧ f.IsComplete ∧ f.header.IsMessage ∧
      f.header.isFin ∧ c.heard = done.flatMap ReceivedFrame.signals ++ (f.started ++ f.heard) := by
  obtain ⟨hall, f, hlast, hzero, hm, hfin⟩ := hend
  cases hr with
  | header hheader =>
    exact absurd ⟨hall, f, hlast, hzero, .inl ⟨hm, hfin⟩⟩ (hs hheader)
  | @payload done g _ _ hcomplete _ hle hempty _ htold =>
    have hframes := receivedFrames_payload htold.complete hcomplete hle
    rw [hframes, List.getLast?_concat] at hlast
    obtain rfl := Option.some.inj hlast
    refine ⟨done, g, hframes, ?_, hm, hfin, htold.events⟩
    rw [ReceivedFrame.IsComplete]
    omega

theorem handed_ofConnection_iff {texts : List WString} (hr : WebSocket.Reads c stream) (hs : Settled c stream)
    (h : Holds stream texts) : (TextListener.ofConnection c).handed = texts ↔
      (∀ parts ∈ messagesFrom [] (receivedFrames stream), AnnouncedAtOnce parts) ∧
        ¬EndsAtEmptyMessage stream := by
  rw [TextListener.ofConnection, TextListener.foldl_onEvent]
  change (List.foldl TextListener.hear {} c.heard).handed = _ ↔ _
  by_cases hend : EndsAtEmptyMessage stream
  · obtain ⟨done, f, hframes, hcomplete, hm, hfin, hheard⟩ := heard_of_endsAtEmptyMessage hr hs hend
    refine iff_of_false (fun heq => ?_) fun hcond => hcond.2 hend
    have hframed := h.framed
    rw [hframes] at hframed
    rw [hheard, List.foldl_append,
      TextListener.handed_foldl_of_not_stop (TextListener.stop_not_mem f),
      @TextListener.handed_foldl_signals done [] false {} hframed.left (fun h => by cases h)] at heq
    have hlength := congrArg List.length h.messages
    have hle := List.length_filterMap_le textOf (messagesFrom [] done)
    rw [List.length_map, List.length_map, hframes,
      length_messagesFrom_append hm hfin hcomplete] at hlength
    have heq' : (messagesFrom [] done).filterMap textOf = texts := heq
    rw [heq'] at hle
    omega
  · rw [heard_of_reads hr hs hend,
      @TextListener.handed_foldl_signals _ [] false {} h.framed (fun h => by cases h)]
    rw [and_iff_left hend, ← filterMap_textOf_iff h.codePoints h.messages]
    rfl

theorem foldl_receiveFrom (arrivals : List (Nat × List UInt8)) (s : Nat → Option Connection)
    (id : Nat) : arrivals.foldl receiveFrom s id =
      (s id).bind fun c =>
        c.processChunks ((arrivals.filter fun a => a.1 = id).map Prod.snd) := by
  induction arrivals generalizing s with
  | nil => exact (Option.bind_fun_some (s id)).symm
  | cons a arrivals ih =>
    rw [List.foldl_cons, ih, receiveFrom]
    by_cases hid : a.1 = id
    · subst hid
      rw [Function.update_self, List.filter_cons_of_pos (by simp), List.map_cons]
      cases s a.1 with
      | none => rfl
      | some c => rfl
    · rw [Function.update_of_ne (Ne.symm hid), List.filter_cons_of_neg (by simpa using hid)]

end Connections

/-- **Texts.** At every moment the texts that have been handed to the parser, for each connection,
are those of the messages that have come from it, each once and in order, exactly if the first frame
of every message announces all of it and no stream ends behind the header of an empty last frame.
Reference: `bfcp.cpp:216` and `websocketconnection.cpp:509`. -/
theorem handed_iff (arrivals : List (Nat × List UInt8)) (texts : Nat → List WString)
    (h : ∀ id, Holds (streamOf arrivals id) (texts id)) :
    (∀ id, ∃ c, connectionsAfter arrivals id = some c ∧
        (TextListener.ofConnection c).handed = texts id) ↔
      ∀ id, (∀ parts ∈ messagesFrom [] (receivedFrames (streamOf arrivals id)),
          AnnouncedAtOnce parts) ∧ ¬EndsAtEmptyMessage (streamOf arrivals id) := by
  refine forall_congr' fun id => ?_
  obtain ⟨c, hrun, hr, hs⟩ :=
    processChunks_reads ((arrivals.filter fun a => a.1 = id).map Prod.snd)
  have hafter : connectionsAfter arrivals id = some c := by
    rw [connectionsAfter, foldl_receiveFrom]
    exact hrun
  have hiff := handed_ofConnection_iff hr hs (h id)
  rw [hafter]
  exact ⟨fun ⟨d, hd, hhanded⟩ => hiff.1 (Option.some.inj hd ▸ hhanded),
    fun hcond => ⟨c, rfl, hiff.2 hcond⟩⟩

/-- One text of two characters, in two frames of one connection. -/
def twoFrames : List (Nat × List UInt8) := [(0, [0x01, 0x01, 0x61, 0x80, 0x01, 0x62])]

/-- The text that they hold. -/
def twoFramesTexts (id : Nat) : List WString := if id = 0 then [[0x61, 0x62]] else []

theorem holds_twoFrames (id : Nat) : Holds (streamOf twoFrames id) (twoFramesTexts id) := by
  rcases Nat.eq_zero_or_pos id with rfl | hpos
  · refine ⟨?_, by decide, by decide⟩
    have hframes : receivedFrames (streamOf twoFrames 0) =
        [⟨⟨[0x01, 0x01]⟩, [0x61]⟩, ⟨⟨[0x80, 0x01]⟩, [0x62]⟩] := by decide
    rw [hframes]
    simp only [WellFramed]
    decide
  · have hstream : streamOf twoFrames id = [] := by
      simp [streamOf, twoFrames, Nat.ne_of_lt hpos]
    rw [hstream, twoFramesTexts, if_neg (Nat.ne_of_gt hpos)]
    exact ⟨trivial, fun s hs => absurd hs List.not_mem_nil, rfl⟩

theorem handed_twoFrames :
    (∀ id, ∃ c, connectionsAfter twoFrames id = some c ∧
        (TextListener.ofConnection c).handed = twoFramesTexts id) ↔
      ∀ id, (∀ parts ∈ messagesFrom [] (receivedFrames (streamOf twoFrames id)),
          AnnouncedAtOnce parts) ∧ ¬EndsAtEmptyMessage (streamOf twoFrames id) :=
  handed_iff twoFrames twoFramesTexts holds_twoFrames

/-- Of a text in two frames the first one is handed over. -/
theorem not_handed_twoFrames :
    ¬∀ id, ∃ c, connectionsAfter twoFrames id = some c ∧
      (TextListener.ofConnection c).handed = twoFramesTexts id := by
  intro h
  obtain ⟨c, hc, hhanded⟩ := h 0
  have hfirst : (connectionsAfter twoFrames 0).map
      (fun c => (TextListener.ofConnection c).handed) = some [[0x61]] := by
    rw [connectionsAfter, foldl_receiveFrom]
    decide
  rw [hc, Option.map_some, hhanded] at hfirst
  exact absurd (Option.some.inj hfirst) (by decide)

end Bfcp

end McuMediaServer
