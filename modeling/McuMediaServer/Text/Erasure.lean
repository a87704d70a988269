import McuMediaServer.Text.Writers

/-!
# Who may erase what

A reader shows what is written to him as a line: a character that is printed goes to its end, and a
backspace takes the last one away. In his turn a writer may take away as many characters as
`displayed` counts, and these should be his own.

The counter bounds what is his own as long as the characters he sends are printed, as long as no
name has a backspace, and as long as the turn does not pass to another writer without a separator
and a label. It does when the text is flushed while the current writer has none left.
-/

namespace McuMediaServer.TextMixerWorker

open Amf (WString)
open StepRun

variable {τ : Type*} (prints : Nat → Bool)

/-! ## The line of a reader -/

/-- What a character does to a line, whose last character comes first. -/
def display (line : List (Sent τ)) (sent : Sent τ) : List (Sent τ) :=
  if sent.char = backspace then line.tail else if prints sent.char then sent :: line else line

/-- What is erased belongs to the one who erases it, who is not the mixer. -/
def ErasesOwn (line : List (Sent τ)) (sent : Sent τ) : Prop :=
  sent.char = backspace → ∀ last ∈ line.head?, sent.owner.isSome ∧ last.owner = sent.owner

instance decidableErasesOwn [DecidableEq τ] (line : List (Sent τ)) (sent : Sent τ) :
    Decidable (ErasesOwn line sent) :=
  inferInstanceAs (Decidable (_ → ∀ _ ∈ line.head?, _))

/-- Nobody erases what is not his own. -/
def Isolated (stream : List (Sent τ)) : Prop :=
  Meets (display prints) ErasesOwn [] stream

instance decidableIsolated [DecidableEq τ] (stream : List (Sent τ)) :
    Decidable (Isolated prints stream) :=
  inferInstanceAs (Decidable (Meets ..))

/-- The line that is shown in the end. -/
def lineOf (stream : List (Sent τ)) : List (Sent τ) :=
  run (display prints) [] stream

/-- All that has been written to a reader. -/
def TextReader.stream (reader : TextReader τ) : List (Sent τ) :=
  reader.input.flatten

/-- The last so many characters of a line belong to a writer. -/
def OwnLast (owner : τ) (n : Nat) (line : List (Sent τ)) : Prop :=
  ∀ sent ∈ line.take n, sent.owner = some owner

/-- Characters that are counted only if they are shown. -/
def Counted (c : Nat) : Prop :=
  c = backspace ∨ c = bel ∨ c = bom ∨ prints c

instance decidableCounted (c : Nat) : Decidable (Counted prints c) :=
  inferInstanceAs (Decidable (_ ∨ _))

variable {prints} {owner : τ} {line : List (Sent τ)} {n : Nat}

theorem ownLast_zero : OwnLast owner 0 line := by
  intro sent hsent
  rw [List.take_zero] at hsent
  exact absurd hsent List.not_mem_nil

theorem OwnLast.mono {m : Nat} (h : OwnLast owner n line) (hle : m ≤ n) : OwnLast owner m line :=
  fun sent hsent => h sent ((List.take_sublist_take_left hle).subset hsent)

theorem OwnLast.cons (h : OwnLast owner n line) (c : Nat) :
    OwnLast owner (n + 1) (⟨c, owner⟩ :: line) := by
  intro sent hsent
  rw [List.take_succ_cons] at hsent
  rcases List.mem_cons.1 hsent with rfl | hsent
  · rfl
  · exact h sent hsent

theorem OwnLast.tail (h : OwnLast owner (n + 1) line) : OwnLast owner n line.tail := by
  cases line with
  | nil => exact fun sent hsent => absurd hsent (by simp)
  | cons last line => exact fun sent hsent => h sent (List.mem_cons_of_mem _ hsent)

theorem OwnLast.erasesOwn (h : OwnLast owner (n + 1) line) :
    ErasesOwn line ⟨backspace, owner⟩ := by
  intro _ last hlast
  cases line with
  | nil => cases hlast
  | cons head line =>
    obtain rfl := Option.some.inj hlast
    exact ⟨rfl, h _ List.mem_cons_self⟩

theorem erasesOwn_of_ne {sent : Sent τ} (h : sent.char ≠ backspace) : ErasesOwn line sent :=
  fun hchar => absurd hchar h

theorem meets_mixerText {text : WString} (h : backspace ∉ text) (line : List (Sent τ)) :
    Meets (display prints) ErasesOwn line (mixerText text) := by
  induction text generalizing line with
  | nil => exact trivial
  | cons c text ih =>
    rw [List.mem_cons, not_or] at h
    exact ⟨erasesOwn_of_ne fun hc => h.1 hc.symm, ih h.2 _⟩

variable (prints) in
theorem OwnLast.display (h : OwnLast owner n line) {c : Nat} (hc : c ≠ backspace) :
    OwnLast owner n (display prints line ⟨c, owner⟩) := by
  rw [TextMixerWorker.display, if_neg hc]
  split
  · exact (h.cons c).mono (Nat.le_succ n)
  · exact h

theorem meets_sendChars {text : WString} (hcounted : ∀ c ∈ text, Counted prints c)
    (h : OwnLast owner n line) :
    Meets (display prints) ErasesOwn line (sendChars owner text n).1 ∧
      OwnLast owner (sendChars owner text n).2
        (run (display prints) line (sendChars owner text n).1) := by
  induction text generalizing line n with
  | nil => exact ⟨trivial, h⟩
  | cons c text ih =>
    obtain ⟨hc, hrest⟩ := List.forall_mem_cons.1 hcounted
    rw [sendChars]
    split
    case isTrue => exact ih hrest h
    case isFalse hbom =>
      split
      case isTrue =>
        split
        case isTrue hn =>
          obtain ⟨m, rfl⟩ := Nat.exists_eq_succ_of_ne_zero hn
          have htail := ih hrest h.tail
          rw [show line.tail = display prints line ⟨backspace, owner⟩ from
            (if_pos rfl).symm] at htail
          exact ⟨⟨h.erasesOwn, htail.1⟩, htail.2⟩
        case isFalse =>
          have hne : erasureRepl ≠ backspace := by decide
          have htail := ih hrest (h.display prints hne)
          exact ⟨⟨erasesOwn_of_ne hne, htail.1⟩, htail.2⟩
      case isFalse hbackspace =>
        split
        case isTrue =>
          have hne : bel ≠ backspace := by decide
          have htail := ih hrest (h.display prints hne)
          exact ⟨⟨erasesOwn_of_ne hne, htail.1⟩, htail.2⟩
        case isFalse hbel =>
          have hprints : prints c = true := by
            rcases hc with hc | hc | hc | hc
            · exact absurd hc hbackspace
            · exact absurd hc hbel
            · exact absurd hc hbom
            · exact hc
          have hshown : display prints line ⟨c, owner⟩ = ⟨c, owner⟩ :: line := by
            rw [display, if_neg hbackspace, if_pos hprints]
          have hlast : OwnLast owner ((n + 1) % 2 ^ 32) (display prints line ⟨c, owner⟩) := by
            rw [hshown]
            exact (h.cons c).mono (Nat.mod_le _ _)
          have htail := ih hrest hlast
          exact ⟨⟨erasesOwn_of_ne hbackspace, htail.1⟩, htail.2⟩

/-! ## Readers -/

variable (prints)

/-- What a reader counts as displayed in the turn of a writer is the writer's own. -/
def InTurn (owner : τ) (reader : TextReader τ) : Prop :=
  reader.isFirst = false → OwnLast owner reader.displayed (lineOf prints reader.stream)

/-- Nothing is displayed that could be erased in the next turn. -/
def TextReader.Fresh (reader : TextReader τ) : Prop :=
  reader.isFirst = true ∨ reader.displayed = 0

instance decidableFreshReader (reader : TextReader τ) : Decidable reader.Fresh :=
  inferInstanceAs (Decidable (_ ∨ _))

/-- A writer whose label erases nothing and whose text is counted as it is shown, if he has text. -/
def TextWritter.Speaks (text : TextWritter τ) : Prop :=
  text.textQueue ≠ [] →
    backspace ∉ text.name.take maxLabelNameSize ∧ ∀ c ∈ text.textQueue, Counted prints c

instance decidableSpeaks (text : TextWritter τ) : Decidable (text.Speaks prints) :=
  inferInstanceAs (Decidable (_ → _))

variable {prints} {reader : TextReader τ}

theorem stream_write (reader : TextReader τ) (text : List (Sent τ)) :
    (reader.write text).stream = reader.stream ++ text := by
  simp [TextReader.stream, TextReader.write]

theorem Isolated.append {stream text : List (Sent τ)} (h : Isolated prints stream)
    (h' : Meets (display prints) ErasesOwn (lineOf prints stream) text) :
    Isolated prints (stream ++ text) :=
  (meets_append ..).2 ⟨h, h'⟩

theorem lineOf_append (stream text : List (Sent τ)) :
    lineOf prints (stream ++ text) = run (display prints) (lineOf prints stream) text :=
  run_append ..

theorem TextReader.Fresh.inTurn (h : reader.Fresh) : InTurn prints owner reader := by
  intro hfirst
  rcases h with h | h
  · rw [h] at hfirst
    cases hfirst
  · rw [h]
    exact ownLast_zero

theorem backspace_notMem_label {name : WString} (h : backspace ∉ name) :
    backspace ∉ labelStart ++ name ++ labelEnd := by
  rw [List.mem_append, List.mem_append, not_or, not_or]
  exact ⟨⟨by decide, h⟩, by decide⟩

variable {text : TextWritter τ}

theorem deliver_isolated {chunk : WString} (hname : backspace ∉ text.name.take maxLabelNameSize)
    (hchunk : ∀ c ∈ chunk, Counted prints c) (hisolated : Isolated prints reader.stream)
    (hturn : InTurn prints text.owner reader) :
    Isolated prints (reader.deliver text chunk).stream ∧
      InTurn prints text.owner (reader.deliver text chunk) := by
  -- before his characters comes his label, or nothing
  have hbefore : ∃ label n, (reader.deliver text chunk).stream =
        reader.stream ++ label ++ (sendChars text.owner chunk n).1 ∧
      (reader.deliver text chunk).displayed = (sendChars text.owner chunk n).2 ∧
      Isolated prints (reader.stream ++ label) ∧
      OwnLast text.owner n (lineOf prints (reader.stream ++ label)) := by
    by_cases hfirst : reader.isFirst = true
    · refine ⟨text.label, 0, ?_, ?_, hisolated.append ?_, ownLast_zero⟩
      · rw [TextReader.deliver, if_pos hfirst, if_pos hfirst, List.append_assoc]
        exact stream_write reader _
      · rw [TextReader.deliver, if_pos hfirst]
      · exact meets_mixerText (backspace_notMem_label hname) _
    · rw [Bool.not_eq_true] at hfirst
      refine ⟨[], reader.displayed, ?_, ?_, ?_, ?_⟩
      · simp only [TextReader.deliver, hfirst, Bool.false_eq_true, if_false, List.append_nil,
          List.nil_append]
        exact stream_write reader _
      · simp only [TextReader.deliver, hfirst, Bool.false_eq_true, if_false]
      · rwa [List.append_nil]
      · rw [List.append_nil]
        exact hturn hfirst
  obtain ⟨label, n, hstream, hdisplayed, hisolated', hown⟩ := hbefore
  obtain ⟨hmeets, hlast⟩ := meets_sendChars hchunk hown
  constructor
  · rw [hstream]
    exact hisolated'.append hmeets
  · intro _
    rw [hstream, hdisplayed, lineOf_append]
    exact hlast

theorem isolated_write {text : WString} (h : Isolated prints reader.stream)
    (htext : backspace ∉ text) : Isolated prints (reader.write (mixerText text)).stream := by
  rw [stream_write]
  exact h.append (meets_mixerText htext _)

theorem isolated_endTurn (message : Bool) (h : Isolated prints reader.stream) :
    Isolated prints (reader.endTurn message).stream := by
  cases message with
  | true => exact h
  | false => exact isolated_write h (by decide)

theorem fresh_endTurn (message : Bool) (reader : TextReader τ) :
    (reader.endTurn message).Fresh := .inl rfl

/-! ## Workers -/

variable {s t : TextMixerWorker τ}

/-- No writer has text. -/
def Silent (s : TextMixerWorker τ) : Prop :=
  ∀ e ∈ s.writters, e.2.textQueue = []

/-- No reader has anything displayed that could be erased in the next turn. -/
def Fresh (s : TextMixerWorker τ) : Prop :=
  ∀ e ∈ s.readers, e.2.Fresh

/-- The current writer has text. -/
def Talking (s : TextMixerWorker τ) : Prop :=
  ∃ current ∈ s.current?, current.2.textQueue ≠ []

variable (prints) in
/-- Nobody has erased what is not his own, and what the readers have displayed in the turn of the
current writer is his own. -/
structure Inv (s : TextMixerWorker τ) : Prop where
  isolated : ∀ e ∈ s.readers, Isolated prints e.2.stream
  inTurn : ∀ id owner, s.currentWritter = some id → s.owner? id = some owner →
    ∀ e ∈ s.readers, InTurn prints owner e.2

theorem Inv.of_readers (h : Inv prints s) (hreaders : t.readers = s.readers)
    (hcurrent : t.currentWritter = s.currentWritter)
    (howner : ∀ id, s.currentWritter = some id → t.owner? id = s.owner? id) : Inv prints t where
  isolated := hreaders ▸ h.isolated
  inTurn id owner hid := by
    rw [howner id (hcurrent ▸ hid), hreaders]
    exact h.inTurn id owner (hcurrent ▸ hid)

theorem inv_of_fresh (hisolated : ∀ e ∈ s.readers, Isolated prints e.2.stream) (hfresh : s.Fresh) :
    Inv prints s where
  isolated := hisolated
  inTurn _ _ _ _ e he := (hfresh e he).inTurn

theorem inv_of_none (hnone : s.currentWritter = none)
    (hisolated : ∀ e ∈ s.readers, Isolated prints e.2.stream) : Inv prints s where
  isolated := hisolated
  inTurn id _ hid := absurd (hnone.symm.trans hid) (Option.some_ne_none id).symm

theorem forall_mapReaders {P : TextReader τ → Prop} {f : TextReader τ → TextReader τ}
    (h : ∀ e ∈ s.readers, P (f e.2)) : ∀ e ∈ (s.mapReaders f).readers, P e.2 := by
  intro e he
  obtain ⟨e', he', rfl⟩ := List.mem_map.1 he
  exact h e' he'

theorem inv_switchTo {next : Option TextId} (message : Bool) (h : Inv prints s) (hheld : s.Held)
    (hfresh : s.currentWritter = none → next = none ∨ s.Fresh) :
    Inv prints (s.switchTo next message) := by
  rw [switchTo]
  split
  case isTrue => exact h
  case isFalse hne =>
    split
    case h_1 hnone =>
      have hcurrent := hheld.currentWritter_eq_none hnone
      refine inv_of_fresh h.isolated ((hfresh hcurrent).resolve_left fun heq => ?_)
      exact hne (hcurrent.trans heq.symm)
    case h_2 id text hsome =>
      split
      case isFalse => exact h
      case isTrue =>
        refine inv_of_fresh ?_ ?_
        · exact forall_mapReaders (P := fun reader => Isolated prints reader.stream)
            fun e he => isolated_endTurn message (h.isolated e he)
        · exact forall_mapReaders fun e _ => fresh_endTurn message e.2

variable {id : TextId}

theorem inv_speak {cut : Cut} (h : Inv prints s)
    (hcurrent : s.current? = some (id, text)) (htext : text.textQueue ≠ [])
    (hspeaks : text.Speaks prints) : Inv prints (s.speak id text cut) := by
  obtain ⟨hid, hget⟩ := current?_eq_some hcurrent
  obtain ⟨hname, hcounted⟩ := hspeaks htext
  have hdeliver : ∀ e ∈ s.readers,
      Isolated prints (e.2.deliver text (text.textQueue.take cut.len)).stream ∧
        InTurn prints text.owner (e.2.deliver text (text.textQueue.take cut.len)) := fun e he =>
    deliver_isolated hname (fun c hc => hcounted c (List.mem_of_mem_take hc)) (h.isolated e he)
      (h.inTurn id text.owner hid (owner?_eq hget) e he)
  constructor
  · exact forall_mapReaders (P := fun reader => Isolated prints reader.stream)
      fun e he => (hdeliver e he).1
  · intro k owner hk howner
    obtain rfl : id = k := Option.some.inj (hid.symm.trans hk)
    rw [owner?_speak, owner?_eq hget] at howner
    obtain rfl := Option.some.inj howner
    exact forall_mapReaders fun e he => (hdeliver e he).2

theorem inv_processText {waited : TextId → Nat} (h : Inv prints s) (hheld : s.Held)
    (hspeaks : ∀ current ∈ s.current?, current.2.Speaks prints)
    (hfresh : s.currentWritter = none → s.Silent ∨ s.Fresh) :
    Inv prints (s.processText waited) := by
  have hfound (k : TextId) := map_owner_lookFor waited s.currentWritter k s.writters {}
  have hcandidate (id : TextId) := @exists_of_lookFor _ id waited s.currentWritter s.writters {}
  have hget (id : TextId) (hid : s.currentWritter = some id) :=
    hid ▸ get?_lookFor_current waited id s.writters {}
  unfold processText
  generalize lookFor waited s.currentWritter s.writters {} = found at hfound hcandidate hget
  dsimp only
  have hinv : Inv prints { s with writters := found.1 } :=
    h.of_readers rfl rfl fun id _ => hfound id
  have hheld' : Held { s with writters := found.1 } := hheld.of_owner? rfl fun id _ => hfound id
  have hcurrent : ({ s with writters := found.1 } : TextMixerWorker τ).current? = s.current? := by
    rcases hid : s.currentWritter with _ | id
    · rw [current?, current?, hid, Option.bind_none, Option.bind_none]
    · rw [current?, current?, hid, Option.bind_some, Option.bind_some]
      dsimp only
      rw [hget id hid]
  rw [hcurrent]
  split
  case h_1 =>
    refine inv_switchTo false hinv hheld' fun hnone => ?_
    refine (hfresh hnone).imp_left fun hsilent => Option.eq_none_iff_forall_ne_some.2 ?_
    intro id hid
    rcases hcandidate id hid with hid | ⟨text, hmem, htext⟩
    · cases hid
    · exact htext (hsilent _ hmem)
  case h_2 id text hsome =>
    have hne : s.currentWritter ≠ none := by
      rw [(current?_eq_some hsome).1]
      exact Option.some_ne_none id
    split
    case isTrue =>
      split
      case isTrue => exact inv_switchTo false hinv hheld' fun hnone => absurd hnone hne
      case isFalse => exact hinv
    case isFalse htext =>
      have hspoken (cut : Cut) : Inv prints (speak { s with writters := found.1 } id text cut) :=
        inv_speak hinv (hcurrent.trans hsome) htext (hspeaks _ hsome)
      have hheld'' (cut : Cut) : (speak { s with writters := found.1 } id text cut).Held :=
        hheld'.of_owner? rfl fun k _ => owner?_speak ..
      split
      case isTrue => exact inv_switchTo _ (hspoken _) (hheld'' _) fun hnone => absurd hnone hne
      case isFalse => exact hspoken _

theorem inv_addWritter {owner : τ} {name : WString} {realtime : Bool}
    (h : Inv prints s) (hheld : s.Held) : Inv prints (s.addWritter owner id name realtime) := by
  have hcurrent : (s.addWritter owner id name realtime).currentWritter = s.currentWritter := by
    rw [addWritter]
    split <;> rfl
  have hreaders : (s.addWritter owner id name realtime).readers = s.readers := by
    rw [addWritter]
    split <;> rfl
  refine h.of_readers hreaders hcurrent fun k hk => ?_
  rw [owner?_addWritter, if_neg]
  rintro ⟨rfl, hnone⟩
  have hsome := hheld k hk
  rw [hnone] at hsome
  cases hsome

theorem inv_writeText {data : WString} (h : Inv prints s) : Inv prints (s.writeText id data) :=
  h.of_readers rfl rfl fun _ _ => owner?_writeText ..

theorem inv_removeWritter (h : Inv prints s) : Inv prints (s.removeWritter id) := by
  have howner (k : TextId) := owner?_removeWritter (s := s) id k
  rw [removeWritter] at howner ⊢
  split
  case isTrue => exact h
  case isFalse hsome =>
    rw [if_neg hsome] at howner
    dsimp only at howner ⊢
    split
    case isTrue =>
      refine inv_of_none rfl ?_
      exact forall_mapReaders (P := fun reader => Isolated prints reader.stream)
        fun e he => isolated_write (h.isolated e he) (by decide)
    case isFalse hne =>
      rw [if_neg hne] at howner
      refine h.of_readers rfl rfl fun k hk => (howner k).trans (if_neg ?_)
      rintro rfl
      exact hne hk

theorem inv_addReader (h : Inv prints s) : Inv prints (s.addReader id) := by
  rw [addReader]
  split
  case isTrue => exact h
  case isFalse =>
    have hnew : Isolated prints (TextReader.write {} (mixerText [bom]) : TextReader τ).stream :=
      @isolated_write _ _ {} _ trivial (by decide)
    refine ⟨fun e he => ?_, fun k owner hk howner e he => ?_⟩
    · rcases SortedMap.mem_set he with rfl | he
      · exact hnew
      · exact h.isolated e he
    · rcases SortedMap.mem_set he with rfl | he
      · exact TextReader.Fresh.inTurn (.inl rfl)
      · exact h.inTurn k owner hk howner e he

theorem inv_removeReader (h : Inv prints s) : Inv prints (s.removeReader id) where
  isolated e he := h.isolated e (List.mem_of_mem_filter he)
  inTurn k owner hk howner e he := h.inTurn k owner hk howner e (List.mem_of_mem_filter he)

/-! ## Flushing -/

variable (prints) in
/-- All writers speak. -/
def AllSpeak (s : TextMixerWorker τ) : Prop :=
  ∀ e ∈ s.writters, e.2.Speaks prints

theorem TextWritter.Speaks.remove (h : text.Speaks prints) (len : Nat) :
    (text.remove len).Speaks prints := by
  intro hne
  have hne' : text.textQueue ≠ [] := by
    intro hnil
    rw [TextWritter.remove, hnil] at hne
    exact hne List.drop_nil
  exact ⟨(h hne').1, fun c hc => (h hne').2 c (List.mem_of_mem_drop hc)⟩

theorem inv_flushCurrent (h : Inv prints s)
    (hall : AllSpeak prints s) (hcurrent : s.current? = some (id, text)) :
    Inv prints (s.flushCurrent id text) ∧ AllSpeak prints (s.flushCurrent id text) ∧
      (text.textQueue ≠ [] ∨ s.Fresh → (s.flushCurrent id text).Fresh) := by
  rw [flushCurrent]
  split
  case isTrue hnil => exact ⟨h, hall, fun hfresh => hfresh.resolve_left fun hne => hne hnil⟩
  case isFalse htext =>
    obtain ⟨hid, hget⟩ := current?_eq_some hcurrent
    obtain ⟨hname, hcounted⟩ := hall _ (SortedMap.mem_of_get? hget) htext
    have hfresh := forall_mapReaders (s := s) (P := TextReader.Fresh)
      (f := fun reader =>
        (reader.deliver text (text.textQueue.take (size - maxLabelSize))).endTurn false)
      fun e _ => fresh_endTurn false _
    refine ⟨inv_of_fresh ?_ hfresh, fun e he => ?_, fun _ => hfresh⟩
    · dsimp only
      refine forall_mapReaders (P := fun reader => Isolated prints reader.stream) fun e he => ?_
      exact isolated_endTurn false (deliver_isolated hname
        (fun c hc => hcounted c (List.mem_of_mem_take hc)) (h.isolated e he)
        (h.inTurn id text.owner hid (owner?_eq hget) e he)).1
    · obtain ⟨e', he', rfl⟩ := List.mem_map.1 he
      split
      · exact (hall e' he').remove _
      · exact hall e' he'

theorem inv_flushRound {waited : TextId → Nat} (h : Inv prints s) (hheld : s.Held)
    (hall : AllSpeak prints s) (hturn : s.Fresh ∨ s.Silent ∨ s.Talking) :
    Inv prints (s.flushRound waited) ∧ AllSpeak prints (s.flushRound waited) ∧
      ((s.flushRound waited).Fresh ∨ (s.flushRound waited).currentWritter = none) := by
  unfold flushRound
  split
  case h_1 hnone => exact ⟨h, hall, .inr (hheld.currentWritter_eq_none hnone)⟩
  case h_2 id text hcurrent =>
    obtain ⟨hinv, hall', hfresh⟩ := inv_flushCurrent h hall hcurrent
    dsimp only
    have hdone (hfresh : (s.flushCurrent id text).Fresh) :
        Inv prints { s.flushCurrent id text with
          currentWritter :=
            (nextToFlush waited (s.flushCurrent id text).writters).nextCurrentParticipant } :=
      inv_of_fresh hinv.isolated hfresh
    rcases hturn with hturn | hsilent | ⟨⟨k, text'⟩, hcurrent', htext⟩
    · exact ⟨hdone (hfresh (.inr hturn)), hall', .inl (hfresh (.inr hturn))⟩
    · -- nobody has text, and nobody comes next
      have hflush : s.flushCurrent id text = s :=
        if_pos (hsilent _ (SortedMap.mem_of_get? (current?_eq_some hcurrent).2))
      have hnone : (nextToFlush waited (s.flushCurrent id text).writters).nextCurrentParticipant =
          none := by
        refine Option.eq_none_iff_forall_ne_some.2 fun k hk => ?_
        obtain ⟨text', hmem, htext⟩ := exists_of_nextToFlush hk
        rw [hflush] at hmem
        exact htext (hsilent _ hmem)
      rw [hnone]
      exact ⟨inv_of_none rfl hinv.isolated, hall', .inr rfl⟩
    · rw [hcurrent] at hcurrent'
      cases hcurrent'
      exact ⟨hdone (hfresh (.inl htext)), hall', .inl (hfresh (.inl htext))⟩

theorem inv_flushLoop {waited : Nat → TextId → Nat} {rounds : Nat} (h : Inv prints s)
    (hheld : s.Held) (hall : AllSpeak prints s)
    (hturn : s.currentWritter = none ∨ s.Fresh ∨ s.Silent ∨ s.Talking) :
    Inv prints (flushLoop waited rounds s) := by
  induction rounds generalizing s with
  | zero => exact h
  | succ rounds ih =>
    rw [flushLoop]
    split
    case isTrue => exact h
    case isFalse hsome =>
      have hturn' := hturn.resolve_left fun hnone => hsome (by rw [hnone]; rfl)
      obtain ⟨hinv, hall', hdone⟩ := inv_flushRound h hheld hall hturn'
      exact ih hinv (held_flushRound hheld) hall' (hdone.elim (fun hfresh => .inr (.inl hfresh)) .inl)

/-! ## Runs -/

variable (prints) in
/-- What a worker that shall keep what is displayed from others has to be asked. A round is asked
when the name of the current writer has no backspace and his text is counted as it is displayed, and
the readers have no text displayed that could be erased if a writer comes after nobody. A flush is
asked when this is so of all writers, and either the current one has text, or the readers have
nothing displayed that could be erased, or no writer has text. -/
def Separates (s : TextMixerWorker τ) : Operation τ → Prop
  | .processText _ =>
    (∀ current ∈ s.current?, current.2.Speaks prints) ∧
      (s.currentWritter = none → s.Silent ∨ s.Fresh)
  | .flushText _ =>
    s.currentWritter = none ∨ AllSpeak prints s ∧ (s.Fresh ∨ s.Silent ∨ s.Talking)
  | _ => True

instance decidableSeparates : (op : Operation τ) → Decidable (Separates prints s op)
  | .processText _ =>
    inferInstanceAs (Decidable (_ ∧ (_ → (∀ e ∈ s.writters, _) ∨ ∀ e ∈ s.readers, _)))
  | .flushText _ =>
    inferInstanceAs (Decidable (_ ∨ (∀ e ∈ s.writters, _) ∧
      ((∀ e ∈ s.readers, _) ∨ (∀ e ∈ s.writters, _) ∨ ∃ _ ∈ s.current?, _)))
  | .addWritter .. | .writeText .. | .removeWritter _ | .addReader _ | .removeReader _ =>
    .isTrue trivial

theorem inv_step {op : Operation τ} (h : Inv prints s) (hheld : s.Held) (hop : Separates prints s op) :
    Inv prints (s.step op) := by
  cases op with
  | addWritter owner id name realtime => exact inv_addWritter h hheld
  | writeText id data => exact inv_writeText h
  | removeWritter id => exact inv_removeWritter h
  | addReader id => exact inv_addReader h
  | removeReader id => exact inv_removeReader h
  | processText waited => exact inv_processText h hheld hop.1 hop.2
  | flushText waited =>
    rcases hop with hnone | ⟨hall, hturn⟩
    · have hsame : s.step (.flushText waited) = s := by
        rw [step, flushText, flushLoop, hnone]
        rfl
      rwa [hsame]
    · exact inv_flushLoop h hheld hall (.inr hturn)

theorem inv_init : Inv prints ({} : TextMixerWorker τ) :=
  inv_of_none rfl fun _ he => absurd he List.not_mem_nil

/-! ### The buffer -/

/-- All texts fit into the buffer in which they are put together. -/
def TextReader.Fits (reader : TextReader τ) : Prop :=
  ∀ text ∈ reader.input, text.length ≤ size

theorem length_sendChars_le (owner : τ) (text : WString) (n : Nat) :
    (sendChars owner text n).1.length ≤ text.length := by
  induction text generalizing n with
  | nil => exact Nat.le_refl 0
  | cons c text ih =>
    rw [sendChars]
    split_ifs
    · exact Nat.le_succ_of_le (ih n)
    all_goals exact Nat.succ_le_succ (ih _)

theorem length_label_le (text : TextWritter τ) : text.label.length ≤ maxLabelSize := by
  have hname := List.length_take_le maxLabelNameSize text.name
  rw [TextWritter.label, mixerText, List.length_map, List.length_append, List.length_append,
    maxLabelSize]
  omega

theorem TextReader.Fits.write (h : reader.Fits) {text : List (Sent τ)} (htext : text.length ≤ size) :
    (reader.write text).Fits := by
  intro text' hmem
  rcases List.mem_append.1 hmem with hmem | hmem
  · exact h text' hmem
  · rwa [List.mem_singleton.1 hmem]

theorem TextReader.Fits.writeMixerText (h : reader.Fits) {text : WString}
    (htext : text.length ≤ size) : (reader.write (mixerText text)).Fits :=
  h.write (by rwa [mixerText, List.length_map])

theorem fits_deliver (h : reader.Fits) (text : TextWritter τ) {chunk : WString}
    (hchunk : chunk.length ≤ size - maxLabelSize) : (reader.deliver text chunk).Fits := by
  refine h.write ?_
  have hlabel : (if reader.isFirst then text.label else []).length ≤ maxLabelSize := by
    split
    · exact length_label_le text
    · exact Nat.zero_le _
  have hsent := length_sendChars_le text.owner chunk (if reader.isFirst then 0 else reader.displayed)
  have hsize : maxLabelSize ≤ size := by decide
  rw [List.length_append]
  omega

theorem fits_endTurn (message : Bool) (h : reader.Fits) : (reader.endTurn message).Fits := by
  cases message with
  | true => exact h
  | false => exact h.writeMixerText (by decide)

section Delimiters

variable {buffer : WString} {c : Cut}

theorem searchWord_len_le : (c.searchWord buffer).len ≤ c.len := by
  rw [Cut.searchWord]
  split
  case h_1 => exact Nat.le_refl _
  case h_2 i hfind =>
    have hmem := List.mem_of_find?_eq_some hfind
    rw [List.mem_reverse, List.mem_range] at hmem
    exact hmem.le

theorem searchSentence_len_le (first : Bool) (hne : buffer ≠ []) (hle : c.len ≤ buffer.length) :
    (c.searchSentence buffer first).len ≤ buffer.length := by
  rw [Cut.searchSentence]
  split
  · split
    · exact List.length_pos_iff.2 hne
    · exact hle
  · dsimp only
    split
    case h_1 => exact hle
    case h_2 i hfind =>
      have hmem := List.mem_of_find?_eq_some hfind
      rw [List.mem_reverse, List.mem_range] at hmem
      dsimp only
      omega

theorem messageDelimiter_le {len i k : Nat} (hi : i < len)
    (h : messageDelimiter buffer len i = some k) : k ≤ len := by
  rw [messageDelimiter] at h
  split_ifs at h with hseparator hcrlf hlf
  · exact Option.some.inj h ▸ hi
  · exact Option.some.inj h ▸ hcrlf.1
  · exact Option.some.inj h ▸ hi

theorem searchMessage_len_le : (c.searchMessage buffer).len ≤ c.len := by
  rw [Cut.searchMessage]
  split
  case h_1 => exact Nat.le_refl _
  case h_2 len hfind =>
    obtain ⟨i, hi, hlen⟩ := List.exists_of_findSome?_eq_some hfind
    exact messageDelimiter_le (List.mem_range.1 hi) hlen

theorem cut_len_le (searchWordDelimiter first : Bool) (hne : buffer ≠ []) :
    (cut buffer searchWordDelimiter first).len ≤ buffer.length := by
  rw [cut]
  refine searchMessage_len_le.trans (searchSentence_len_le first hne ?_)
  split
  · exact searchWord_len_le
  · exact Nat.le_refl _

end Delimiters

/-- Nothing that is written to the readers is longer than the buffer. -/
def AllFit (s : TextMixerWorker τ) : Prop :=
  ∀ e ∈ s.readers, e.2.Fits

theorem allFit_switchTo (h : s.AllFit) (next : Option TextId) (message : Bool) :
    (s.switchTo next message).AllFit := by
  rw [switchTo]
  split
  · exact h
  · split
    · exact h
    · split
      · exact forall_mapReaders (P := TextReader.Fits) fun e he => fits_endTurn message (h e he)
      · exact h

theorem allFit_processText (h : s.AllFit) (waited : TextId → Nat) :
    (s.processText waited).AllFit := by
  unfold processText
  generalize lookFor waited s.currentWritter s.writters {} = found
  dsimp only
  split
  case h_1 => exact allFit_switchTo (s := { s with writters := found.1 }) h _ _
  case h_2 id text hsome =>
    have hspoken (searchWordDelimiter first : Bool) (hne : text.textQueue ≠ []) :
        (speak { s with writters := found.1 } id text (cut (text.textQueue.take
          (size - maxLabelSize)) searchWordDelimiter first)).AllFit := by
      have hne' : text.textQueue.take (size - maxLabelSize) ≠ [] := by
        rw [Ne, List.take_eq_nil_iff, not_or]
        exact ⟨by decide, hne⟩
      refine forall_mapReaders (P := TextReader.Fits) fun e he => fits_deliver (h e he) text ?_
      refine (List.length_take_le _ _).trans ((cut_len_le _ _ hne').trans ?_)
      exact List.length_take_le _ _
    split
    · split
      · exact allFit_switchTo (s := { s with writters := found.1 }) h _ _
      · exact h
    case isFalse hne =>
      split
      · exact allFit_switchTo (hspoken _ _ hne) _ _
      · exact hspoken _ _ hne

theorem allFit_flushRound (h : s.AllFit) (waited : TextId → Nat) :
    (s.flushRound waited).AllFit := by
  unfold flushRound
  split
  case h_1 => exact h
  case h_2 id text _ =>
    change (s.flushCurrent id text).AllFit
    rw [flushCurrent]
    split
    · exact h
    · intro e he
      obtain ⟨e', he', rfl⟩ := List.mem_map.1 he
      exact fits_endTurn false (fits_deliver (h e' he') text (List.length_take_le _ _))

theorem allFit_flushLoop (h : s.AllFit) (waited : Nat → TextId → Nat) (rounds : Nat) :
    (flushLoop waited rounds s).AllFit := by
  induction rounds generalizing s with
  | zero => exact h
  | succ rounds ih =>
    rw [flushLoop]
    split
    · exact h
    · exact ih (allFit_flushRound h _)

theorem allFit_step (h : s.AllFit) (op : Operation τ) : (s.step op).AllFit := by
  cases op with
  | addWritter owner id name realtime =>
    change (s.addWritter owner id name realtime).AllFit
    rw [addWritter]
    split <;> exact h
  | writeText id data => exact h
  | removeWritter id =>
    change (s.removeWritter id).AllFit
    rw [removeWritter]
    split
    · exact h
    · split
      · exact forall_mapReaders (P := TextReader.Fits) fun e he =>
          (h e he).writeMixerText (by decide)
      · exact h
  | addReader id =>
    change (s.addReader id).AllFit
    rw [addReader]
    split
    · exact h
    · intro e he
      rcases SortedMap.mem_set he with rfl | he
      · have hnone : TextReader.Fits ({} : TextReader τ) :=
          fun _ hmem => absurd hmem List.not_mem_nil
        exact hnone.writeMixerText (by decide)
      · exact h e he
  | removeReader id => exact fun e he => h e (List.mem_of_mem_filter he)
  | processText waited => exact allFit_processText h waited
  | flushText waited => exact allFit_flushLoop h waited _

/-- Whatever a worker is asked, the buffer is never exceeded, and when all it is asked keeps what is
displayed from others, nobody erases what is not his own. -/
theorem isolates (prints : Nat → Bool) (ops : List (Operation τ)) :
    (∀ e ∈ (run step {} ops).readers, ∀ text ∈ e.2.input, text.length ≤ size) ∧
      (Meets step (Separates prints) {} ops →
        ∀ e ∈ (run step {} ops).readers, Isolated prints e.2.stream) := by
  constructor
  · refine @invariant_of_meets _ _ step (fun _ _ => True) _
      (I := fun _ (t : TextMixerWorker τ) => t.AllFit) (fun e he => absurd he List.not_mem_nil)
      (fun _ a h _ => allFit_step h a) ops (meets_of_forall (fun _ _ => trivial) ops)
  · intro hmeets
    exact (invariant_of_meets (I := fun _ t => t.Held ∧ Inv prints t) ⟨held_of_none rfl, inv_init⟩
      (fun _ _ h hC => ⟨held_step h.1, inv_step h.2 h.1 hC⟩) ops hmeets).2.isolated

/-- Two writers take turns, and each erases in his own. -/
theorem isolates_turns : ∀ e ∈ (run step {} [.addReader 0, .addWritter 1 1 [0x41] true,
      .addWritter 2 2 [0x42] true, .writeText 1 [0x68, 8, 0x0A], .writeText 2 [0x69, 8],
      .processText fun _ => 0, .processText fun _ => 0, .flushText fun _ _ => 0]).readers,
    Isolated (fun c => 0x20 ≤ c || c = 0x0A) e.2.stream :=
  (isolates _ _).2 (by decide)

/-- While the worker has text of one writer displayed, a flush lets another erase it. -/
theorem not_isolated_flush : ¬∀ ops : List (Operation Nat), ∀ e ∈ (run step {} ops).readers,
    Isolated (fun _ => true) e.2.stream := by
  intro h
  refine absurd (h [.addReader 0, .addWritter 1 1 [0x41] true, .addWritter 2 2 [0x42] true,
    .writeText 1 [0x68], .processText fun _ => 0, .processText fun _ => 0, .writeText 2 [8],
    .flushText fun _ _ => 0]) ?_
  decide

end McuMediaServer.TextMixerWorker
