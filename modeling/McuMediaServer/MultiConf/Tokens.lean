import McuMediaServer.Base.Run
import McuMediaServer.Base.OrderedMap
import McuMediaServer.Amf.Utf8
import Std.Data.TreeSet.Lemmas

/-!
# The access tokens of a conference

A client that comes in over RTMP shows a token: one that lets it watch the broadcast, or one that
lets it publish the input or play the output of a participant. `MultiConf` keeps the tokens not yet
used in three containers. A token is taken out by the first attempt to use it
(`MultiConf.pending_step`), so what is handed over is what the token was last added for
(`MultiConf.consumedAsAdded`). The three functions that add a token all look it up among the
broadcast tokens only, so adding one that is in use is refused exactly when it is not one of the
participant tokens (`MultiConf.tokensRight_iff`).
-/

namespace McuMediaServer

open Std
open Amf (WString)

/-- The kinds of participants. Reference: `Participant::Type` (`participant.h:19`). -/
inductive ParticipantType
  | RTP
  | RTMP
  deriving DecidableEq

/-- What of a conference decides on its tokens. Reference: `MultiConf` (`multiconf.h:174`), started
by its constructor (`multiconf.cpp:16`). -/
structure MultiConf where
  inited : Bool := false
  maxId : Int32 := 500
  participants : TreeMap Int32 ParticipantType := ∅
  inputTokens : TreeMap WString UInt32 := ∅
  outputTokens : TreeMap WString UInt32 := ∅
  tokens : TreeSet WString := ∅

namespace MultiConf

/-- What a token gives access to: the encoder of the broadcast, what a participant publishes, or
what it is sent. -/
inductive Stream
  | flvEncoder
  | input (partId : Int32)
  | output (partId : Int32)
  deriving DecidableEq

/-- The three containers of tokens. -/
inductive Purpose
  | broadcast
  | input
  | output
  deriving DecidableEq

/-- The container the tokens of a stream are kept in. -/
def Stream.purpose : Stream → Purpose
  | .flvEncoder => .broadcast
  | .input _ => .input
  | .output _ => .output

section Functions

variable (s : MultiConf)

/-- Reference: `MultiConf::AddBroadcastToken` (`multiconf.cpp:1591`). -/
def addBroadcastToken (token : WString) : MultiConf × Bool :=
  if s.tokens.contains token then (s, false)
  else ({ s with tokens := s.tokens.insert token }, true)

/-- The token is looked up among those of the broadcast, and replaces one of another participant.
Reference: `MultiConf::AddParticipantInputToken` (`multiconf.cpp:1609`). -/
def addParticipantInputToken (partId : Int32) (token : WString) : MultiConf × Bool :=
  if s.tokens.contains token then (s, false)
  else ({ s with inputTokens := s.inputTokens.insert token partId.toUInt32 }, true)

/-- Reference: `MultiConf::AddParticipantOutputToken` (`multiconf.cpp:1627`). -/
def addParticipantOutputToken (partId : Int32) (token : WString) : MultiConf × Bool :=
  if s.tokens.contains token then (s, false)
  else ({ s with outputTokens := s.outputTokens.insert token partId.toUInt32 }, true)

/-- Reference: `MultiConf::ConsumeBroadcastToken` (`multiconf.cpp:1646`). -/
def consumeBroadcastToken (token : WString) : MultiConf × Option Stream :=
  if s.tokens.contains token then ({ s with tokens := s.tokens.erase token }, some .flvEncoder)
  else (s, none)

/-- The participant a used token was added for, when it is there and an RTMP one. Reference:
`multiconf.cpp:1688`, and the same at `multiconf.cpp:1737`. -/
def rtmpParticipant (partId : Int32) : Option Int32 :=
  match s.participants[partId]? with
  | none => none
  | some type => if type ≠ .RTMP then none else some partId

/-- The token is gone also when nothing is handed over. Reference:
`MultiConf::ConsumeParticipantInputToken` (`multiconf.cpp:1667`). -/
def consumeParticipantInputToken (token : WString) : MultiConf × Option Stream :=
  match s.inputTokens[token]? with
  | none => (s, none)
  | some dword =>
    ({ s with inputTokens := s.inputTokens.erase token },
      (s.rtmpParticipant dword.toInt32).map .input)

/-- Reference: `MultiConf::ConsumeParticipantOutputToken` (`multiconf.cpp:1716`). -/
def consumeParticipantOutputToken (token : WString) : MultiConf × Option Stream :=
  match s.outputTokens[token]? with
  | none => (s, none)
  | some dword =>
    ({ s with outputTokens := s.outputTokens.erase token },
      (s.rtmpParticipant dword.toInt32).map .output)

/-- The watcher takes the first identifier. Reference: `MultiConf::Init` (`multiconf.cpp:84`). -/
def init : MultiConf :=
  { s with inited := true, maxId := s.maxId + 1 }

/-- A new participant, when the three mixers have room for it (`mixers`). The identifier is taken
before they are asked. Reference: `MultiConf::CreateParticipant` (`multiconf.cpp:598`). -/
def createParticipant (type : ParticipantType) (mixers : Bool) : MultiConf × Int32 :=
  if !s.inited then (s, 0)
  else
    let partId := s.maxId
    let s := { s with maxId := s.maxId + 1 }
    if !mixers then (s, 0)
    else ({ s with participants := s.participants.insert partId type }, partId)

/-- Reference: `MultiConf::DeleteParticipant` (`multiconf.cpp:710`). -/
def deleteParticipant (id : Int32) : MultiConf × Int32 :=
  match s.participants[id]? with
  | none => (s, 0)
  | some _ => ({ s with participants := s.participants.erase id }, 1)

/-- A player or the broadcaster takes an identifier of the same counter. Reference:
`MultiConf::CreatePlayer` (`multiconf.cpp:1282`), `MultiConf::StartBroadcaster`
(`multiconf.cpp:175`). -/
def takeId : MultiConf :=
  { s with maxId := s.maxId + 1 }

/-- Reference: `MultiConf::End` (`multiconf.cpp:824`). -/
def «end» : MultiConf :=
  { s with participants := ∅, inited := false }

/-- What a token of one of the containers would give access to, `none` when it is not there. -/
def pending (token : WString) : Purpose → Option Stream
  | .broadcast => if s.tokens.contains token then some .flvEncoder else none
  | .input => s.inputTokens[token]?.map fun dword => .input dword.toInt32
  | .output => s.outputTokens[token]?.map fun dword => .output dword.toInt32

/-- A token waits to be used in one of the three containers. -/
def InUse (token : WString) : Prop :=
  token ∈ s.tokens ∨ token ∈ s.inputTokens ∨ token ∈ s.outputTokens

end Functions

/-- What is done to a conference. -/
inductive Op
  | add (stream : Stream) (token : WString)
  | consume (purpose : Purpose) (token : WString)
  | init
  | createParticipant (type : ParticipantType) (mixers : Bool)
  | deleteParticipant (id : Int32)
  | takeId
  | «end»
  deriving DecidableEq

/-- What the caller gets back. -/
inductive Result
  | done
  | added (ok : Bool)
  | handed (stream : Option Stream)
  | id (partId : Int32)
  deriving DecidableEq

/-- Adding a token for a stream is one function for each container. -/
def addToken (s : MultiConf) (token : WString) : Stream → MultiConf × Bool
  | .flvEncoder => s.addBroadcastToken token
  | .input partId => s.addParticipantInputToken partId token
  | .output partId => s.addParticipantOutputToken partId token

/-- Using a token is one function for each container. -/
def consumeToken (s : MultiConf) (token : WString) : Purpose → MultiConf × Option Stream
  | .broadcast => s.consumeBroadcastToken token
  | .input => s.consumeParticipantInputToken token
  | .output => s.consumeParticipantOutputToken token

/-- One operation, with its result. -/
def call (s : MultiConf) : Op → MultiConf × Result
  | .add stream token => ((s.addToken token stream).1, .added (s.addToken token stream).2)
  | .consume purpose token =>
    ((s.consumeToken token purpose).1, .handed (s.consumeToken token purpose).2)
  | .init => (s.init, .done)
  | .createParticipant type mixers =>
    ((s.createParticipant type mixers).1, .id (s.createParticipant type mixers).2)
  | .deleteParticipant id => ((s.deleteParticipant id).1, .id (s.deleteParticipant id).2)
  | .takeId => (s.takeId, .done)
  | .end => (s.end, .done)

variable {st : Stream}

section Pending

variable (s : MultiConf) (t t' : WString)

theorem pending_addToken (st : Stream) (p : Purpose) :
    (s.addToken t st).1.pending t' p =
      if (s.addToken t st).2 = true ∧ t' = t ∧ p = st.purpose then some st
      else s.pending t' p := by
  rcases st with _ | partId | partId <;>
    simp only [addToken, addBroadcastToken, addParticipantInputToken, addParticipantOutputToken] <;>
    split
  case flvEncoder.isTrue | input.isTrue | output.isTrue => simp
  case flvEncoder.isFalse h =>
    cases p <;> simp [pending, Stream.purpose, TreeSet.contains_insert]
    grind
  case input.isFalse h =>
    cases p <;> simp [pending, Stream.purpose, OrderedMap.getElem?_insert_ite]
    split <;> simp
  case output.isFalse h =>
    cases p <;> simp [pending, Stream.purpose, OrderedMap.getElem?_insert_ite]
    split <;> simp

/-- Reference: `multiconf.cpp:1685`. -/
theorem inputTokens_consumeParticipantInputToken :
    (s.consumeParticipantInputToken t).1.inputTokens[t']? =
      if t' = t then none else s.inputTokens[t']? := by
  unfold consumeParticipantInputToken
  split
  case h_1 habsent =>
    split
    case isTrue heq => rw [heq, habsent]
    case isFalse => rfl
  case h_2 => exact OrderedMap.getElem?_erase_ite t t'

/-- Reference: `multiconf.cpp:1734`. -/
theorem outputTokens_consumeParticipantOutputToken :
    (s.consumeParticipantOutputToken t).1.outputTokens[t']? =
      if t' = t then none else s.outputTokens[t']? := by
  unfold consumeParticipantOutputToken
  split
  case h_1 habsent =>
    split
    case isTrue heq => rw [heq, habsent]
    case isFalse => rfl
  case h_2 => exact OrderedMap.getElem?_erase_ite t t'

theorem consumeParticipantInputToken_frame :
    (s.consumeParticipantInputToken t).1.tokens = s.tokens ∧
      (s.consumeParticipantInputToken t).1.outputTokens = s.outputTokens := by
  unfold consumeParticipantInputToken
  split <;> exact ⟨rfl, rfl⟩

theorem consumeParticipantOutputToken_frame :
    (s.consumeParticipantOutputToken t).1.tokens = s.tokens ∧
      (s.consumeParticipantOutputToken t).1.inputTokens = s.inputTokens := by
  unfold consumeParticipantOutputToken
  split <;> exact ⟨rfl, rfl⟩

theorem pending_consumeToken (p p' : Purpose) :
    (s.consumeToken t p).1.pending t' p' =
      if t' = t ∧ p' = p then none else s.pending t' p' := by
  cases p with
  | broadcast =>
    rw [consumeToken, consumeBroadcastToken]
    split <;> cases p' <;> simp [pending] <;> grind
  | input =>
    obtain ⟨htokens, houtput⟩ := consumeParticipantInputToken_frame s t
    rw [consumeToken]
    cases p' with
    | broadcast => simp [pending, htokens]
    | input =>
      simp only [pending, inputTokens_consumeParticipantInputToken, and_true]
      split <;> rfl
    | output => simp [pending, houtput]
  | output =>
    obtain ⟨htokens, hinput⟩ := consumeParticipantOutputToken_frame s t
    rw [consumeToken]
    cases p' with
    | broadcast => simp [pending, htokens]
    | input => simp [pending, hinput]
    | output =>
      simp only [pending, outputTokens_consumeParticipantOutputToken, and_true]
      split <;> rfl

/-- Reference: `multiconf.cpp:1688`. -/
theorem eq_of_rtmpParticipant {s : MultiConf} {partId partId' : Int32}
    (h : s.rtmpParticipant partId = some partId') :
    partId' = partId ∧ s.participants[partId]? = some .RTMP := by
  rw [rtmpParticipant] at h
  split at h
  case h_1 => cases h
  case h_2 type htype =>
    split at h
    case isTrue => cases h
    case isFalse hrtmp =>
      cases h
      exact ⟨rfl, htype.trans (congrArg some (Decidable.not_not.1 hrtmp))⟩

theorem pending_of_consumeToken {p : Purpose}
    (h : (s.consumeToken t p).2 = some st) : s.pending t p = some st := by
  cases p with
  | broadcast =>
    rw [consumeToken, consumeBroadcastToken] at h
    split at h
    case isTrue hc => exact (if_pos hc).trans h
    case isFalse => cases h
  | input =>
    rw [consumeToken, consumeParticipantInputToken] at h
    split at h
    case h_1 => cases h
    case h_2 dword hdword =>
      obtain ⟨partId, hpart, rfl⟩ := Option.map_eq_some_iff.1 h
      rw [pending, hdword, Option.map_some, (eq_of_rtmpParticipant hpart).1]
  | output =>
    rw [consumeToken, consumeParticipantOutputToken] at h
    split at h
    case h_1 => cases h
    case h_2 dword hdword =>
      obtain ⟨partId, hpart, rfl⟩ := Option.map_eq_some_iff.1 h
      rw [pending, hdword, Option.map_some, (eq_of_rtmpParticipant hpart).1]

end Pending

/-- The state an operation leaves. -/
def step (s : MultiConf) (op : Op) : MultiConf :=
  (s.call op).1

/-- The operations of a run with their results, in order. -/
def trace (s : MultiConf) : List Op → List (Op × Result)
  | [] => []
  | op :: ops => (op, (s.call op).2) :: trace (s.step op) ops

theorem trace_concat (s : MultiConf) (ops : List Op) (op : Op) :
    trace s (ops ++ [op]) =
      trace s ops ++ [(op, ((StepRun.run step s ops).call op).2)] := by
  induction ops generalizing s with
  | nil => rfl
  | cons op' ops ih =>
    rw [List.cons_append, trace, ih, StepRun.run_cons]
    rfl

/-- A token was added for the stream, and since then it was neither used nor added again for the
same purpose. -/
def AddedFor (events : List (Op × Result)) (token : WString) (st : Stream) : Prop :=
  ∃ before after, events = before ++ (.add st token, .added true) :: after ∧
    ∀ e ∈ after, e.1 ≠ .consume st.purpose token ∧
      ∀ st', e = (.add st' token, .added true) → st'.purpose ≠ st.purpose

/-- Whenever a token is used with success, what is handed over is what it was last added for, and
it had not been used since. -/
def ConsumedAsAdded (events : List (Op × Result)) : Prop :=
  ∀ before after p token st,
    events = before ++ (.consume p token, .handed (some st)) :: after → AddedFor before token st

/-- Adding a token that is in use fails and leaves the three containers as they are. -/
def RefusesInUse (s : MultiConf) (op : Op) : Prop :=
  ∀ st token, op = .add st token → s.InUse token →
    (s.call op).2 = .added false ∧ (s.step op).tokens = s.tokens ∧
      (s.step op).inputTokens = s.inputTokens ∧ (s.step op).outputTokens = s.outputTokens

/-- The tokens of a conference are right in a run. -/
def TokensRight (ops : List Op) : Prop :=
  ConsumedAsAdded (trace {} ops) ∧ StepRun.Meets step RefusesInUse {} ops

/-- A token that is added is one of the broadcast, or none of a participant. -/
def LooksUpTheRightTokens (s : MultiConf) (op : Op) : Prop :=
  ∀ st token, op = .add st token →
    token ∈ s.tokens ∨ token ∉ s.inputTokens ∧ token ∉ s.outputTokens

theorem pending_createParticipant (s : MultiConf) (type : ParticipantType) (mixers : Bool) :
    (s.createParticipant type mixers).1.pending = s.pending := by
  rw [createParticipant]
  split
  · rfl
  · simp only
    split <;> rfl

theorem pending_deleteParticipant (s : MultiConf) (id : Int32) :
    (s.deleteParticipant id).1.pending = s.pending := by
  rw [deleteParticipant]
  split <;> rfl

variable {token : WString}

theorem pending_step {s : MultiConf} {op : Op} {p : Purpose}
    (h : (s.step op).pending token p = some st) :
    ((op, (s.call op).2) = (.add st token, .added true) ∧ st.purpose = p) ∨
      (s.pending token p = some st ∧ op ≠ .consume p token ∧
        ∀ st', (op, (s.call op).2) = (.add st' token, .added true) → st'.purpose ≠ p) := by
  cases op with
  | add st' token' =>
    change (s.addToken token' st').1.pending token p = some st at h
    rw [pending_addToken] at h
    split at h
    case isTrue hadded =>
      obtain ⟨hok, rfl, rfl⟩ := hadded
      cases h
      exact .inl ⟨by rw [call, hok], rfl⟩
    case isFalse hother =>
      refine .inr ⟨h, nofun, fun st'' heq hp => hother ?_⟩
      simp only [call, Prod.mk.injEq, Op.add.injEq, Result.added.injEq] at heq
      obtain ⟨⟨rfl, rfl⟩, hok⟩ := heq
      exact ⟨hok, rfl, hp.symm⟩
  | consume p' token' =>
    change (s.consumeToken token' p').1.pending token p = some st at h
    rw [pending_consumeToken] at h
    split at h
    case isTrue => cases h
    case isFalse hother =>
      refine .inr ⟨h, fun heq => hother ?_, nofun⟩
      cases heq
      exact ⟨rfl, rfl⟩
  | init | takeId | «end» => exact .inr ⟨h, nofun, nofun⟩
  | createParticipant type mixers =>
    change (s.createParticipant type mixers).1.pending token p = some st at h
    rw [pending_createParticipant] at h
    exact .inr ⟨h, nofun, nofun⟩
  | deleteParticipant id =>
    change (s.deleteParticipant id).1.pending token p = some st at h
    rw [pending_deleteParticipant] at h
    exact .inr ⟨h, nofun, nofun⟩

theorem addedFor_of_pending (ops : List Op) {p : Purpose}
    (h : (StepRun.run step {} ops).pending token p = some st) :
    AddedFor (trace {} ops) token st ∧ st.purpose = p := by
  induction ops using List.reverseRecOn with
  | nil => cases p <;> simp [pending] at h
  | append_singleton ops op ih =>
    rw [StepRun.run_concat] at h
    rw [trace_concat]
    obtain ⟨hadd, hp⟩ | ⟨hbefore, hconsume, hadd⟩ := pending_step h
    · exact ⟨⟨trace {} ops, [], by rw [hadd], nofun⟩, hp⟩
    · obtain ⟨⟨before, after, hevents, hafter⟩, hp⟩ := ih hbefore
      refine ⟨⟨before, after ++ [(op, ((StepRun.run step {} ops).call op).2)], ?_, ?_⟩, hp⟩
      · rw [hevents, List.append_assoc, List.cons_append]
      · intro e he
        rcases List.mem_append.1 he with he | he
        · exact hafter e he
        · rw [List.mem_singleton.1 he, hp]
          exact ⟨hconsume, hadd⟩

theorem trace_eq_append {s : MultiConf} {ops : List Op} {before after : List (Op × Result)}
    {op : Op} {r : Result} (h : trace s ops = before ++ (op, r) :: after) :
    ∃ opsBefore, trace s opsBefore = before ∧
      r = ((StepRun.run step s opsBefore).call op).2 := by
  induction before generalizing s ops with
  | nil =>
    cases ops with
    | nil => cases h
    | cons op' ops =>
      cases h
      exact ⟨[], rfl, rfl⟩
  | cons e before ih =>
    cases ops with
    | nil => cases h
    | cons op' ops =>
      rw [trace, List.cons_append] at h
      injection h with hhead htail
      obtain ⟨opsBefore, htrace, hr⟩ := ih htail
      exact ⟨op' :: opsBefore, by rw [trace, hhead, htrace], hr⟩

theorem consumedAsAdded (ops : List Op) : ConsumedAsAdded (trace {} ops) := by
  intro before after p token st hevents
  obtain ⟨opsBefore, rfl, hr⟩ := trace_eq_append hevents
  simp only [call, Result.handed.injEq] at hr
  exact (addedFor_of_pending opsBefore (pending_of_consumeToken _ _ hr.symm)).1

theorem addToken_snd (s : MultiConf) (token : WString) (st : Stream) :
    (s.addToken token st).2 = !s.tokens.contains token := by
  cases hc : s.tokens.contains token <;> cases st <;>
    simp only [addToken, addBroadcastToken, addParticipantInputToken,
      addParticipantOutputToken, hc] <;> rfl

theorem addToken_fst_of_contains {s : MultiConf}
    (h : s.tokens.contains token = true) : (s.addToken token st).1 = s := by
  cases st <;>
    simp only [addToken, addBroadcastToken, addParticipantInputToken,
      addParticipantOutputToken, h, if_true]

theorem refusesInUse_iff (s : MultiConf) (op : Op) :
    RefusesInUse s op ↔ LooksUpTheRightTokens s op := by
  constructor
  · intro h st token hop
    by_cases huse : s.InUse token
    · have hrefused := (h st token hop huse).1
      rw [hop, call, addToken_snd, Result.added.injEq, Bool.not_eq_eq_eq_not, Bool.not_false] at hrefused
      exact .inl (TreeSet.mem_iff_contains.2 hrefused)
    · rw [InUse, not_or, not_or] at huse
      exact .inr huse.2
  · intro h st token hop huse
    have hmem : s.tokens.contains token = true := by
      rcases h st token hop with hmem | ⟨hinput, houtput⟩
      · exact hmem
      · exact huse.resolve_right fun hor => hor.elim hinput houtput
    have hsame : s.step op = s := by
      rw [step, hop, call]
      exact addToken_fst_of_contains hmem
    rw [hsame, hop, call, addToken_snd, hmem]
    exact ⟨rfl, rfl, rfl, rfl⟩

/-- **The access tokens of a conference.** In a run each token is used at most once, for the
participant and the purpose it was added for, and adding a token in use is refused and changes
nothing, exactly when no token is added that waits in a container of the participants and not in
that of the broadcast. -/
theorem tokensRight_iff (ops : List Op) :
    TokensRight ops ↔ StepRun.Meets step LooksUpTheRightTokens {} ops := by
  constructor
  · intro h
    exact h.2.imp fun s op => (refusesInUse_iff s op).1
  · intro h
    exact ⟨consumedAsAdded ops, h.imp fun s op => (refusesInUse_iff s op).2⟩

/-- The token of one participant is given to another. -/
theorem not_tokensRight_secondParticipant :
    ¬ TokensRight [.init, .add (.input 501) [0x74], .add (.input 502) [0x74]] := by
  rintro ⟨-, -, -, hsecond, -⟩
  obtain ⟨hrefused, -⟩ := hsecond (.input 502) [0x74] rfl (.inr (.inl (by decide)))
  revert hrefused
  decide

end MultiConf
end McuMediaServer
