import McuMediaServer.Base.OrderedMap
import McuMediaServer.Base.Run
import McuMediaServer.Rtp.Packet

/-!
# The jitter buffer

`RTPBuffer` orders the received packets by extended sequence number. `Wait` hands out the first one
when it is the one expected, when it has waited long enough or when the buffer was told to hurry up,
and sleeps otherwise. Every method holds the buffer's lock, and `Wait` gives it up only while it
sleeps, so a run of the buffer is an interleaving of whole methods and of turns of the loop of
`Wait`.

Next to the buffer a run keeps what has happened to the packets (`BufferRun`). `BufferRun.Inv` is
what every turn keeps, as long as no packet arrives at or below the last packet handed out when that
is one of the last two of the 32-bit number space (`BufferRun.InRange`): the expected number is then
indistinguishable from *none expected* or has wrapped to zero.
-/

namespace McuMediaServer

open OrderedMap StepRun

/-- `(DWORD)-1`: no packet is expected yet. -/
def noNext : Nat := 2 ^ 32 - 1

/-- Packets by extended sequence number. Reference: `rtpbuffer.h:247`,
`RTPOrderedPackets`. -/
abbrev RTPOrderedPackets := Std.TreeMap Nat RTPTimedPacket

/-- Reference: `rtpbuffer.h:14`, class `RTPBuffer`. -/
structure RTPBuffer where
  packets : RTPOrderedPackets := ∅
  /-- The 32-bit number expected next. -/
  next : Nat := noNext
  /-- In milliseconds. -/
  maxWaitTime : UInt32 := 0
  hurryUp : Bool := false
  cancel : Bool := false

namespace RTPBuffer

/-- Queue a packet, unless it is already past or already queued. Reference: `rtpbuffer.h:42`,
`Add`. -/
def add (b : RTPBuffer) (rtp : RTPTimedPacket) : RTPBuffer × Bool :=
  let seq := rtp.extSeqNum
  -- Already past
  if b.next ≠ noNext ∧ seq < b.next then
    (b, false)
  -- Already have it
  else if b.packets[seq]?.isSome then
    (b, false)
  else
    ({ b with packets := b.packets.insert seq rtp }, true)

/-- How a turn of the loop of `Wait` ends. -/
inductive Turn where
  /-- `Wait` returns without a packet. -/
  | cancelled
  /-- `Wait` returns the packet. -/
  | packet (rtp : RTPTimedPacket)
  /-- `Wait` sleeps until it is signalled or, with a packet queued, until that has waited enough. -/
  | sleep
  deriving DecidableEq

/-- The packet has been waited for long enough at the time `now`, in milliseconds. Reference:
`rtpbuffer.h:141`. -/
def expired (b : RTPBuffer) (rtp : RTPTimedPacket) (now : UInt64) : Bool :=
  rtp.time + b.maxWaitTime.toUInt64 < now

/-- One turn of the loop of `Wait`, under the lock. Reference: `rtpbuffer.h:124`, `Wait`. -/
def waitTurn (b : RTPBuffer) (now : UInt64) : RTPBuffer × Turn :=
  if b.cancel then
    (b, .cancelled)
  else
    match first? b.packets with
    | some (seq, candidate) =>
      if b.next = noNext ∨ seq = b.next ∨ b.expired candidate now ∨ b.hurryUp then
        ({ b with next := (seq + 1) % 2 ^ 32, packets := b.packets.erase seq }, .packet candidate)
      else
        (b, .sleep)
    | none => ({ b with hurryUp := false }, .sleep)

/-- Reference: `rtpbuffer.h:185`, `Clear`. -/
def clear (b : RTPBuffer) : RTPBuffer :=
  { b with packets := ∅ }

/-- Reference: `rtpbuffer.h:205`, `Reset`. -/
def reset (b : RTPBuffer) : RTPBuffer :=
  { b with packets := ∅, cancel := false, next := noNext }

end RTPBuffer

/-! ## Runs -/

/-- What can happen to a buffer: a call of a method, or a turn of the loop of a thread in `Wait` at
a time of the clock. -/
inductive BufferAction where
  | add (rtp : RTPTimedPacket)
  | wait (now : UInt64)
  | hurryUp
  | cancel
  | clear
  | reset
  | setMaxWaitTime (maxWaitTime : UInt32)

/-- A buffer and the history of its packets. -/
structure BufferRun where
  buffer : RTPBuffer := {}
  /-- The packets `Add` accepted. -/
  accepted : List RTPTimedPacket := []
  /-- The packets `Wait` returned. -/
  returned : List RTPTimedPacket := []
  /-- Those of them returned since the last reset. -/
  sinceReset : List RTPTimedPacket := []
  /-- The packets dropped by `Reset` and `Clear`. -/
  discarded : List RTPTimedPacket := []
  /-- Hurry-up was requested, and `Wait` has not found the queue empty since. -/
  hurry : Bool := false

namespace BufferRun

/-- The packets in the queue, in order. -/
def queued (s : BufferRun) : List RTPTimedPacket :=
  values s.buffer.packets

/-- One step of a run, with the history of the packets brought up to date. -/
def step (s : BufferRun) : BufferAction → BufferRun
  | .add rtp =>
    { s with
      buffer := (s.buffer.add rtp).1
      accepted := if (s.buffer.add rtp).2 then s.accepted ++ [rtp] else s.accepted }
  | .wait now =>
    let emptied := !s.buffer.cancel && (first? s.buffer.packets).isNone
    let s' := { s with
      buffer := (s.buffer.waitTurn now).1
      hurry := s.hurry && !emptied }
    match (s.buffer.waitTurn now).2 with
    | .packet rtp =>
      { s' with returned := s.returned ++ [rtp], sinceReset := s.sinceReset ++ [rtp] }
    | _ => s'
  | .hurryUp => { s with buffer := { s.buffer with hurryUp := true }, hurry := true }
  | .cancel => { s with buffer := { s.buffer with cancel := true } }
  | .clear => { s with buffer := s.buffer.clear, discarded := s.discarded ++ s.queued }
  | .reset =>
    { s with
      buffer := s.buffer.reset
      sinceReset := []
      discarded := s.discarded ++ s.queued }
  | .setMaxWaitTime maxWaitTime =>
    { s with buffer := { s.buffer with maxWaitTime := maxWaitTime } }

/-- The packet, if one is added, is above the last packet returned since the last reset, when that
is one of the last two of the number space. -/
def InRange (s : BufferRun) : BufferAction → Prop
  | .add rtp => ∀ last ∈ s.sinceReset.getLast?,
      last.extSeqNum + 2 < 2 ^ 32 ∨ last.extSeqNum < rtp.extSeqNum
  | _ => True

instance (s : BufferRun) (a : BufferAction) : Decidable (s.InRange a) :=
  match a with
  | .add _ => inferInstanceAs (Decidable (∀ last ∈ s.sinceReset.getLast?, _))
  | .wait _ | .hurryUp | .cancel | .clear | .reset | .setMaxWaitTime _ => .isTrue trivial

/-- What the buffer has to do for its packets: those returned since the last reset are in strictly
increasing order, and every packet accepted is returned once, still queued, or discarded by a reset
or a clear. -/
structure Delivered (s : BufferRun) : Prop where
  increasing : s.sinceReset.Pairwise fun p q => p.extSeqNum < q.extSeqNum
  accounted : List.Perm s.accepted (s.returned ++ s.queued ++ s.discarded)

/-- A step skips packets only with a reason: a packet that is not right after the last one returned
since the reset has been waited for long enough, or hurry-up was requested. -/
def SkipsWithReason (s : BufferRun) : BufferAction → Prop
  | .wait now => ∀ last rtp, s.sinceReset.getLast? = some last →
      (s.buffer.waitTurn now).2 = .packet rtp →
      rtp.extSeqNum = last.extSeqNum + 1 ∨ s.buffer.expired rtp now = true ∨ s.hurry = true
  | _ => True

/-- What every step of a run keeps: packets are queued under their own number, above the last one
returned; the expected number is the one after it, cut to 32 bits. -/
structure Inv (s : BufferRun) : Prop extends Delivered s where
  key_eq : ∀ (seq : Nat) (rtp : RTPTimedPacket), s.buffer.packets[seq]? = some rtp →
    rtp.extSeqNum = seq
  next_none : s.sinceReset.getLast? = none → s.buffer.next = noNext
  next_some : ∀ last, s.sinceReset.getLast? = some last →
    s.buffer.next = (last.extSeqNum + 1) % 2 ^ 32
  above : ∀ last, s.sinceReset.getLast? = some last →
    ∀ (seq : Nat) (rtp : RTPTimedPacket), s.buffer.packets[seq]? = some rtp →
      last.extSeqNum < seq
  hurry_eq : s.buffer.hurryUp = s.hurry

theorem inv_init : Inv {} where
  increasing := .nil
  accounted := .nil
  key_eq := fun _ _ h => by simp at h
  next_none := fun _ => rfl
  next_some := fun _ h => nomatch h
  above := fun _ h => nomatch h
  hurry_eq := rfl

section Step

variable {s : BufferRun}

/-- What `Add` can do: it rejects the packet, or queues it under a new number that is not past. -/
theorem add_cases (b : RTPBuffer) (rtp : RTPTimedPacket) :
    b.add rtp = (b, false) ∨
      (b.add rtp = ({ b with packets := b.packets.insert rtp.extSeqNum rtp }, true) ∧
        b.packets[rtp.extSeqNum]? = none ∧ (b.next = noNext ∨ b.next ≤ rtp.extSeqNum)) := by
  rw [RTPBuffer.add]
  split
  case isTrue => exact .inl rfl
  case isFalse hpast =>
    split
    case isTrue => exact .inl rfl
    case isFalse hnew =>
      refine .inr ⟨rfl, Option.not_isSome_iff_eq_none.1 hnew, ?_⟩
      by_cases hnext : b.next = noNext
      · exact .inl hnext
      · exact .inr (Nat.le_of_not_lt fun h => hpast ⟨hnext, h⟩)

/-- What a turn of `Wait` can do: it leaves the buffer as it is, drops the hurry-up flag of an empty
buffer, or returns the first packet. -/
theorem waitTurn_cases (b : RTPBuffer) (now : UInt64) :
    (b.cancel = true ∧ b.waitTurn now = (b, .cancelled)) ∨
      (b.cancel = false ∧ first? b.packets = none ∧
        b.waitTurn now = ({ b with hurryUp := false }, .sleep)) ∨
      ∃ seq rtp, b.cancel = false ∧ first? b.packets = some (seq, rtp) ∧
        (b.waitTurn now = (b, .sleep) ∨
          (b.waitTurn now = ({ b with next := (seq + 1) % 2 ^ 32,
                                      packets := b.packets.erase seq }, .packet rtp) ∧
            (b.next = noNext ∨ seq = b.next ∨ b.expired rtp now = true ∨ b.hurryUp = true))) := by
  rw [RTPBuffer.waitTurn]
  cases hcancel : b.cancel with
  | true => exact .inl ⟨rfl, rfl⟩
  | false =>
    cases hfirst : first? b.packets with
    | none => exact .inr (.inl ⟨rfl, rfl, rfl⟩)
    | some entry =>
      obtain ⟨seq, rtp⟩ := entry
      refine .inr (.inr ⟨seq, rtp, rfl, rfl, ?_⟩)
      simp only [Bool.false_eq_true, if_false]
      split
      case isTrue h => exact .inr ⟨rfl, h⟩
      case isFalse => exact .inl rfl

/-- A packet that `Add` accepts is above the last one returned. -/
theorem lt_of_accepted (h : Inv s) {rtp last : RTPTimedPacket} (hrange : s.InRange (.add rtp))
    (hnext : s.buffer.next = noNext ∨ s.buffer.next ≤ rtp.extSeqNum)
    (hlast : s.sinceReset.getLast? = some last) : last.extSeqNum < rtp.extSeqNum := by
  have hnow := h.next_some last hlast
  have hlt := last.extSeqNum_lt
  rcases hrange last hlast with hsmall | habove
  · rw [noNext] at hnext
    omega
  · exact habove

theorem inv_add (h : Inv s) (rtp : RTPTimedPacket) (hrange : s.InRange (.add rtp)) :
    Inv (s.step (.add rtp)) := by
  rcases add_cases s.buffer rtp with hadd | ⟨hadd, hnew, hnext⟩
  · have hs : s.step (.add rtp) = s := by simp [step, hadd]
    rwa [hs]
  · rw [step, hadd]
    refine { h with accounted := ?_, key_eq := ?_, above := ?_ }
    · -- the packet joins those accepted and those queued
      have hq : List.Perm (values (s.buffer.packets.insert rtp.extSeqNum rtp)) (rtp :: s.queued) :=
        values_insert_perm hnew
      have hmid : List.Perm (s.returned ++ rtp :: s.queued ++ s.discarded)
          (rtp :: (s.returned ++ s.queued ++ s.discarded)) := by
        rw [List.append_assoc, List.append_assoc]
        exact List.perm_middle
      calc List.Perm (s.accepted ++ [rtp]) (rtp :: s.accepted) := List.perm_append_singleton ..
        List.Perm _ (rtp :: (s.returned ++ s.queued ++ s.discarded)) := h.accounted.cons _
        List.Perm _ (s.returned ++ rtp :: s.queued ++ s.discarded) := hmid.symm
        List.Perm _ _ := (hq.symm.append_left _).append_right _
    · intro seq p hp
      rw [Std.TreeMap.getElem?_insert] at hp
      split at hp
      case isTrue hk =>
        cases hp
        exact Std.LawfulEqCmp.eq_of_compare hk
      case isFalse => exact h.key_eq seq p hp
    · intro last hlast seq p hp
      rw [Std.TreeMap.getElem?_insert] at hp
      split at hp
      case isTrue hk =>
        rw [← Std.LawfulEqCmp.eq_of_compare hk]
        exact lt_of_accepted h hrange hnext hlast
      case isFalse => exact h.above last hlast seq p hp

theorem inv_returned (h : Inv s) {seq : Nat} {rtp : RTPTimedPacket}
    (hfirst : first? s.buffer.packets = some (seq, rtp)) :
    Inv { s with
      buffer := { s.buffer with next := (seq + 1) % 2 ^ 32
                                packets := s.buffer.packets.erase seq }
      returned := s.returned ++ [rtp]
      sinceReset := s.sinceReset ++ [rtp] } := by
  have hentry := getElem?_of_first? hfirst
  have hseq := h.key_eq seq rtp hentry
  have hlast : (s.sinceReset ++ [rtp]).getLast? = some rtp := List.getLast?_concat
  refine { h with increasing := ?_, accounted := ?_, key_eq := ?_, next_none := ?_,
                  next_some := ?_, above := ?_ }
  · refine pairwise_concat h.increasing (fun _ _ _ => Nat.lt_trans) fun last hl => ?_
    rw [hseq]
    exact h.above last hl seq rtp hentry
  · have hq : List.Perm s.queued (rtp :: values (s.buffer.packets.erase seq)) :=
      values_erase_perm hfirst
    refine h.accounted.trans (((hq.append_left _).trans ?_).append_right _)
    rw [List.append_assoc]
    rfl
  · intro k p hp
    rw [Std.TreeMap.getElem?_erase] at hp
    split at hp
    case isTrue => cases hp
    case isFalse => exact h.key_eq k p hp
  · intro hnone
    rw [hlast] at hnone
    cases hnone
  · intro last hl
    rw [hlast] at hl
    cases hl
    rw [hseq]
  · intro last hl k p hp
    rw [hlast] at hl
    cases hl
    rw [Std.TreeMap.getElem?_erase] at hp
    split at hp
    case isTrue => cases hp
    case isFalse hne =>
      rw [hseq]
      exact Nat.compare_eq_lt.1
        (compare_first? hfirst hp fun heq => hne (heq ▸ Std.ReflCmp.compare_self))

theorem inv_wait (h : Inv s) (now : UInt64) : Inv (s.step (.wait now)) := by
  rw [step]
  rcases waitTurn_cases s.buffer now with ⟨hc, hturn⟩ | ⟨hc, hfirst, hturn⟩ |
    ⟨seq, rtp, hc, hfirst, hturn | ⟨hturn, -⟩⟩
  · rw [hturn, hc]
    exact { h with hurry_eq := h.hurry_eq.trans (Bool.and_true _).symm }
  · rw [hturn, hc, hfirst]
    exact { h with hurry_eq := (Bool.and_false _).symm }
  · rw [hturn, hc, hfirst]
    exact { h with hurry_eq := h.hurry_eq.trans (Bool.and_true _).symm }
  · rw [hturn, hc, hfirst]
    exact { inv_returned h hfirst with hurry_eq := h.hurry_eq.trans (Bool.and_true _).symm }

theorem accounted_discard (h : Inv s) :
    List.Perm s.accepted (s.returned ++ [] ++ (s.discarded ++ s.queued)) := by
  refine h.accounted.trans ?_
  rw [List.append_nil, List.append_assoc]
  exact List.perm_append_comm.append_left _

/-- **Step lemma.** A step keeps the invariant, when the packet it adds is in range. -/
theorem inv_step (h : Inv s) (a : BufferAction) (hrange : s.InRange a) : Inv (s.step a) := by
  cases a with
  | add rtp => exact inv_add h rtp hrange
  | wait now => exact inv_wait h now
  | hurryUp => exact { h with hurry_eq := rfl }
  | cancel => exact { h with }
  | setMaxWaitTime maxWaitTime => exact { h with }
  | clear =>
    exact { h with
      accounted := accounted_discard h
      key_eq := fun _ _ hp => by simp [step, RTPBuffer.clear] at hp
      above := fun _ _ _ _ hp => by simp [step, RTPBuffer.clear] at hp }
  | reset =>
    exact { h with
      increasing := .nil
      accounted := accounted_discard h
      key_eq := fun _ _ hp => by simp [step, RTPBuffer.reset] at hp
      next_none := fun _ => rfl
      next_some := fun _ hl => nomatch hl
      above := fun _ hl => nomatch hl }

theorem skipsWithReason (h : Inv s) (a : BufferAction) : s.SkipsWithReason a := by
  cases a with
  | wait now =>
    intro last rtp hlast hpacket
    rcases waitTurn_cases s.buffer now with ⟨hc, hturn⟩ | ⟨hc, hfirst, hturn⟩ |
      ⟨seq, rtp', hc, hfirst, hturn | ⟨hturn, hwhy⟩⟩
    · rw [hturn] at hpacket; cases hpacket
    · rw [hturn] at hpacket; cases hpacket
    · rw [hturn] at hpacket; cases hpacket
    · rw [hturn] at hpacket
      cases hpacket
      have hentry := getElem?_of_first? hfirst
      have hseq := h.key_eq seq rtp hentry
      have habove := h.above last hlast seq rtp hentry
      have hnext := h.next_some last hlast
      have hlt := rtp.extSeqNum_lt
      -- the expected number is the one after the last packet: it cannot have wrapped below `seq`
      rcases hwhy with hnone | heq | hexp | hhurry
      · rw [noNext] at hnone
        exact .inl (by omega)
      · exact .inl (by omega)
      · exact .inr (.inl hexp)
      · exact .inr (.inr (h.hurry_eq ▸ hhurry))
  | _ => exact trivial

end Step

/-- **Delivery.** In every run in which no packet is added at or below the last packet returned when
that is one of the last two of the number space, the packets returned between two resets are in
strictly increasing order, every accepted packet is returned once unless it is still queued or was
discarded, and packets are only skipped with a reason. -/
theorem delivered_of_inRange (actions : List BufferAction) (h : Meets step InRange {} actions) :
    Delivered (run step {} actions) ∧ Meets step SkipsWithReason {} actions := by
  have hstep : ∀ as a, Inv (run step {} as) → InRange (run step {} as) a →
      Inv (step (run step {} as) a) := fun as a hI ha => inv_step hI a ha
  have hinv : Inv (run step {} actions) :=
    invariant_of_meets (I := fun _ s => Inv s) inv_init hstep actions h
  have hskip : Meets step SkipsWithReason {} actions :=
    Meets.of_invariant (I := fun _ s => Inv s) inv_init hstep
      (fun as a hI _ => skipsWithReason hI a) actions h
  exact ⟨hinv.toDelivered, hskip⟩

/-- Packets 7 and 9 are returned in order although 9 arrives first: it waits until the time it may
wait for 7 and 8 is over. -/
theorem delivered_reordered :
    Delivered (run step {}
      [.setMaxWaitTime 60, .add (.numbered 6 1), .wait 2, .add (.numbered 9 3), .wait 4,
        .add (.numbered 7 5), .wait 6, .wait 64]) ∧
      Meets step SkipsWithReason {}
      [.setMaxWaitTime 60, .add (.numbered 6 1), .wait 2, .add (.numbered 9 3), .wait 4,
        .add (.numbered 7 5), .wait 6, .wait 64] :=
  delivered_of_inRange _ (by decide)

/-- After the packet before the last of the number space is returned, an older packet is accepted
and returned. -/
theorem not_delivered_wrap :
    ¬ Delivered (run step {}
      [.add (.numbered 0xFFFFFFFE 1), .wait 2, .add (.numbered 5 3), .wait 4]) := by
  intro h
  have hincreasing := h.increasing
  revert hincreasing
  decide

end BufferRun

end McuMediaServer
