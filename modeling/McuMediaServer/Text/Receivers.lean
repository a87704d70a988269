import McuMediaServer.Rtmp.Media
import McuMediaServer.Rtp.Redundant
import Mathlib.Data.List.TakeWhile

/-!
# The receivers of text

`TextStream::RecText` shows the text of RTP packets to a text output,
`MediaBridgeSession::RecText` sends it on as metadata. Both count the packets lost since the last
one, put a mark for each that cannot be recovered, take the others from the redundant blocks and go
on with the text of the packet itself. The second is a copy of the first in which the clamp of the
lost packets stands before the loop over the marks, and the text of a packet that follows a loss is
left out.

`agree_iff` says that they agree exactly as long as no packet is lost and no text has a null
character, which ends the text in the copy.
-/

namespace McuMediaServer

open Amf (WString AMFData UTF8Parser)

/-- Reference: `codecs.h:108`, `TextCodec::T140RED`. -/
def codecT140RED : UInt32 := 105

/-- Reference: `text.h:10`. -/
structure TextFrame where
  timestamp : UInt32
  value : WString
  deriving DecidableEq, Repr

namespace TextFrame

/-- Reference: `text.h:32`, `SetFrame`. -/
def ofBytes (timestamp : UInt32) (buffer : List UInt8) : TextFrame where
  timestamp := timestamp
  value := (((({} : UTF8Parser).setSize buffer.length).parse buffer).1).value

/-- The text up to its first null character. Reference: `text.h:81`. -/
def getWChar (frame : TextFrame) : WString :=
  frame.value.takeWhile (· ≠ 0)

/-- The replacement character in UTF-8. Reference: `textstream.cpp:14`, `LOSTREPLACEMENT`. -/
def lostReplacement : List UInt8 := [0xEF, 0xBF, 0xBD]

/-- The mark of a lost packet. -/
def mark (timestamp : UInt32) : TextFrame :=
  ofBytes timestamp lostReplacement

end TextFrame

/-- A packet of text as it comes out of the queue: a redundant one if that is its codec. -/
inductive TextPacket where
  | plain (rtp : RTPPacket) (hcodec : rtp.codec ≠ codecT140RED)
  | redundant (rtp : RTPPacket) (hcodec : rtp.codec = codecT140RED) (red : RTPRedundantPacket)
    (hparse : RTPRedundantPacket.parse rtp.payload = some red)

namespace TextPacket

def rtp : TextPacket → RTPPacket
  | plain rtp _ => rtp
  | redundant rtp _ _ _ => rtp

/-- Reference: `rtp.h:253`. -/
def getExtSeqNum (p : TextPacket) : Nat :=
  p.rtp.extSeqNum

end TextPacket

section Receivers

-- What is in memory behind the payload of a packet, which the lengths of its blocks may reach, and
-- the time since the start when the message of a packet is sent, by its number.
variable (behind : RTPPacket → Nat → UInt8) (clock : RTPPacket → Nat → QWORD)

/-- So many bytes from an offset into the payload on. -/
def mediaBytes (rtp : RTPPacket) (ini size : Nat) : List UInt8 :=
  (List.range size).map fun i =>
    rtp.payload[ini + i]?.getD (behind rtp (ini + i - rtp.payload.length))

namespace RTPRedundantPacket

variable (rtp : RTPPacket) (red : RTPRedundantPacket)

/-- Reference: `rtp.h:486`, `GetPrimaryPayloadData` and `GetPrimaryPayloadSize`. -/
def primaryPayload : List UInt8 :=
  mediaBytes behind rtp red.primaryData red.primarySize

/-- Reference: `rtp.h:496`, `GetRedundantPayloadData` and `GetRedundantPayloadSize`. -/
def redundantPayload (i : Nat) : List UInt8 :=
  match red.headers[i]? with
  | some header => mediaBytes behind rtp (red.redundantData + header.ini) header.size
  | none => []

/-- The frame of a redundant block. Reference: `textstream.cpp:375`. -/
def recovered (i : Nat) : TextFrame :=
  .ofBytes (.ofNat (red.getRedundantTimestamp rtp.timestamp i)) (red.redundantPayload behind rtp i)

/-- The frames of the last `lost` redundant blocks. Reference: `textstream.cpp:372`. -/
def recoveredLast (lost : Nat) : List TextFrame :=
  (List.range' (red.getRedundantCount - lost) lost).map (red.recovered behind rtp)

/-- The timestamp of the first block, the one that is marked. Reference: `textstream.cpp:350`. -/
def firstTimestamp (timestamp : UInt32) : UInt32 :=
  if 0 < red.getRedundantCount then
    .ofNat (red.getRedundantTimestamp rtp.timestamp 0)
  else
    timestamp

end RTPRedundantPacket

/-- Reference: `rtp.h:81`, `MaxExtSeqNum`. -/
def maxExtSeqNum : Nat := 2 ^ 32 - 1

/-- The packets lost between two numbers, a `DWORD`. Reference: `textstream.cpp:331`. -/
def lostSince (lastSeq seq : Nat) : Nat :=
  if lastSeq ≠ maxExtSeqNum then (seq + (2 ^ 32 - (lastSeq + 1))) % 2 ^ 32 else 0

/-- A turn of the loop: the frames sent to the text output for a packet. Reference:
`textstream.cpp:304`. -/
def TextStream.recText (muted : Bool) (lastSeq : Nat) (packet : TextPacket) :
    Nat × List TextFrame :=
  let seq := packet.getExtSeqNum
  let lost := lostSince lastSeq seq
  (seq, if muted then [] else
    match packet with
    | .redundant rtp _ red _ =>
      let marks := List.replicate (lost - red.getRedundantCount)
        (.mark (red.firstTimestamp rtp rtp.timestamp))
      let lost := if red.getRedundantCount < lost then red.getRedundantCount else lost
      marks ++ (red.recoveredLast behind rtp lost ++
        [.ofBytes rtp.timestamp (red.primaryPayload behind rtp)])
    | .plain rtp _ =>
      List.replicate lost (.mark rtp.timestamp) ++ [.ofBytes rtp.timestamp rtp.payload])

/-- The name of the messages with text. -/
def onText : WString := "onText".toList.map Char.toNat

/-- The metadata message for a frame. Reference: `mediabridgesession.cpp:832`. -/
def TextFrame.toMetaData (now : QWORD) (frame : TextFrame) : RTMPMetaData where
  timestamp := now
  params := [.string onText, .string frame.getWChar]

/-- A turn of the loop: the metadata sent for a packet. The timestamp of frames with no redundant
block is always 0. Reference: `mediabridgesession.cpp:781`. -/
def MediaBridgeSession.recText (lastSeq : Nat) (packet : TextPacket) : Nat × List RTMPMetaData :=
  let seq := packet.getExtSeqNum
  let lost := lostSince lastSeq seq
  let frames : List TextFrame :=
    match packet with
    | .redundant rtp _ red _ =>
      if lost = 0 then
        [.ofBytes 0 (red.primaryPayload behind rtp)]
      else
        let ts := red.firstTimestamp rtp 0
        let lost := if red.getRedundantCount < lost then red.getRedundantCount else lost
        List.replicate (lost - red.getRedundantCount) (.mark ts) ++ red.recoveredLast behind rtp lost
    | .plain rtp _ => [.ofBytes 0 rtp.payload]
  (seq, frames.mapIdx fun i frame => frame.toMetaData (clock packet.rtp i))

/-- What a loop gives for a sequence of packets, from the last number it has seen on. -/
def received {α : Type} (recText : Nat → TextPacket → Nat × List α) : Nat → List TextPacket → List α
  | _, [] => []
  | lastSeq, packet :: packets =>
    (recText lastSeq packet).2 ++ received recText (recText lastSeq packet).1 packets

/-- The text of a message with text. -/
def RTMPMetaData.text? (message : RTMPMetaData) : Option WString :=
  match message.params with
  | [.string name, .string text] => if name = onText then some text else none
  | _ => none

/-- From a last number on, the texts sent as metadata are those the text output is given. -/
def AgreeFrom (lastSeq : Nat) (packets : List TextPacket) : Prop :=
  (received (MediaBridgeSession.recText behind clock) lastSeq packets).filterMap (·.text?) =
    (received (TextStream.recText behind false) lastSeq packets).map (·.value)

/-- The receivers agree on a sequence of packets. -/
def Agree (packets : List TextPacket) : Prop :=
  AgreeFrom behind clock maxExtSeqNum packets

/-- The text of a packet itself. -/
def TextPacket.text : TextPacket → WString
  | .redundant rtp _ red _ => (TextFrame.ofBytes 0 (red.primaryPayload behind rtp)).value
  | .plain rtp _ => (TextFrame.ofBytes 0 rtp.payload).value

/-! ### One packet -/

section Packet

variable {packet : TextPacket} {lastSeq : Nat}

theorem text?_toMetaData (now : QWORD) (frame : TextFrame) :
    (frame.toMetaData now).text? = some frame.getWChar := by
  simp only [RTMPMetaData.text?, TextFrame.toMetaData, if_true]

theorem filterMap_text?_mapIdx (now : Nat → QWORD) (frames : List TextFrame) :
    (frames.mapIdx fun i frame => frame.toMetaData (now i)).filterMap (·.text?) =
      frames.map (·.getWChar) := by
  induction frames generalizing now with
  | nil => rfl
  | cons frame frames ih =>
    rw [List.mapIdx_cons, List.filterMap_cons, text?_toMetaData, List.map_cons]
    exact congrArg _ (ih fun i => now (i + 1))

theorem recText_of_lost_eq_zero (hlost : lostSince lastSeq packet.getExtSeqNum = 0) :
    ((MediaBridgeSession.recText behind clock lastSeq packet).2.filterMap (·.text?) =
      [(packet.text behind).takeWhile (· ≠ 0)]) ∧
    (TextStream.recText behind false lastSeq packet).2.map (·.value) = [packet.text behind] := by
  unfold MediaBridgeSession.recText TextStream.recText
  cases packet with
  | plain rtp hcodec =>
    simp only [filterMap_text?_mapIdx, hlost]
    exact ⟨rfl, rfl⟩
  | redundant rtp hcodec red hparse =>
    simp only [filterMap_text?_mapIdx, hlost]
    refine ⟨rfl, ?_⟩
    rw [if_neg (Nat.not_lt_zero _), Nat.zero_sub, List.replicate_zero, List.nil_append,
      RTPRedundantPacket.recoveredLast, List.range'_zero]
    rfl

theorem length_recText_lt (hlost : lostSince lastSeq packet.getExtSeqNum ≠ 0) :
    ((MediaBridgeSession.recText behind clock lastSeq packet).2.filterMap (·.text?)).length <
      ((TextStream.recText behind false lastSeq packet).2.map (·.value)).length := by
  unfold MediaBridgeSession.recText TextStream.recText
  cases packet with
  | plain rtp hcodec =>
    simp only [filterMap_text?_mapIdx, List.length_map, List.length_append, List.length_replicate,
      Bool.false_eq_true, if_false, List.length_cons, List.length_nil]
    omega
  | redundant rtp hcodec red hparse =>
    simp only [filterMap_text?_mapIdx, List.length_map, List.length_append, List.length_replicate,
      Bool.false_eq_true, if_false, if_neg hlost, List.length_cons, List.length_nil,
      RTPRedundantPacket.recoveredLast, List.length_range']
    split <;> omega

theorem length_recText_le (packet : TextPacket) (lastSeq : Nat) :
    ((MediaBridgeSession.recText behind clock lastSeq packet).2.filterMap (·.text?)).length ≤
      ((TextStream.recText behind false lastSeq packet).2.map (·.value)).length := by
  rcases Nat.eq_zero_or_pos (lostSince lastSeq packet.getExtSeqNum) with hlost | hlost
  · obtain ⟨hbridge, hstream⟩ :=
      recText_of_lost_eq_zero behind clock hlost
    rw [hbridge, hstream]
    rfl
  · exact (length_recText_lt behind clock hlost.ne').le

theorem recText_agree_iff :
    (MediaBridgeSession.recText behind clock lastSeq packet).2.filterMap (·.text?) =
        (TextStream.recText behind false lastSeq packet).2.map (·.value) ↔
      lostSince lastSeq packet.getExtSeqNum = 0 ∧ 0 ∉ packet.text behind := by
  rcases Nat.eq_zero_or_pos (lostSince lastSeq packet.getExtSeqNum) with hlost | hlost
  · obtain ⟨hbridge, hstream⟩ :=
      recText_of_lost_eq_zero behind clock hlost
    rw [hbridge, hstream, List.singleton_inj, List.takeWhile_eq_self_iff, and_iff_right hlost]
    constructor
    · intro h hmem
      exact absurd (h 0 hmem) (by decide)
    · intro h w hw
      exact decide_eq_true fun hzero => h (hzero ▸ hw)
  · refine iff_of_false (fun h => ?_) fun h => absurd h.1 hlost.ne'
    have hlt := length_recText_lt behind clock hlost.ne'
    rw [h] at hlt
    exact Nat.lt_irrefl _ hlt

end Packet

/-! ### Sequences of packets -/

section Packets

variable {lastSeq : Nat} {packets : List TextPacket}

theorem length_received_le (lastSeq : Nat) (packets : List TextPacket) :
    ((received (MediaBridgeSession.recText behind clock) lastSeq packets).filterMap
        (·.text?)).length ≤
      ((received (TextStream.recText behind false) lastSeq packets).map (·.value)).length := by
  induction packets generalizing lastSeq with
  | nil => exact Nat.le_refl _
  | cons packet packets ih =>
    rw [received, received, List.filterMap_append, List.map_append, List.length_append,
      List.length_append]
    exact Nat.add_le_add (length_recText_le behind clock packet lastSeq) (ih _)

theorem agreeFrom_cons {packet : TextPacket} :
    AgreeFrom behind clock lastSeq (packet :: packets) ↔
      (lostSince lastSeq packet.getExtSeqNum = 0 ∧ 0 ∉ packet.text behind) ∧
        AgreeFrom behind clock packet.getExtSeqNum packets := by
  rw [AgreeFrom, received, received, List.filterMap_append, List.map_append, ← recText_agree_iff behind clock]
  constructor
  · intro h
    have hlength := congrArg List.length h
    rw [List.length_append, List.length_append] at hlength
    have hle := length_recText_le behind clock packet lastSeq
    have hrest := length_received_le behind clock packet.getExtSeqNum packets
    exact List.append_inj h (Nat.le_antisymm hle (by
      change _ + List.length (List.filterMap _ (received _ packet.getExtSeqNum packets)) =
        _ + List.length (List.map _ (received _ packet.getExtSeqNum packets)) at hlength
      omega))
  · rintro ⟨hfirst, hrest⟩
    exact congrArg₂ (· ++ ·) hfirst hrest

theorem lostSince_eq_zero_iff {lastSeq seq : Nat} (hlt : lastSeq < seq) (hseq : seq < 2 ^ 32) :
    lostSince lastSeq seq = 0 ↔ seq = lastSeq + 1 := by
  have hmax : lastSeq ≠ maxExtSeqNum := by
    unfold maxExtSeqNum
    omega
  rw [lostSince, if_pos hmax]
  omega

/-- **Run lemma.** From a last number below those of the packets on. -/
theorem agreeFrom_iff (hpairwise : (lastSeq :: packets.map (·.getExtSeqNum)).Pairwise (· < ·)) :
    AgreeFrom behind clock lastSeq packets ↔
      (lastSeq :: packets.map (·.getExtSeqNum)).IsChain (fun a b => b = a + 1) ∧
        ∀ packet ∈ packets, 0 ∉ packet.text behind := by
  induction packets generalizing lastSeq with
  | nil => exact iff_of_true rfl ⟨.singleton _, fun _ h => absurd h List.not_mem_nil⟩
  | cons packet packets ih =>
    rw [List.map_cons] at hpairwise ⊢
    obtain ⟨hlast, hrest⟩ := List.pairwise_cons.1 hpairwise
    have hlost := lostSince_eq_zero_iff (hlast _ List.mem_cons_self) packet.rtp.extSeqNum_lt
    rw [agreeFrom_cons, ih hrest, List.isChain_cons_cons, List.forall_mem_cons]
    rw [TextPacket.getExtSeqNum] at *
    tauto

end Packets

/-- **Receivers of text.** On packets with increasing numbers the receivers agree exactly if the
numbers have no gaps and no text has a null character. -/
theorem agree_iff (packets : List TextPacket)
    (hincreasing : (packets.map (·.getExtSeqNum)).Pairwise (· < ·)) :
    Agree behind clock packets ↔
      (packets.map (·.getExtSeqNum)).IsChain (fun a b => b = a + 1) ∧
        ∀ packet ∈ packets, 0 ∉ packet.text behind := by
  cases packets with
  | nil => exact iff_of_true rfl ⟨.nil, fun _ h => absurd h List.not_mem_nil⟩
  | cons packet packets =>
    have hfirst : lostSince maxExtSeqNum packet.getExtSeqNum = 0 := if_neg fun h => h rfl
    rw [Agree, agreeFrom_cons, agreeFrom_iff behind clock hincreasing, List.forall_mem_cons,
      and_iff_right hfirst]
    exact and_left_comm

end Receivers

/-- A plain packet with the text "a", for examples. -/
def plainText (seqNum : UInt16) : TextPacket :=
  let rtp : RTPPacket :=
    { ssrc := 1, type := 98, seqNum := seqNum, timestamp := 0, payload := [0x61], codec := 106 }
  have hcodec : (106 : UInt32) ≠ codecT140RED := by decide
  .plain rtp hcodec

/-- A packet with the text "c" and, as a redundant block, the text "b" before it, for examples. -/
def redundantText (seqNum : UInt16) : TextPacket :=
  let rtp : RTPPacket :=
    { ssrc := 1, type := 99, seqNum := seqNum, timestamp := 0
      payload := [0xE2, 0, 0, 1, 0x62, 0x62, 0x63], codec := codecT140RED }
  let red : RTPRedundantPacket :=
    { headers := [.new 98 0 0 1], primaryType := 98, primarySize := 1, primaryData := 6
      redundantData := 5 }
  have hparse : RTPRedundantPacket.parse [0xE2, 0, 0, 1, 0x62, 0x62, 0x63] = some red := by decide
  .redundant rtp rfl red hparse

theorem agree_iff_consecutive :
    Agree (fun _ _ => 0) (fun _ _ => 0) [plainText 1, redundantText 2] ↔
      ([plainText 1, redundantText 2].map (·.getExtSeqNum)).IsChain (fun a b => b = a + 1) ∧
        ∀ packet ∈ [plainText 1, redundantText 2], 0 ∉ packet.text fun _ _ => 0 :=
  agree_iff _ _ _ (by decide)

/-- One packet is lost and recovered from the redundant block: the text of the packet that brings it
is not sent on. -/
theorem not_agree_recovered :
    ([plainText 1, redundantText 3].map (·.getExtSeqNum)).Pairwise (· < ·) ∧
      ¬ Agree (fun _ _ => 0) (fun _ _ => 0) [plainText 1, redundantText 3] := by
  refine ⟨by decide, ?_⟩
  intro h
  have hlength := congrArg List.length h
  revert hlength
  decide

end McuMediaServer
