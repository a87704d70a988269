import McuMediaServer.Base.Bits
import McuMediaServer.Base.Run
import McuMediaServer.Base.SortedMap
import McuMediaServer.Rtp.Packet
import Mathlib.Algebra.Ring.Nat

/-!
# The window of the FEC decoder

`FECDecoder` keeps the media packets it was given by their extended numbers and the FEC packets by
the number they start to protect at. When a media packet is added it drops what is more than 63
numbers below the highest one. It computes this limit in 32 bits, so that it is huge as long as the
highest number is below 63, and asks for the key of the next entry before it asks whether there is
one.

`windowed_iff` says of which runs the decoder holds exactly the window at every point.
-/

namespace McuMediaServer

open ByteSeq SortedMap StepRun

/-- Reference: `codecs.h:55`, `VideoCodec::ULPFEC`. -/
def codecULPFEC : UInt8 := 108

/-- What the sources leave open: whether the program survives to read the key behind the last entry
of a map, and how many bytes the buffer of a FEC packet has, `MTU+SRTP_MAX_TRAILER_LEN`. -/
structure FECPlatform where
  survivesEnd : Bool
  capacity : Nat

/-- A FEC packet, with as much of its header as the number it protects from. The cycles are never
set. Reference: `fecdecoder.h:15`. -/
structure FECData where
  data : List UInt8
  four_le : 4 ≤ data.length
  cycles : Nat := 0
  deriving DecidableEq, Repr

namespace FECData

/-- There is no value when the payload does not fit the buffer, or the number would be read from
bytes that were never written. Reference: `fecdecoder.h:25`. -/
def new (platform : FECPlatform) (payload : List UInt8) : Option FECData :=
  if h : 4 ≤ payload.length ∧ payload.length ≤ platform.capacity then
    some { data := payload, four_le := h.1 }
  else
    none

/-- Reference: `fecdecoder.h:60`. -/
def getBaseExtSeq (f : FECData) : Nat := f.cycles * 2 ^ 16 + (get2 f.data 2).getD 0

end FECData

/-- A packet whose codec is `RED`, with what the getters of its class give: the primary block and
the redundant ones, as many as its count says. -/
structure RedPacket extends RTPTimedPacket where
  primaryType : UInt8
  primaryCodec : UInt8
  primaryPayload : List UInt8
  redundant : List (UInt8 × List UInt8)
  deriving DecidableEq, Repr

/-- The primary block as a packet of its own, made at the time `now`. Reference: `rtp.cpp:1454`. -/
def RedPacket.createPrimaryPacket (p : RedPacket) (now : UInt64) : RTPTimedPacket where
  ssrc := p.ssrc
  type := p.primaryType
  mark := p.mark
  seqNum := p.seqNum
  timestamp := p.timestamp
  payload := p.primaryPayload
  codec := p.primaryCodec.toUInt32
  cycles := p.cycles
  time := now

/-- Only some of the header is copied. Reference: `rtp.h:448`. -/
def RTPTimedPacket.clone (p : RTPTimedPacket) : RTPTimedPacket :=
  { p with ssrc := 0, csrcs := [], extension := [] }

/-- A packet as it is added: one whose codec is `RED`, and the time, or another one. -/
inductive FECInput where
  | red (packet : RedPacket) (now : UInt64)
  | other (packet : RTPTimedPacket)
  deriving DecidableEq, Repr

/-- The decoder, its maps as lists in the order of the keys. Reference: `fecdecoder.h:113`. -/
structure FECDecoder where
  medias : List (Nat × RTPTimedPacket) := []
  codes : List (Nat × FECData) := []

namespace FECDecoder

variable (platform : FECPlatform)

/-- Put a FEC packet among the codes. -/
def insertCode (s : FECDecoder) (f : FECData) : FECDecoder :=
  { s with codes := SortedMap.insert f.getBaseExtSeq f s.codes }

/-- Put the blocks that are FEC packets among the codes. Reference: `fecdecoder.cpp:58`. -/
def insertCodes (s : FECDecoder) (blocks : List (UInt8 × List UInt8)) : Option FECDecoder :=
  blocks.foldlM (fun s block =>
    if block.1 = codecULPFEC then (FECData.new platform block.2).map s.insertCode else some s) s

/-- Delete entries up to a key. Behind the last entry the key is read all the same. Reference:
`fecdecoder.cpp:95`. -/
def deleteUntil {β : Type} (limit : Nat) : List (Nat × β) → Option (List (Nat × β))
  | [] => if platform.survivesEnd then some [] else none
  | e :: m => if e.1 < limit then deleteUntil limit m else some (e :: m)

/-- Delete what is below the last 64 numbers. The limit is a `DWORD`. Reference:
`fecdecoder.cpp:89`. -/
def prune (s : FECDecoder) : Option FECDecoder :=
  match s.medias.getLast? with
  | none => none
  | some (seq, _) => do
    let limit := (seq + (2 ^ 32 - 63)) % 2 ^ 32
    let medias ← deleteUntil platform limit s.medias
    let codes ← deleteUntil platform limit s.codes
    return { medias, codes }

/-- Keep a media packet unless there is one with its number. -/
def insertMedia (s : FECDecoder) (seq : Nat) (packet : RTPTimedPacket) : FECDecoder :=
  if (get? seq s.medias).isSome then s else { s with medias := SortedMap.set seq packet s.medias }

/-- Add a packet; gives whether it had media. There is no value where what the code does is not
defined. Reference: `fecdecoder.cpp:32`. -/
def addPacket (s : FECDecoder) : FECInput → Option (FECDecoder × Bool)
  | .red packet now =>
    if packet.primaryCodec = codecULPFEC then do
      let fec ← FECData.new platform packet.primaryPayload
      return (s.insertCode fec, false)
    else do
      let s := s.insertMedia packet.extSeqNum (packet.createPrimaryPacket now)
      let s ← s.insertCodes platform packet.redundant
      let s ← s.prune platform
      return (s, true)
  | .other packet =>
    if packet.codec = codecULPFEC.toUInt32 then do
      let fec ← FECData.new platform packet.payload
      return (s.insertCode fec, false)
    else if (get? packet.extSeqNum s.medias).isSome then
      some (s, false)
    else do
      let s := s.insertMedia packet.extSeqNum packet.clone
      let s ← s.prune platform
      return (s, true)

/-- The bits `Recover` puts for media packets, behind the one with the number `lastSeq`: a zero for
each number in between, counted from the next one as a `DWORD`, and a one. Reference:
`fecdecoder.cpp:146`. -/
def presenceFrom : Nat → List (Nat × RTPTimedPacket) → List Bool
  | _, [] => []
  | lastSeq, (cur, _) :: medias =>
    List.replicate (cur - (lastSeq + 1) % 2 ^ 32) false ++ true :: presenceFrom cur medias

/-- The presence mask of `Recover`, which a writer over eight bytes takes. Reference:
`fecdecoder.cpp:118`. -/
def presenceMask (s : FECDecoder) : List Bool :=
  match s.medias with
  | [] => []
  | (minSeq, _) :: _ => presenceFrom minSeq s.medias

end FECDecoder

/-! ## The window -/

namespace FECInput

variable (platform : FECPlatform)

/-- The number and the media packet that an input brings, as the decoder would keep it. -/
def media : FECInput → Option (Nat × RTPTimedPacket)
  | .red packet now =>
    if packet.primaryCodec = codecULPFEC then none
    else some (packet.extSeqNum, packet.createPrimaryPacket now)
  | .other packet =>
    if packet.codec = codecULPFEC.toUInt32 then none
    else some (packet.extSeqNum, packet.clone)

/-- The redundant blocks that are FEC packets. -/
def redundantFecs : FECInput → List FECData
  | .red packet _ => packet.redundant.filterMap fun block =>
    if block.1 = codecULPFEC then FECData.new platform block.2 else none
  | .other _ => []

/-- The FEC packet an input is, when it brings no media. -/
def primaryFec : FECInput → Option FECData
  | .red packet _ =>
    if packet.primaryCodec = codecULPFEC then FECData.new platform packet.primaryPayload else none
  | .other packet =>
    if packet.codec = codecULPFEC.toUInt32 then FECData.new platform packet.payload else none

/-- The FEC packets an input brings. -/
def fecs (a : FECInput) : List FECData :=
  (a.primaryFec platform).toList ++ a.redundantFecs platform

end FECInput

/-- The media packets received, with their numbers, in the order of arrival. -/
def receivedMedia (inputs : List FECInput) : List (Nat × RTPTimedPacket) :=
  inputs.filterMap FECInput.media

/-- The FEC packets received. -/
def receivedFecs (platform : FECPlatform) (inputs : List FECInput) : List FECData :=
  inputs.flatMap (·.fecs platform)

/-- A number is not more than 63 below that of a media packet received. -/
def Recent (inputs : List FECInput) (n : Nat) : Prop :=
  ∀ e ∈ receivedMedia inputs, e.1 ≤ n + 63

instance (inputs : List FECInput) (n : Nat) : Decidable (Recent inputs n) :=
  inferInstanceAs (Decidable (∀ e ∈ receivedMedia inputs, e.1 ≤ n + 63))

/-- The decoder holds the media packets received with recent numbers, the first of each number, and
the FEC packets received that protect from a recent number on, and the presence mask has at most 64
bits. -/
structure FECDecoder.Windowed (platform : FECPlatform) (inputs : List FECInput) (s : FECDecoder) :
    Prop where
  sorted : Sorted s.medias
  medias : ∀ k, get? k s.medias = if Recent inputs k then get? k (receivedMedia inputs) else none
  codes : (s.codes.map Prod.snd).Perm
    ((receivedFecs platform inputs).filter fun f => Recent inputs f.getBaseExtSeq)
  mask : s.presenceMask.length ≤ 64

/-- When the decoder drops exactly what is not recent, after these inputs: the highest number is not
below 63, reading behind the last code is survived or a code stays, and the number `2 ^ 32 - 1` is
not the only one that stays. -/
structure Prunable (platform : FECPlatform) (inputs : List FECInput) : Prop where
  high : ∃ e ∈ receivedMedia inputs, 63 ≤ e.1
  code : platform.survivesEnd = true ∨
    ∃ f ∈ receivedFecs platform inputs, Recent inputs f.getBaseExtSeq
  low : ∃ e ∈ receivedMedia inputs, Recent inputs e.1 ∧ e.1 ≠ 2 ^ 32 - 1

/-- When the decoder holds the window after the next input. A packet that is FEC protects from a
recent number on, and redundant FEC blocks behind it, which are not read, do not. A media packet is
a duplicate of a recent one, or the old ones can be dropped. -/
def InputFits (platform : FECPlatform) (inputs : List FECInput) (a : FECInput) : Prop :=
  match a with
  | .red packet _ =>
    if packet.primaryCodec = codecULPFEC then
      (∃ f, FECData.new platform packet.primaryPayload = some f ∧
        Recent inputs f.getBaseExtSeq) ∧
        ∀ f ∈ a.redundantFecs platform, ¬Recent inputs f.getBaseExtSeq
    else
      (∀ block ∈ packet.redundant, block.1 = codecULPFEC →
        (FECData.new platform block.2).isSome) ∧ Prunable platform (inputs ++ [a])
  | .other packet =>
    if packet.codec = codecULPFEC.toUInt32 then
      ∃ f, FECData.new platform packet.payload = some f ∧ Recent inputs f.getBaseExtSeq
    else
      (Recent inputs packet.extSeqNum ∧ (get? packet.extSeqNum (receivedMedia inputs)).isSome) ∨
        Prunable platform (inputs ++ [a])

section Window

variable {platform : FECPlatform} {inputs : List FECInput} {a : FECInput} {s : FECDecoder}
  {limit n : Nat}

theorem receivedMedia_concat (inputs : List FECInput) (a : FECInput) :
    receivedMedia (inputs ++ [a]) = receivedMedia inputs ++ a.media.toList := by
  rw [receivedMedia, List.filterMap_append, receivedMedia]
  cases h : a.media <;> simp [h]

theorem receivedFecs_concat (platform : FECPlatform) (inputs : List FECInput) (a : FECInput) :
    receivedFecs platform (inputs ++ [a]) = receivedFecs platform inputs ++ a.fecs platform := by
  simp [receivedFecs]

theorem recent_concat : Recent (inputs ++ [a]) n ↔
    Recent inputs n ∧ ∀ e ∈ a.media, e.1 ≤ n + 63 := by
  rw [Recent, receivedMedia_concat, List.forall_mem_append]
  simp only [Option.mem_toList]
  rfl

theorem lt_of_mem_receivedMedia {e : Nat × RTPTimedPacket} (h : e ∈ receivedMedia inputs) :
    e.1 < 2 ^ 32 := by
  obtain ⟨a, -, ha⟩ := List.mem_filterMap.1 h
  cases a with
  | red packet now =>
    simp only [FECInput.media, Option.ite_none_left_eq_some, Option.some.injEq] at ha
    obtain ⟨-, rfl⟩ := ha
    exact packet.extSeqNum_lt
  | other packet =>
    simp only [FECInput.media, Option.ite_none_left_eq_some, Option.some.injEq] at ha
    obtain ⟨-, rfl⟩ := ha
    exact packet.extSeqNum_lt

theorem exists_highest {entries : List (Nat × RTPTimedPacket)} (h : entries ≠ []) :
    ∃ e ∈ entries, ∀ e' ∈ entries, e'.1 ≤ e.1 := by
  induction entries with
  | nil => exact absurd rfl h
  | cons e entries ih =>
    by_cases hnil : entries = []
    · subst hnil
      exact ⟨e, by simp⟩
    · obtain ⟨top, htop, hall⟩ := ih hnil
      rcases Nat.le_total top.1 e.1 with hle | hle
      · refine ⟨e, by simp, fun e' he' => ?_⟩
        rcases List.mem_cons.1 he' with rfl | he'
        · exact Nat.le_refl _
        · exact (hall e' he').trans hle
      · refine ⟨top, by simp [htop], fun e' he' => ?_⟩
        rcases List.mem_cons.1 he' with rfl | he'
        · exact hle
        · exact hall e' he'

end Window

/-! ## The steps -/

namespace FECDecoder

variable {platform : FECPlatform} {inputs : List FECInput} {a : FECInput} {s : FECDecoder}
  {limit : Nat}

theorem deleteUntil_eq {β : Type} {m : List (Nat × β)} (h : Ordered m) :
    deleteUntil platform limit m =
      if platform.survivesEnd = true ∨ ∃ e ∈ m, limit ≤ e.1 then
        some (m.filter fun e => decide (limit ≤ e.1))
      else none := by
  rw [← h.dropWhile_eq_filter]
  induction m with
  | nil => simp [deleteUntil]
  | cons e m ih =>
    have hm := (List.pairwise_cons.1 h).2
    rw [deleteUntil]
    rcases Nat.lt_or_ge e.1 limit with hlt | hge
    · rw [if_pos hlt, ih hm, List.dropWhile_cons_of_pos (by simpa using hlt)]
      congr 1
      simp [Nat.not_le.2 hlt]
    · rw [if_neg (Nat.not_lt.2 hge), if_pos (.inr ⟨e, by simp, hge⟩),
        List.dropWhile_cons_of_neg (by simpa using hge)]

/-- The codes stand in order, each under the number it protects from. -/
structure Keyed (s : FECDecoder) : Prop where
  ordered : Ordered s.codes
  keys : ∀ e ∈ s.codes, e.1 = e.2.getBaseExtSeq

theorem Keyed.insertCode (h : s.Keyed) (f : FECData) :
    (s.insertCode f).Keyed ∧ ((s.insertCode f).codes.map Prod.snd).Perm
      (s.codes.map Prod.snd ++ [f]) := by
  have hperm := insert_perm f.getBaseExtSeq f s.codes
  refine ⟨⟨h.ordered.insert _ _, fun e he => ?_⟩, ?_⟩
  · rcases List.mem_cons.1 (hperm.mem_iff.1 he) with rfl | he
    · rfl
    · exact h.keys e he
  · exact (hperm.map Prod.snd).trans (List.perm_append_singleton _ _).symm

theorem Keyed.insertCodes (h : s.Keyed) (blocks : List (UInt8 × List UInt8)) :
    (∀ block ∈ blocks, block.1 = codecULPFEC → (FECData.new platform block.2).isSome) ∧
      (∃ s', s.insertCodes platform blocks = some s' ∧ s'.Keyed ∧ s'.medias = s.medias ∧
        (s'.codes.map Prod.snd).Perm (s.codes.map Prod.snd ++ blocks.filterMap fun block =>
          if block.1 = codecULPFEC then FECData.new platform block.2 else none)) ∨
    (¬∀ block ∈ blocks, block.1 = codecULPFEC → (FECData.new platform block.2).isSome) ∧
      s.insertCodes platform blocks = none := by
  induction blocks generalizing s with
  | nil => exact .inl ⟨by simp, s, rfl, h, rfl, by simp⟩
  | cons block blocks ih =>
    have hcons : s.insertCodes platform (block :: blocks) =
        (if block.1 = codecULPFEC then (FECData.new platform block.2).map s.insertCode
          else some s).bind fun s => s.insertCodes platform blocks := by
      rw [FECDecoder.insertCodes, List.foldlM_cons]
      rfl
    rw [hcons, List.forall_mem_cons, List.filterMap_cons]
    by_cases hfec : block.1 = codecULPFEC
    · simp only [if_pos hfec]
      cases hnew : FECData.new platform block.2 with
      | none => exact .inr ⟨fun hall => absurd (hall.1 hfec) (by simp), rfl⟩
      | some f =>
        obtain ⟨hkeyed, hperm⟩ := h.insertCode f
        rcases ih hkeyed with ⟨hall, s', hs', hkeyed', hmedias, hperm'⟩ | ⟨hall, hnone⟩
        · refine .inl ⟨⟨fun _ => rfl, hall⟩, s', hs', hkeyed', hmedias, ?_⟩
          refine hperm'.trans ?_
          refine (hperm.append_right _).trans ?_
          simp
        · exact .inr ⟨fun hall' => hall hall'.2, hnone⟩
    · simp only [if_neg hfec]
      rcases ih h with ⟨hall, s', hs', hkeyed', hmedias, hperm'⟩ | ⟨hall, hnone⟩
      · exact .inl ⟨⟨fun heq => absurd heq hfec, hall⟩, s', hs', hkeyed', hmedias, hperm'⟩
      · exact .inr ⟨fun hall' => hall hall'.2, hnone⟩

/-- What the decoder keeps between two packets. -/
structure Kept (platform : FECPlatform) (inputs : List FECInput) (s : FECDecoder) : Prop extends
    Windowed platform inputs s, Keyed s

variable {m : List (Nat × RTPTimedPacket)} {k : Nat}

theorem mem_of_isSome_get? (h : (get? k m).isSome) : ∃ e ∈ m, e.1 = k := by
  obtain ⟨p, hp⟩ := Option.isSome_iff_exists.1 h
  exact ⟨(k, p), mem_of_get? hp, rfl⟩

theorem isSome_get?_of_mem {e : Nat × RTPTimedPacket} (h : e ∈ m) : (get? e.1 m).isSome :=
  isSome_get?.2 (List.mem_map_of_mem h)

theorem get?_append (k : Nat) (m m' : List (Nat × RTPTimedPacket)) :
    get? k (m ++ m') = (get? k m).or (get? k m') := by
  induction m with
  | nil => rfl
  | cons e m ih =>
    rw [List.cons_append, get?_cons, get?_cons, ih]
    split <;> rfl

/-- The decoder before it drops what is old: the recent media packets are there, with the new one,
and the new codes. -/
structure Filled (platform : FECPlatform) (inputs : List FECInput) (a : FECInput)
    (s : FECDecoder) : Prop extends Keyed s where
  sorted : Sorted s.medias
  medias : ∀ n, Recent inputs n → get? n s.medias = get? n (receivedMedia (inputs ++ [a]))
  received : ∀ e ∈ s.medias, ∃ e' ∈ receivedMedia (inputs ++ [a]), e'.1 = e.1
  codes : (s.codes.map Prod.snd).Perm
    ((receivedFecs platform inputs).filter (fun f => Recent inputs f.getBaseExtSeq) ++
      a.redundantFecs platform)

variable {p : RTPTimedPacket}

theorem Kept.insertMedia (h : s.Kept platform inputs)
    (hmedia : a.media = some (k, p)) : Sorted (s.insertMedia k p).medias ∧
      (∀ n, Recent inputs n →
        get? n (s.insertMedia k p).medias = get? n (receivedMedia (inputs ++ [a]))) ∧
      (∀ e ∈ (s.insertMedia k p).medias, ∃ e' ∈ receivedMedia (inputs ++ [a]), e'.1 = e.1) ∧
      (s.insertMedia k p).codes = s.codes := by
  have hconcat : receivedMedia (inputs ++ [a]) = receivedMedia inputs ++ [(k, p)] := by
    rw [receivedMedia_concat, hmedia, Option.toList_some]
  have hreceived (n : Nat) : get? n (receivedMedia (inputs ++ [a])) =
      (get? n (receivedMedia inputs)).or (if n = k then some p else none) := by
    rw [hconcat, get?_append]
    rfl
  have hold : ∀ e ∈ s.medias, ∃ e' ∈ receivedMedia (inputs ++ [a]), e'.1 = e.1 := by
    intro e he
    have hsome := isSome_get?_of_mem he
    rw [h.medias e.1] at hsome
    split at hsome
    · obtain ⟨e', he', heq⟩ := mem_of_isSome_get? hsome
      exact ⟨e', hconcat ▸ List.mem_append_left _ he', heq⟩
    · cases hsome
  unfold FECDecoder.insertMedia
  split
  case isTrue hdup =>
    refine ⟨h.sorted, fun n hn => ?_, hold, rfl⟩
    rw [h.medias n, if_pos hn, hreceived]
    by_cases hnk : n = k
    · subst hnk
      rw [h.medias n, if_pos hn] at hdup
      rw [Option.or_of_isSome hdup]
    · simp [hnk]
  case isFalse hnew =>
    refine ⟨h.sorted.set k p, fun n hn => ?_, fun e he => ?_, rfl⟩
    · rw [get?_set, h.medias n, if_pos hn, hreceived]
      by_cases hnk : n = k
      · subst hnk
        rw [h.medias n, if_pos hn] at hnew
        rw [Option.not_isSome_iff_eq_none.1 hnew]
        simp
      · simp [hnk]
    · rcases mem_set he with rfl | he
      · exact ⟨(k, p), by simp [hconcat], rfl⟩
      · exact hold e he

theorem getLast?_of_sorted (h : Sorted m)
    {e : Nat × RTPTimedPacket} (he : e ∈ m) (htop : ∀ e' ∈ m, e'.1 ≤ e.1) :
    m.getLast? = some e := by
  induction m using List.reverseRecOn with
  | nil => cases he
  | append_singleton m last _ =>
    rw [List.getLast?_concat]
    rcases List.mem_append.1 he with he | he
    · have hlt := (List.pairwise_append.1 h).2.2 e he last (by simp)
      have hle := htop last (by simp)
      omega
    · rw [List.mem_singleton.1 he]

theorem Filled.exists_top (h : s.Filled platform inputs a) (hmedia : a.media = some (k, p)) :
    ∃ top packet, (top, packet) ∈ s.medias ∧ (∀ e ∈ s.medias, e.1 ≤ top) ∧ top < 2 ^ 32 ∧
      (∀ e ∈ receivedMedia (inputs ++ [a]), e.1 ≤ top) ∧
      (∃ e ∈ receivedMedia (inputs ++ [a]), e.1 = top) ∧
      (∀ n, Recent (inputs ++ [a]) n ↔ top ≤ n + 63) ∧ Recent inputs top := by
  have hne : receivedMedia (inputs ++ [a]) ≠ [] := by
    rw [receivedMedia_concat, hmedia]
    simp
  obtain ⟨e, he, hall⟩ := exists_highest hne
  have hrecent : Recent inputs e.1 := by
    intro e' he'
    have hmem : e' ∈ receivedMedia (inputs ++ [a]) := by
      rw [receivedMedia_concat]
      exact List.mem_append_left _ he'
    exact (hall e' hmem).trans (Nat.le_add_right _ _)
  have hsome := isSome_get?_of_mem he
  rw [← h.medias e.1 hrecent] at hsome
  obtain ⟨⟨top, packet⟩, hmem, heq⟩ := mem_of_isSome_get? hsome
  change top = e.1 at heq
  subst heq
  refine ⟨e.1, packet, hmem, fun e' he' => ?_, lt_of_mem_receivedMedia he, hall, ⟨e, he, rfl⟩,
    fun n => ?_, hrecent⟩
  · obtain ⟨e'', he'', heq⟩ := h.received e' he'
    rw [← heq]
    exact hall e'' he''
  · constructor
    · intro hn
      exact hn e he
    · intro hn e' he'
      exact (hall e' he').trans hn

/-! ## The mask -/

theorem length_presenceFrom_le {lastSeq top : Nat}
    (hsorted : Sorted m) (hlast : ∀ e ∈ m, lastSeq < e.1) (htop : ∀ e ∈ m, e.1 ≤ top)
    (hlt : top < 2 ^ 32) : (presenceFrom lastSeq m).length ≤ top - lastSeq := by
  induction m generalizing lastSeq with
  | nil => exact Nat.zero_le _
  | cons e m ih =>
    obtain ⟨cur, packet⟩ := e
    have hcons := List.pairwise_cons.1 hsorted
    have hrest := ih hcons.2 hcons.1 fun e he => htop e (List.mem_cons_of_mem _ he)
    have hcur := hlast (cur, packet) (by simp)
    have hle := htop (cur, packet) (by simp)
    dsimp only at hrest hcur hle
    have hmod : (lastSeq + 1) % 2 ^ 32 = lastSeq + 1 := Nat.mod_eq_of_lt (by omega)
    rw [presenceFrom, List.length_append, List.length_replicate, List.length_cons, hmod]
    omega

theorem length_presenceMask_le_iff (hsorted : Sorted s.medias) {top : Nat}
    (htop : ∀ e ∈ s.medias, e.1 ≤ top ∧ top ≤ e.1 + 63) (hlt : top < 2 ^ 32) :
    s.presenceMask.length ≤ 64 ↔ s.medias = [] ∨ ∃ e ∈ s.medias, e.1 ≠ 2 ^ 32 - 1 := by
  obtain ⟨medias, codes⟩ := s
  rw [presenceMask]
  cases medias with
  | nil => simp
  | cons e m =>
    obtain ⟨minSeq, packet⟩ := e
    have hcons := List.pairwise_cons.1 hsorted
    obtain ⟨hle, hge⟩ := htop (minSeq, packet) (by simp)
    dsimp only at hle hge
    simp only [presenceFrom, List.length_append, List.length_replicate, List.length_cons]
    constructor
    · intro hmask
      refine .inr ⟨(minSeq, packet), by simp, fun hmax => ?_⟩
      dsimp only at hmax
      omega
    · rintro (hnil | ⟨e, he, hne⟩)
      · cases hnil
      · have hmin : minSeq < 2 ^ 32 - 1 := by
          have hle' := (htop e he).1
          rcases List.mem_cons.1 he with rfl | he
          · dsimp only at hne hle'
            omega
          · have := hcons.1 e he
            dsimp only at this
            omega
        have hmod : (minSeq + 1) % 2 ^ 32 = minSeq + 1 := Nat.mod_eq_of_lt (by omega)
        have hrest := length_presenceFrom_le hcons.2 hcons.1
          (fun e he => (htop e (List.mem_cons_of_mem _ he)).1) hlt
        dsimp only at hrest
        rw [hmod]
        omega

/-! ## Dropping -/

theorem fecs_of_media (hmedia : a.media = some (k, p)) : a.fecs platform = a.redundantFecs platform := by
  have hprimary : a.primaryFec platform = none := by
    cases a with
    | red packet now =>
      simp only [FECInput.media, Option.ite_none_left_eq_some] at hmedia
      exact if_neg hmedia.1
    | other packet =>
      simp only [FECInput.media, Option.ite_none_left_eq_some] at hmedia
      exact if_neg hmedia.1
  rw [FECInput.fecs, hprimary, Option.toList_none, List.nil_append]

theorem Filled.codes_recent (h : s.Filled platform inputs a) (hmedia : a.media = some (k, p)) :
    ((s.codes.map Prod.snd).filter fun f => Recent (inputs ++ [a]) f.getBaseExtSeq).Perm
      ((receivedFecs platform (inputs ++ [a])).filter
        fun f => Recent (inputs ++ [a]) f.getBaseExtSeq) := by
  refine (h.codes.filter _).trans ?_
  rw [receivedFecs_concat, fecs_of_media hmedia, List.filter_append, List.filter_append,
    List.filter_filter]
  refine List.Perm.append_right _ (.of_eq (List.filter_congr fun f _ => ?_))
  rw [Bool.eq_iff_iff]
  simp only [Bool.and_eq_true, decide_eq_true_eq, and_iff_left_iff_imp]
  exact fun hrecent => (recent_concat.1 hrecent).1

/-- **Drop.** -/
theorem Filled.prune_iff (h : s.Filled platform inputs a) (hmedia : a.media = some (k, p)) :
    (Prunable platform (inputs ++ [a]) →
      ∃ s', s.prune platform = some s' ∧ s'.Kept platform (inputs ++ [a])) ∧
    (∀ s', s.prune platform = some s' → s'.Windowed platform (inputs ++ [a]) →
      Prunable platform (inputs ++ [a])) := by
  obtain ⟨top, packet, hmem, hmax, hlt, hreceived, ⟨e, he, hetop⟩, hrecent, hold⟩ :=
    h.exists_top hmedia
  have hlast : s.medias.getLast? = some (top, packet) :=
    getLast?_of_sorted h.sorted hmem hmax
  obtain ⟨limit, hlimit⟩ : ∃ limit, (top + (2 ^ 32 - 63)) % 2 ^ 32 = limit := ⟨_, rfl⟩
  have hprune : s.prune platform = (deleteUntil platform limit s.medias).bind fun medias =>
      (deleteUntil platform limit s.codes).bind fun codes => some ⟨medias, codes⟩ := by
    rw [prune, hlast]
    simp only [hlimit]
    rfl
  rw [deleteUntil_eq h.sorted.ordered, deleteUntil_eq h.ordered] at hprune
  rcases Nat.lt_or_ge top 63 with hlow | hhigh
  · -- The limit is above all numbers, so that nothing stays.
    have hnone : s.medias.filter (fun e => decide (limit ≤ e.1)) = [] := by
      refine List.filter_eq_nil_iff.2 fun e he => ?_
      have := hmax e he
      simp only [decide_eq_true_eq]
      omega
    refine ⟨fun hprunable => ?_, fun s' hs' hwindow => ?_⟩
    · obtain ⟨e', he', hge⟩ := hprunable.high
      have := hreceived e' he'
      omega
    · have hempty : s'.medias = [] := by
        rw [hprune] at hs'
        split at hs'
        · simp only [Option.bind_some, Option.bind_eq_some_iff, Option.some.injEq] at hs'
          obtain ⟨codes, -, rfl⟩ := hs'
          exact hnone
        · cases hs'
      have hget := hwindow.medias top
      have hsome := isSome_get?_of_mem he
      rw [hempty, if_pos ((hrecent top).2 (Nat.le_add_right _ _))] at hget
      rw [hetop, ← hget] at hsome
      cases hsome
  · have hkeep (n : Nat) : limit ≤ n ↔ Recent (inputs ++ [a]) n := by
      rw [hrecent]
      omega
    have hcodesMap : (s.codes.filter fun e => decide (limit ≤ e.1)).map Prod.snd =
        (s.codes.map Prod.snd).filter fun f => Recent (inputs ++ [a]) f.getBaseExtSeq := by
      rw [List.filter_map]
      refine congrArg _ (List.filter_congr fun e he => ?_)
      rw [Function.comp_apply, decide_eq_decide, hkeep, h.keys e he]
    have hcodes := h.codes_recent hmedia
    rw [← hcodesMap] at hcodes
    have hstays : (∃ e ∈ s.codes, limit ≤ e.1) ↔ ∃ f ∈ receivedFecs platform (inputs ++ [a]),
        Recent (inputs ++ [a]) f.getBaseExtSeq := by
      constructor
      · rintro ⟨e, he, hle⟩
        have hmem := hcodes.mem_iff.1 (List.mem_map_of_mem (List.mem_filter.2
          ⟨he, by simpa using hle⟩))
        exact ⟨e.2, (List.mem_filter.1 hmem).1, by simpa using (List.mem_filter.1 hmem).2⟩
      · rintro ⟨f, hf, hle⟩
        obtain ⟨e, he, -⟩ := List.mem_map.1 (hcodes.mem_iff.2 (List.mem_filter.2
          ⟨hf, by simpa using hle⟩))
        exact ⟨e, (List.mem_filter.1 he).1, by simpa using (List.mem_filter.1 he).2⟩
    have hget (n : Nat) : get? n (s.medias.filter fun e => decide (limit ≤ e.1)) =
        if Recent (inputs ++ [a]) n then get? n (receivedMedia (inputs ++ [a])) else none := by
      rw [get?_filter (fun n => decide (limit ≤ n)) n s.medias]
      simp only [decide_eq_true_eq, hkeep]
      split
      case isTrue hn => exact h.medias n (recent_concat.1 hn).1
      case isFalse => rfl
    have hkeys : (∃ e ∈ s.medias.filter fun e => decide (limit ≤ e.1), e.1 ≠ 2 ^ 32 - 1) ↔
        ∃ e ∈ receivedMedia (inputs ++ [a]), Recent (inputs ++ [a]) e.1 ∧ e.1 ≠ 2 ^ 32 - 1 := by
      constructor
      · rintro ⟨e, he, hne⟩
        obtain ⟨hmem, hle⟩ := List.mem_filter.1 he
        obtain ⟨e', he', heq⟩ := h.received e hmem
        rw [decide_eq_true_eq, hkeep] at hle
        exact ⟨e', he', heq ▸ hle, heq ▸ hne⟩
      · rintro ⟨e, he, hrec, hne⟩
        have hsome := isSome_get?_of_mem he
        have heq := hget e.1
        rw [if_pos hrec] at heq
        rw [← heq] at hsome
        obtain ⟨e', he', heq'⟩ := mem_of_isSome_get? hsome
        exact ⟨e', he', heq' ▸ hne⟩
    have hmask : (presenceMask ⟨s.medias.filter fun e => decide (limit ≤ e.1),
        s.codes.filter fun e => decide (limit ≤ e.1)⟩).length ≤ 64 ↔
        ∃ e ∈ receivedMedia (inputs ++ [a]), Recent (inputs ++ [a]) e.1 ∧ e.1 ≠ 2 ^ 32 - 1 := by
      have htop : (top, packet) ∈ s.medias.filter fun e => decide (limit ≤ e.1) := by
        refine List.mem_filter.2 ⟨hmem, ?_⟩
        simp only [decide_eq_true_eq]
        omega
      rw [@length_presenceMask_le_iff _ (h.sorted.filter _) top (fun e he => ?_) hlt, hkeys,
        or_iff_right (List.ne_nil_of_mem htop)]
      obtain ⟨hmem', hle⟩ := List.mem_filter.1 he
      rw [decide_eq_true_eq] at hle
      exact ⟨hmax e hmem', by omega⟩
    rw [if_pos (.inr ⟨(top, packet), hmem, by dsimp only; omega⟩), Option.bind_some] at hprune
    constructor
    · intro hprunable
      rw [if_pos (hprunable.code.imp_right hstays.2)] at hprune
      refine ⟨_, hprune, ⟨h.sorted.filter _, hget, hcodes, hmask.2 hprunable.low⟩,
        ⟨h.ordered.filter _, fun e he => h.keys e (List.mem_filter.1 he).1⟩⟩
    · intro s' hs' hwindow
      rw [hprune] at hs'
      split at hs'
      case isTrue hcode =>
        cases hs'
        exact ⟨⟨e, he, hetop ▸ hhigh⟩, hcode.imp_right hstays.1, hmask.1 hwindow.mask⟩
      case isFalse => cases hs'

/-! ## Adding -/

theorem receivedMedia_of_none (hmedia : a.media = none) :
    receivedMedia (inputs ++ [a]) = receivedMedia inputs := by
  rw [receivedMedia_concat, hmedia, Option.toList_none, List.append_nil]

theorem Kept.insertFec (h : s.Kept platform inputs) {f : FECData} (hmedia : a.media = none)
    (hfec : a.primaryFec platform = some f) : (s.insertCode f).Keyed ∧
    ((s.insertCode f).Windowed platform (inputs ++ [a]) ↔
      Recent inputs f.getBaseExtSeq ∧
        ∀ f' ∈ a.redundantFecs platform, ¬Recent inputs f'.getBaseExtSeq) := by
  obtain ⟨hkeyed, hperm⟩ := h.toKeyed.insertCode f
  have hreceived := @receivedMedia_of_none inputs a hmedia
  have hrecent (n : Nat) : Recent (inputs ++ [a]) n ↔ Recent inputs n := by
    rw [Recent, hreceived, Recent]
  have hfilter (l : List FECData) :
      l.filter (fun f => Recent (inputs ++ [a]) f.getBaseExtSeq) =
        l.filter fun f => Recent inputs f.getBaseExtSeq :=
    List.filter_congr fun f _ => decide_eq_decide.2 (hrecent _)
  have hfecs : receivedFecs platform (inputs ++ [a]) =
      receivedFecs platform inputs ++ f :: a.redundantFecs platform := by
    rw [receivedFecs_concat, FECInput.fecs, hfec]
    rfl
  refine ⟨hkeyed, fun hwindow => ?_, fun hall => ?_⟩
  · have hcodes := hperm.symm.trans hwindow.codes
    rw [hfilter, hfecs, List.filter_append] at hcodes
    have hnew := (List.perm_append_left_iff _).1
      ((h.codes.append_right [f]).symm.trans hcodes)
    by_cases hf : Recent inputs f.getBaseExtSeq
    · rw [List.filter_cons_of_pos (by simpa using hf)] at hnew
      have hnil := List.perm_nil.1 ((List.perm_cons f).1 hnew).symm
      refine ⟨hf, fun f' hf' hrec => ?_⟩
      have hmem : f' ∈ (a.redundantFecs platform).filter
          (fun f => Recent inputs f.getBaseExtSeq) := List.mem_filter.2 ⟨hf', by simpa using hrec⟩
      rw [hnil] at hmem
      cases hmem
    · rw [List.filter_cons_of_neg (by simpa using hf)] at hnew
      have hmem := hnew.mem_iff.1 (List.mem_singleton_self f)
      exact absurd (by simpa using (List.mem_filter.1 hmem).2) hf
  · refine ⟨h.sorted, fun k => ?_, ?_, h.mask⟩
    · rw [hreceived]
      simp only [hrecent]
      exact h.medias k
    · have hnone : (a.redundantFecs platform).filter
          (fun f => Recent inputs f.getBaseExtSeq) = [] :=
        List.filter_eq_nil_iff.2 fun f' hf' => by simpa using hall.2 f' hf'
      rw [hfilter, hfecs, List.filter_append,
        List.filter_cons_of_pos (by simpa using hall.1), hnone]
      exact hperm.trans (h.codes.append_right [f])

theorem Kept.of_duplicate (h : s.Kept platform inputs)
    (hmedia : a.media = some (k, p)) (hfecs : a.redundantFecs platform = [])
    (hrec : Recent inputs k) (hdup : (get? k (receivedMedia inputs)).isSome) :
    s.Kept platform (inputs ++ [a]) := by
  obtain ⟨e, he, hek⟩ := mem_of_isSome_get? hdup
  have hrecent (n : Nat) : Recent (inputs ++ [a]) n ↔ Recent inputs n := by
    rw [recent_concat, and_iff_left_iff_imp]
    intro hn e' he'
    rw [hmedia] at he'
    cases he'
    exact hek ▸ hn e he
  have hreceived : receivedMedia (inputs ++ [a]) = receivedMedia inputs ++ [(k, p)] := by
    rw [receivedMedia_concat, hmedia, Option.toList_some]
  refine ⟨⟨h.sorted, fun n => ?_, ?_, h.mask⟩, h.toKeyed⟩
  · simp only [hrecent, hreceived, get?_append]
    rw [h.medias n]
    by_cases hn : n = k
    · subst hn
      rw [Option.or_of_isSome hdup]
    · simp [hn]
  · have hfilter : (receivedFecs platform (inputs ++ [a])).filter
        (fun f => Recent (inputs ++ [a]) f.getBaseExtSeq) =
        (receivedFecs platform inputs).filter fun f => Recent inputs f.getBaseExtSeq := by
      rw [receivedFecs_concat, fecs_of_media hmedia, hfecs, List.append_nil]
      exact List.filter_congr fun f _ => decide_eq_decide.2 (hrecent _)
    rw [hfilter]
    exact h.codes

/-- **Add.** -/
theorem Kept.addPacket_iff (h : s.Kept platform inputs) (a : FECInput) :
    (InputFits platform inputs a →
      ∃ r, s.addPacket platform a = some r ∧ r.1.Kept platform (inputs ++ [a])) ∧
    (∀ r, s.addPacket platform a = some r → r.1.Windowed platform (inputs ++ [a]) →
      InputFits platform inputs a) := by
  cases a with
  | red packet now =>
    by_cases hfec : packet.primaryCodec = codecULPFEC
    · have hmedia : (FECInput.red packet now).media = none := if_pos hfec
      have hprimary : (FECInput.red packet now).primaryFec platform =
          FECData.new platform packet.primaryPayload := if_pos hfec
      simp only [InputFits, if_pos hfec, addPacket]
      cases hnew : FECData.new platform packet.primaryPayload with
      | none => exact ⟨fun ⟨⟨f, hf, _⟩, _⟩ => (nomatch hf), fun r hr => (nomatch hr)⟩
      | some f =>
        obtain ⟨hkeyed, hwindow⟩ := h.insertFec hmedia (hprimary.trans hnew)
        refine ⟨?_, ?_⟩
        · rintro ⟨⟨f', hf', hrec⟩, hnone⟩
          cases hf'
          exact ⟨_, rfl, hwindow.2 ⟨hrec, hnone⟩, hkeyed⟩
        · rintro r hr hwin
          cases hr
          exact ⟨⟨f, rfl, (hwindow.1 hwin).1⟩, (hwindow.1 hwin).2⟩
    · have hmedia : (FECInput.red packet now).media =
          some (packet.extSeqNum, packet.createPrimaryPacket now) := if_neg hfec
      obtain ⟨hsorted, hmedias, hreceived, hcodes⟩ := h.insertMedia hmedia
      have hkeyed : (s.insertMedia packet.extSeqNum (packet.createPrimaryPacket now)).Keyed :=
        ⟨hcodes ▸ h.ordered, hcodes ▸ h.keys⟩
      simp only [InputFits, if_neg hfec, addPacket]
      rcases @Keyed.insertCodes platform _ hkeyed packet.redundant with
        ⟨hall, s', hs', hkeyed', hmedias', hperm⟩ | ⟨hall, hnone⟩
      · have hfilled : s'.Filled platform inputs (.red packet now) := by
          refine ⟨hkeyed', hmedias' ▸ hsorted, hmedias' ▸ hmedias, hmedias' ▸ hreceived, ?_⟩
          rw [hcodes] at hperm
          exact hperm.trans (h.codes.append_right _)
        obtain ⟨hgood, hbad⟩ := hfilled.prune_iff hmedia
        rw [hs']
        refine ⟨?_, ?_⟩
        · rintro ⟨-, hprunable⟩
          obtain ⟨u, hu, hkept⟩ := hgood hprunable
          refine ⟨(u, true), ?_, hkept⟩
          simp [hu]
        · intro r hr hwin
          simp only [Option.bind_eq_bind, Option.bind_some, Option.bind_eq_some_iff, pure,
            Option.some.injEq] at hr
          obtain ⟨u, hu, rfl⟩ := hr
          exact ⟨hall, hbad u hu hwin⟩
      · rw [hnone]
        exact ⟨fun hfits => absurd hfits.1 hall, fun r hr => (nomatch hr)⟩
  | other packet =>
    by_cases hfec : packet.codec = codecULPFEC.toUInt32
    · have hmedia : (FECInput.other packet).media = none := if_pos hfec
      have hprimary : (FECInput.other packet).primaryFec platform =
          FECData.new platform packet.payload := if_pos hfec
      simp only [InputFits, if_pos hfec, addPacket]
      cases hnew : FECData.new platform packet.payload with
      | none => exact ⟨fun ⟨f, hf, _⟩ => (nomatch hf), fun r hr => (nomatch hr)⟩
      | some f =>
        obtain ⟨hkeyed, hwindow⟩ := h.insertFec hmedia (hprimary.trans hnew)
        refine ⟨?_, ?_⟩
        · rintro ⟨f', hf', hrec⟩
          cases hf'
          exact ⟨_, rfl, hwindow.2 ⟨hrec, fun f' hf' => (nomatch hf')⟩, hkeyed⟩
        · rintro r hr hwin
          cases hr
          exact ⟨f, rfl, (hwindow.1 hwin).1⟩
    · have hmedia : (FECInput.other packet).media = some (packet.extSeqNum, packet.clone) :=
        if_neg hfec
      have hstored := h.medias packet.extSeqNum
      simp only [InputFits, if_neg hfec, addPacket]
      by_cases hdup : Recent inputs packet.extSeqNum ∧
          (get? packet.extSeqNum (receivedMedia inputs)).isSome
      · rw [if_pos hdup.1] at hstored
        rw [hstored, if_pos hdup.2]
        refine ⟨fun _ => ⟨_, rfl, h.of_duplicate hmedia rfl hdup.1 hdup.2⟩, ?_⟩
        exact fun r _ _ => .inl hdup
      · have hnew : ¬(get? packet.extSeqNum s.medias).isSome := by
          rw [hstored]
          split
          case isTrue hrec => exact fun hsome => hdup ⟨hrec, hsome⟩
          case isFalse => simp
        obtain ⟨hsorted, hmedias, hreceived, hcodes⟩ := h.insertMedia hmedia
        have hfilled : (s.insertMedia packet.extSeqNum packet.clone).Filled platform inputs
            (.other packet) := by
          refine ⟨⟨hcodes ▸ h.ordered, hcodes ▸ h.keys⟩, hsorted, hmedias, hreceived, ?_⟩
          rw [hcodes, FECInput.redundantFecs, List.append_nil]
          exact h.codes
        obtain ⟨hgood, hbad⟩ := hfilled.prune_iff hmedia
        rw [if_neg hnew, or_iff_right hdup]
        refine ⟨fun hprunable => ?_, fun r hr hwin => ?_⟩
        · obtain ⟨u, hu, hkept⟩ := hgood hprunable
          refine ⟨(u, true), ?_, hkept⟩
          simp [hu]
        · simp only [Option.bind_eq_bind, Option.bind_eq_some_iff, pure,
            Option.some.injEq] at hr
          obtain ⟨u, hu, rfl⟩ := hr
          exact hbad u hu hwin

/-- The state after packets are added. -/
def addPackets (platform : FECPlatform) (inputs : List FECInput) : Option FECDecoder :=
  inputs.foldlM (fun s a => (s.addPacket platform a).map Prod.fst) {}

/-- **The window.** -/
theorem windowed_iff (platform : FECPlatform) (inputs : List FECInput) :
    (∀ done, done <+: inputs → ∃ s, addPackets platform done = some s ∧
      s.Windowed platform done) ↔
      ∀ done a, done ++ [a] <+: inputs → InputFits platform done a := by
  have hinit : Kept platform [] {} := by
    refine ⟨⟨List.Pairwise.nil, fun k => ?_, .refl _, Nat.zero_le _⟩, List.Pairwise.nil,
      fun e he => (nomatch he)⟩
    simp [receivedMedia]
  refine forall_prefix_foldlM_iff hinit (fun _ _ hkept => hkept.toWindowed)
    (fun done s a hkept hfits => ?_) (fun done s a u hkept hu hwin => ?_) inputs
  · obtain ⟨r, hr, hkept'⟩ := (hkept.addPacket_iff a).1 hfits
    exact ⟨r.1, by rw [hr]; rfl, hkept'⟩
  · obtain ⟨r, hr, rfl⟩ := Option.map_eq_some_iff.1 hu
    exact (hkept.addPacket_iff a).2 r hr hwin

/-- The first packet of a stream that starts at number 5 is dropped at once. -/
theorem not_windowed_low :
    ¬∀ done, done <+: [FECInput.other (.numbered 5 0)] → ∃ s, addPackets ⟨true, 1644⟩ done = some s ∧
      s.Windowed ⟨true, 1644⟩ done := by
  intro h
  obtain ⟨s, hs, hwin⟩ := h _ (List.prefix_refl _)
  cases hs
  exact absurd (hwin.medias 5) (by decide)

end FECDecoder

end McuMediaServer
