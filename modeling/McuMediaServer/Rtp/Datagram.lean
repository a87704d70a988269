import McuMediaServer.Rtp.Receive

/-!
# Loading a datagram into a packet

`RTPPacket::SetData` copies a datagram into the buffer of a packet and takes the length of the media
as what is left behind the header, whose length the getters compute from the buffer: the count of
contributing sources and the length field of an extension decide it, and neither is compared with
the size of the datagram. `ProcessExtensions` walks over the elements of the extension. It stops at
an element that is longer than what is left, but reads three bytes of a time element of any length.

`walk` gives the offsets this walk reads next to the values it stores, and `loadedSafely_iff` says
for which datagrams the lengths add up and only the extension is read.
-/

namespace McuMediaServer

open ByteSeq

/-- What the extension elements say. Reference: `rtp.h:83`, class `HeaderExtension`. -/
structure HeaderExtension where
  absSentTime : Nat := 0
  timeOffset : Int := 0
  vad : Bool := false
  level : Nat := 0
  hasAbsSentTime : Bool := false
  hasTimeOffset : Bool := false
  hasAudioLevel : Bool := false
  deriving DecidableEq, Repr

namespace HeaderExtension

/-- Reference: `rtp.h:87`. -/
def SSRCAudioLevel : UInt8 := 1
def TimeOffset : UInt8 := 2
def AbsoluteSendTime : UInt8 := 3

/-- The bytes an element's value is read from, when the element is of the type `t` and its data
starts at `ext`. -/
def dataReads (t : UInt8) (ext : Nat) : List Nat :=
  if t = SSRCAudioLevel then [ext]
  else if t = TimeOffset ∨ t = AbsoluteSendTime then [ext, ext + 1, ext + 2]
  else []

/-- Store the value of an element. There is none when a byte is outside the buffer. Reference:
`rtp.cpp:42`. -/
def store (buffer : List UInt8) (t : UInt8) (ext : Nat) (e : HeaderExtension) :
    Option HeaderExtension :=
  if t = SSRCAudioLevel then
    (get1 buffer ext).map fun b =>
      { e with hasAudioLevel := true, vad := b / 2 ^ 7 = 1, level := b % 2 ^ 7 }
  else if t = TimeOffset then
    -- The sign of the 24-bit number is extended.
    (get3 buffer ext).map fun (v : Nat) =>
      { e with
        hasTimeOffset := true
        timeOffset := if v < 2 ^ 23 then v else (v : Int) - 2 ^ 24 }
  else if t = AbsoluteSendTime then
    (get3 buffer ext).map fun v =>
      { e with hasAbsSentTime := true, absSentTime := v * 1000 / 2 ^ 18 }
  else
    some e

end HeaderExtension

open HeaderExtension

/-- The offsets a walk has read, and what it has stored unless it left the buffer. -/
structure Walk where
  reads : List Nat
  extension : Option HeaderExtension
  deriving DecidableEq, Repr

/-- Reads before those of a walk. -/
def Walk.after (reads : List Nat) (w : Walk) : Walk := { w with reads := reads ++ w.reads }

/-- The walk over the elements from offset `ext` on, with `length` bytes left. Reference:
`rtp.cpp:9`, the loop of `ProcessExtensions`. -/
def walk (buffer : List UInt8) (extMap : RTPMap) (ext length : Nat) (e : HeaderExtension) : Walk :=
  if length = 0 then
    ⟨[], some e⟩
  else
    match get1 buffer ext with
    | none => ⟨[ext], none⟩
    | some header =>
      if header = 0 then
        -- Padding.
        (walk buffer extMap (ext + 1) (length - 1) e).after [ext]
      else
        let id := header / 2 ^ 4
        let n := header % 2 ^ 4 + 1
        if length - 1 < n then
          ⟨[ext], some e⟩
        else
          let t := extMap.getCodecForType (.ofNat id)
          match e.store buffer t (ext + 1) with
          | none => ⟨ext :: dataReads t (ext + 1), none⟩
          | some e =>
            (walk buffer extMap (ext + 1 + n) (length - 1 - n) e).after
              (ext :: dataReads t (ext + 1))
termination_by length

/-- The members of a packet that loading a datagram sets. Reference: `rtp.h:392`. -/
structure PacketData where
  buffer : List UInt8
  /-- The buffer has `SIZE` bytes. -/
  length_buffer : buffer.length = 1700
  /-- The length of the media, a `DWORD`. -/
  len : Nat
  extension : HeaderExtension := {}
  deriving DecidableEq, Repr

namespace PacketData

variable (p : PacketData)

/-- The number at an offset of the header, which is inside the buffer. -/
def byte (i : Nat) : Nat := (get1 p.buffer i).getD 0

/-- Reference: `rtp.h:239`. -/
def getCC : Nat := p.byte 0 % 2 ^ 4

/-- Reference: `rtp.h:237`. -/
def getX : Bool := p.byte 0 / 2 ^ 4 % 2 = 1

/-- Where the extension header is, if there is one. Reference: `rtp.h:230`. -/
def extensionHeader : Nat := 12 + 4 * p.getCC

/-- A `WORD`. Reference: `rtp.h:233`. -/
def getExtensionLength : Nat :=
  if p.getX then
    (p.byte (p.extensionHeader + 2) * 2 ^ 8 + p.byte (p.extensionHeader + 3)) * 4 % 2 ^ 16
  else 0

/-- Reference: `rtp.h:234`. -/
def getExtensionSize : Nat := if p.getX then p.getExtensionLength + 4 else 0

/-- Reference: `rtp.h:231`. -/
def getRTPHeaderLen : Nat := 12 + 4 * p.getCC + p.getExtensionSize

/-- Where the extension data is, if there is any. Reference: `rtp.h:380`. -/
def extensionData : Nat := p.extensionHeader + 4

/-- The offset of the media data. Reference: `rtp.h:244`. -/
def getMediaData : Nat := p.getRTPHeaderLen

/-- Reference: `rtp.h:245`. -/
def getMediaLength : Nat := p.len

/-- The size less the length of the header, as a `DWORD`. Reference: `rtp.h:222`. -/
def setSize (size : Nat) : PacketData :=
  { p with len := (size + (2 ^ 32 - p.getRTPHeaderLen)) % 2 ^ 32 }

/-- Reference: `rtp.h:345`. -/
def setData (data : List UInt8) : Option PacketData :=
  if h : data.length ≤ 1700 then
    let loaded : PacketData :=
      { p with
        buffer := data ++ p.buffer.drop data.length
        length_buffer := by
          rw [List.length_append, List.length_drop, p.length_buffer]
          omega }
    some (loaded.setSize data.length)
  else
    none

/-- Reference: `rtp.cpp:9`. -/
def processExtensions (extMap : RTPMap) : Walk :=
  if p.getX then
    walk p.buffer extMap p.extensionData p.getExtensionLength p.extension
  else
    ⟨[], some p.extension⟩

end PacketData

/-- Reference: `rtp.h:384`. -/
def isRTP (data : List UInt8) : Bool :=
  12 ≤ data.length && (data.getD 0 0).toNat / 2 ^ 6 = 2

/-! ## The walk -/

/-- An element, or a byte of padding, starts at this offset of an extension that starts at `start`
and ends at `fin`, or the extension ends there. -/
inductive ElementAt (data : List UInt8) (start fin : Nat) : Nat → Prop
  | first : ElementAt data start fin start
  | padding {o : Nat} : ElementAt data start fin o → o < fin → get1 data o = some 0 →
      ElementAt data start fin (o + 1)
  | element {o header : Nat} : ElementAt data start fin o → o < fin →
      get1 data o = some header → header ≠ 0 → o + 2 + header % 2 ^ 4 ≤ fin →
      ElementAt data start fin (o + 2 + header % 2 ^ 4)

/-- If a time element that ends in the extension starts at `o`, its three bytes are in the
extension. -/
def TimeFits (data : List UInt8) (extMap : RTPMap) (fin o : Nat) : Prop :=
  ∀ header, o < fin → get1 data o = some header → header ≠ 0 → o + 2 + header % 2 ^ 4 ≤ fin →
    (extMap.getCodecForType (.ofNat (header / 2 ^ 4)) = TimeOffset ∨
      extMap.getCodecForType (.ofNat (header / 2 ^ 4)) = AbsoluteSendTime) → o + 4 ≤ fin

section Walk

variable {data : List UInt8} {extMap : RTPMap} {start fin o header : Nat}

theorem ElementAt.of_padding (hlt : start < fin) (hzero : get1 data start = some 0)
    (h : ElementAt data (start + 1) fin o) : ElementAt data start fin o := by
  induction h with
  | first => exact .padding .first hlt hzero
  | padding _ ho hget ih => exact .padding ih ho hget
  | element _ ho hget hne hle ih => exact .element ih ho hget hne hle

theorem ElementAt.of_element (hlt : start < fin) (hget : get1 data start = some header)
    (hne : header ≠ 0) (hle : start + 2 + header % 2 ^ 4 ≤ fin)
    (h : ElementAt data (start + 2 + header % 2 ^ 4) fin o) : ElementAt data start fin o := by
  induction h with
  | first => exact .element .first hlt hget hne hle
  | padding _ ho hzero ih => exact .padding ih ho hzero
  | element _ ho hget' hne' hle' ih => exact .element ih ho hget' hne' hle'

theorem ElementAt.eq_or_padding (hzero : get1 data start = some 0)
    (h : ElementAt data start fin o) : o = start ∨ ElementAt data (start + 1) fin o := by
  induction h with
  | first => exact .inl rfl
  | padding _ ho hget ih =>
    rcases ih with rfl | ih
    · exact .inr .first
    · exact .inr (.padding ih ho hget)
  | element _ ho hget hne hle ih =>
    rcases ih with rfl | ih
    · rw [hzero] at hget
      cases hget
      exact absurd rfl hne
    · exact .inr (.element ih ho hget hne hle)

theorem ElementAt.eq_or_element (hget : get1 data start = some header) (hne : header ≠ 0)
    (h : ElementAt data start fin o) :
    o = start ∨ ElementAt data (start + 2 + header % 2 ^ 4) fin o := by
  induction h with
  | first => exact .inl rfl
  | padding _ ho hzero ih =>
    rcases ih with rfl | ih
    · rw [hget] at hzero
      cases hzero
      exact absurd rfl hne
    · exact .inr (.padding ih ho hzero)
  | element _ ho hget' hne' hle ih =>
    rcases ih with rfl | ih
    · rw [hget] at hget'
      cases hget'
      exact .inr .first
    · exact .inr (.element ih ho hget' hne' hle)

theorem ElementAt.eq_of_long (hget : get1 data start = some header) (hne : header ≠ 0)
    (hlong : ¬start + 2 + header % 2 ^ 4 ≤ fin) (h : ElementAt data start fin o) : o = start := by
  induction h with
  | first => rfl
  | padding _ ho hzero ih =>
    subst ih
    rw [hget] at hzero
    cases hzero
    exact absurd rfl hne
  | element _ ho hget' hne' hle ih =>
    subst ih
    rw [hget] at hget'
    cases hget'
    exact absurd hle hlong

theorem ElementAt.eq_of_end (hend : fin ≤ start) (h : ElementAt data start fin o) : o = start := by
  induction h with
  | first => rfl
  | padding _ ho hzero ih => omega
  | element _ ho hget hne hle ih => omega

theorem mem_dataReads {t : UInt8} {i ext : Nat} (h : i ∈ dataReads t ext) : ext ≤ i := by
  unfold dataReads at h
  split at h
  · simp at h
    omega
  · split at h
    · simp at h
      omega
    · cases h

theorem dataReads_lt_iff {t : UInt8} (hle : o + 2 ≤ fin) :
    (∀ i ∈ dataReads t (o + 1), i < fin) ↔
      ((t = TimeOffset ∨ t = AbsoluteSendTime) → o + 4 ≤ fin) := by
  unfold dataReads
  split
  case isTrue haudio =>
    subst haudio
    have hno : ¬(SSRCAudioLevel = TimeOffset ∨ SSRCAudioLevel = AbsoluteSendTime) := by decide
    simp only [hno, List.mem_singleton, forall_eq, false_imp_iff, iff_true]
    omega
  case isFalse haudio =>
    split
    case isTrue htime =>
      simp only [htime, List.mem_cons, List.not_mem_nil, or_false, forall_eq_or_imp, forall_eq,
        true_imp_iff]
      omega
    case isFalse htime => simp [htime]

theorem isSome_store {buffer : List UInt8} {t : UInt8} {ext : Nat} (e : HeaderExtension)
    (h : ∀ i ∈ dataReads t ext, i < buffer.length) : (e.store buffer t ext).isSome := by
  unfold dataReads at h
  unfold store
  split at h
  case isTrue haudio =>
    rw [if_pos haudio, Option.isSome_map, isSome_get1]
    exact h ext (by simp)
  case isFalse haudio =>
    rw [if_neg haudio]
    split at h
    case isTrue htime =>
      have hget : (get3 buffer ext).isSome := by
        rw [isSome_get3]
        exact h (ext + 2) (by simp)
      rcases htime with htime | htime
      · rw [if_pos htime, Option.isSome_map]
        exact hget
      · have hne : ¬t = TimeOffset := by
          rw [htime]
          decide
        rw [if_neg hne, if_pos htime, Option.isSome_map]
        exact hget
    case isFalse htime =>
      rw [if_neg fun ht => htime (.inl ht), if_neg fun ht => htime (.inr ht)]
      rfl

theorem le_of_mem_walk {buffer : List UInt8} {i length : Nat} {e : HeaderExtension}
    (h : i ∈ (walk buffer extMap start length e).reads) : start ≤ i := by
  induction length using Nat.strong_induction_on generalizing start e with
  | _ length ih =>
    unfold walk at h
    split at h
    case isTrue => cases h
    case isFalse hlength =>
      split at h
      case h_1 => simpa using (List.mem_singleton.1 h).ge
      case h_2 header hget =>
        split at h
        case isTrue =>
          rcases List.mem_append.1 h with h | h
          · exact (List.mem_singleton.1 h).ge
          · have := ih (length - 1) (by omega) h
            omega
        case isFalse =>
          dsimp only at h
          split at h
          case isTrue => exact (List.mem_singleton.1 h).ge
          case isFalse =>
            split at h
            case h_1 =>
              rcases List.mem_cons.1 h with rfl | h
              · exact Nat.le_refl i
              · have := mem_dataReads h
                omega
            case h_2 =>
              rcases List.mem_append.1 h with h | h
              · rcases List.mem_cons.1 h with rfl | h
                · exact Nat.le_refl i
                · have := mem_dataReads h
                  omega
              · have := ih (length - 1 - (header % 2 ^ 4 + 1)) (by omega) h
                omega

/-- **Walk.** The walk reads the extension only, unless a time element that ends in it has less
than three bytes there. -/
theorem walk_reads_iff {rest : List UInt8} {length : Nat} {e : HeaderExtension}
    (hlength : start + length = fin) (hfin : fin ≤ data.length) :
    (∀ i ∈ (walk (data ++ rest) extMap start length e).reads, i < fin) ↔
      ∀ o, ElementAt data start fin o → TimeFits data extMap fin o := by
  induction length using Nat.strong_induction_on generalizing start e with
  | _ length ih =>
    have hbuffer : data.length ≤ (data ++ rest).length := by simp
    unfold walk
    split
    case isTrue hzero =>
      refine iff_of_true (fun i hi => nomatch hi) fun o ho header hlt => ?_
      obtain rfl := ho.eq_of_end (by omega)
      omega
    case isFalse hsome =>
      have hlt : start < fin := by omega
      obtain ⟨header, hget⟩ := Option.isSome_iff_exists.1
        ((isSome_get1 data start).2 (by omega))
      have hget' : get1 (data ++ rest) start = some header := by
        rw [← hget]
        unfold get1
        rw [List.getElem?_append_left (by omega)]
      rw [hget']
      dsimp only
      split
      case isTrue hzero =>
        subst hzero
        have hrec := @ih (length - 1) (by omega) (start + 1) e (by omega)
        rw [Walk.after, List.forall_mem_append, hrec]
        constructor
        · rintro ⟨-, hall⟩ o ho
          rcases ho.eq_or_padding hget with rfl | ho
          · intro header' _ hheader hne
            rw [hget] at hheader
            cases hheader
            exact absurd rfl hne
          · exact hall o ho
        · intro hall
          refine ⟨fun i hi => ?_, fun o ho => hall o (ho.of_padding hlt hget)⟩
          rw [List.mem_singleton.1 hi]
          exact hlt
      case isFalse hne =>
        split
        case isTrue hlong =>
          refine iff_of_true (fun i hi => ?_) fun o ho header' _ hheader _ hle => ?_
          · rw [List.mem_singleton.1 hi]
            exact hlt
          · obtain rfl := ho.eq_of_long hget hne (by omega)
            rw [hget] at hheader
            cases hheader
            omega
        case isFalse hin =>
          have hle : start + 2 + header % 2 ^ 4 ≤ fin := by omega
          have hreads := @dataReads_lt_iff fin start
            (extMap.getCodecForType (.ofNat (header / 2 ^ 4))) (by omega)
          -- The first element fits exactly if its data is read inside.
          have hfirst : TimeFits data extMap fin start ↔
              ∀ i ∈ dataReads (extMap.getCodecForType (.ofNat (header / 2 ^ 4))) (start + 1),
                i < fin := by
            rw [hreads]
            constructor
            · intro hfits
              exact hfits header hlt hget hne hle
            · intro hfits header' _ hheader _ _
              rw [hget] at hheader
              cases hheader
              exact hfits
          split
          case h_1 hstore =>
            refine iff_of_false (fun hall => ?_) fun hall => ?_
            · have hin' := fun i hi => (hall i (List.mem_cons_of_mem _ hi)).trans_le hfin
              have := isSome_store e fun i hi => (hin' i hi).trans_le hbuffer
              rw [hstore] at this
              cases this
            · have hin' := fun i hi => ((hfirst.1 (hall start .first)) i hi).trans_le hfin
              have := isSome_store e fun i hi => (hin' i hi).trans_le hbuffer
              rw [hstore] at this
              cases this
          case h_2 e' hstore =>
            have hrec := @ih (length - 1 - (header % 2 ^ 4 + 1)) (by omega)
              (start + 2 + header % 2 ^ 4) e' (by omega)
            have hnext : start + 1 + (header % 2 ^ 4 + 1) = start + 2 + header % 2 ^ 4 := by omega
            rw [hnext, Walk.after, List.forall_mem_append, List.forall_mem_cons, hrec, ← hfirst]
            constructor
            · rintro ⟨⟨-, hstart⟩, hall⟩ o ho
              rcases ho.eq_or_element hget hne with rfl | ho
              · exact hstart
              · exact hall o ho
            · intro hall
              exact ⟨⟨hlt, hall start .first⟩,
                fun o ho => hall o (ho.of_element hlt hget hne hle)⟩

end Walk

/-! ## Datagrams -/

/-- What is asked of the packet a datagram was loaded into: the lengths add up, the media data is in
the datagram, and so is what the walk reads, which is in the extension. -/
structure PacketData.Loaded (q : PacketData) (extMap : RTPMap) (data : List UInt8) : Prop where
  lengths : q.getRTPHeaderLen + q.getMediaLength = data.length
  payload : q.getMediaData + q.getMediaLength ≤ data.length
  reads : ∀ i ∈ (q.processExtensions extMap).reads,
    q.extensionData ≤ i ∧ i < q.extensionData + q.getExtensionLength ∧ i < data.length

/-- The datagram is loaded, and safely so. -/
def PacketData.LoadsSafely (p : PacketData) (extMap : RTPMap) (data : List UInt8) : Prop :=
  ∃ q, p.setData data = some q ∧ q.Loaded extMap data

/-- The first byte of a datagram. -/
def firstByte (data : List UInt8) : Nat := (get1 data 0).getD 0

/-- The extension bit of a datagram is set. -/
def HasExtension (data : List UInt8) : Prop := firstByte data / 2 ^ 4 % 2 = 1

/-- Where the data of an extension starts, behind the contributing sources and the extension
header. -/
def blockStart (data : List UInt8) : Nat := 16 + 4 * (firstByte data % 2 ^ 4)

/-- Where it ends, by the length field, which counts words modulo `2 ^ 14`. -/
def blockEnd (data : List UInt8) : Nat :=
  blockStart data + (get2 data (blockStart data - 2)).getD 0 * 4 % 2 ^ 16

/-- The contributing sources and the extension are in the datagram, and each time element that ends
in the extension has three bytes there. -/
structure WellFormed (extMap : RTPMap) (data : List UInt8) : Prop where
  sources : 12 + 4 * (firstByte data % 2 ^ 4) ≤ data.length
  extension : HasExtension data → blockEnd data ≤ data.length
  times : HasExtension data → ∀ o, ElementAt data (blockStart data) (blockEnd data) o →
    TimeFits data extMap (blockEnd data) o

namespace PacketData

variable {p q : PacketData} {extMap : RTPMap} {data : List UInt8}

theorem setData_eq_some (hsize : data.length ≤ 1700) :
    ∃ q, p.setData data = some q ∧ q.buffer = data ++ p.buffer.drop data.length ∧
      q.len = (data.length + (2 ^ 32 - q.getRTPHeaderLen)) % 2 ^ 32 := by
  refine ⟨_, dif_pos hsize, rfl, rfl⟩

theorem byte_of_lt (hbuffer : q.buffer = data ++ p.buffer.drop data.length) {i : Nat}
    (hi : i < data.length) : q.byte i = (get1 data i).getD 0 := by
  unfold byte get1
  rw [hbuffer, List.getElem?_append_left hi]

theorem extensionData_eq (hbuffer : q.buffer = data ++ p.buffer.drop data.length)
    (hlen : 12 ≤ data.length) : q.extensionData = blockStart data ∧
      (q.getX = true ↔ HasExtension data) := by
  have hbyte : q.byte 0 = firstByte data := byte_of_lt hbuffer (by omega)
  refine ⟨?_, ?_⟩
  · rw [extensionData, extensionHeader, getCC, hbyte, blockStart]
    omega
  · rw [getX, hbyte, decide_eq_true_eq, HasExtension]

theorem le_getRTPHeaderLen (hbuffer : q.buffer = data ++ p.buffer.drop data.length)
    (hlen : 12 ≤ data.length) : 12 + 4 * (firstByte data % 2 ^ 4) ≤ q.getRTPHeaderLen := by
  have hstart := (extensionData_eq hbuffer hlen).1
  rw [extensionData, extensionHeader, blockStart] at hstart
  rw [getRTPHeaderLen]
  omega

theorem getExtensionLength_eq (hbuffer : q.buffer = data ++ p.buffer.drop data.length)
    (hlen : 12 ≤ data.length) (hx : HasExtension data) (hstart : blockStart data ≤ data.length) :
    q.extensionData + q.getExtensionLength = blockEnd data := by
  obtain ⟨hdata, hgetX⟩ := extensionData_eq hbuffer hlen
  have hheader : q.extensionHeader + 4 = blockStart data := hdata
  have hhigh : (get1 data (q.extensionHeader + 2)).isSome :=
    (isSome_get1 data _).2 (by omega)
  have hlow : (get1 data (q.extensionHeader + 3)).isSome :=
    (isSome_get1 data _).2 (by omega)
  obtain ⟨high, hhigh⟩ := Option.isSome_iff_exists.1 hhigh
  obtain ⟨low, hlow⟩ := Option.isSome_iff_exists.1 hlow
  have hat : blockStart data - 2 = q.extensionHeader + 2 := by omega
  have hget2 : get2 data (blockStart data - 2) = some (high * 2 ^ 8 + low) := by
    rw [hat, get2, hhigh, hlow]
    rfl
  rw [getExtensionLength, if_pos (hgetX.2 hx), byte_of_lt hbuffer (by omega),
    byte_of_lt hbuffer (by omega), hhigh, hlow, hdata, blockEnd, hget2]
  rfl

theorem reads_eq_nil (hx : ¬q.getX = true) : (q.processExtensions extMap).reads = [] := by
  rw [processExtensions, if_neg hx]

/-- **Datagrams.** -/
theorem loadsSafely_iff (p : PacketData) (extMap : RTPMap) (hrtp : isRTP data = true)
    (hsize : data.length ≤ 1700) : p.LoadsSafely extMap data ↔ WellFormed extMap data := by
  have hlen : 12 ≤ data.length := by
    simp only [isRTP, Bool.and_eq_true, decide_eq_true_eq] at hrtp
    exact hrtp.1
  obtain ⟨q, hset, hbuffer, hmedia⟩ := setData_eq_some (p := p) hsize
  obtain ⟨hdata, hgetX⟩ := extensionData_eq hbuffer hlen
  have hunique : p.LoadsSafely extMap data ↔ q.Loaded extMap data := by
    constructor
    · rintro ⟨q', hset', hloaded⟩
      rw [hset] at hset'
      cases hset'
      exact hloaded
    · intro hloaded
      exact ⟨q, hset, hloaded⟩
  rw [hunique]
  by_cases hx : HasExtension data
  · have hx' := hgetX.2 hx
    have hheader : q.getRTPHeaderLen = q.extensionData + q.getExtensionLength := by
      rw [getRTPHeaderLen, getExtensionSize, if_pos hx', extensionData, extensionHeader]
      omega
    have hwalk : q.processExtensions extMap =
        walk q.buffer extMap q.extensionData q.getExtensionLength q.extension := by
      rw [processExtensions, if_pos hx']
    constructor
    · intro hloaded
      have hlengths := hloaded.lengths
      have hstart : blockStart data ≤ data.length := by omega
      have hend := getExtensionLength_eq hbuffer hlen hx hstart
      have hfin : blockEnd data ≤ data.length := by omega
      have hsources := le_getRTPHeaderLen hbuffer hlen
      refine ⟨by omega, fun _ => hfin, fun _ => ?_⟩
      rw [← hdata, ← @walk_reads_iff data _ _ _ (p.buffer.drop data.length) _ q.extension
        hend hfin, ← hbuffer, ← hwalk]
      intro i hi
      have := (hloaded.reads i hi).2.1
      omega
    · intro hwell
      have hfin := hwell.extension hx
      have hstart : blockStart data ≤ data.length :=
        Nat.le_trans (Nat.le_add_right _ _) hfin
      have hend := getExtensionLength_eq hbuffer hlen hx hstart
      have hlengths : q.getRTPHeaderLen + q.getMediaLength = data.length := by
        rw [getMediaLength, hmedia]
        omega
      refine ⟨hlengths, Nat.le_of_eq hlengths, fun i hi => ?_⟩
      have hall := hwell.times hx
      rw [← hdata, ← @walk_reads_iff data _ _ _ (p.buffer.drop data.length) _ q.extension
        hend hfin, ← hbuffer, ← hwalk] at hall
      have hlt := hall i hi
      rw [hwalk] at hi
      have hge := le_of_mem_walk hi
      exact ⟨hge, by omega, by omega⟩
  · have hx' : ¬q.getX = true := fun h => hx (hgetX.1 h)
    have hheader : q.getRTPHeaderLen = 12 + 4 * (firstByte data % 2 ^ 4) := by
      rw [extensionData, extensionHeader, blockStart] at hdata
      rw [getRTPHeaderLen, getExtensionSize, if_neg hx']
      omega
    constructor
    · intro hloaded
      have hlengths := hloaded.lengths
      exact ⟨by omega, fun h => absurd h hx, fun h => absurd h hx⟩
    · intro hwell
      have hfits := hwell.sources
      have hlengths : q.getRTPHeaderLen + q.getMediaLength = data.length := by
        rw [getMediaLength, hmedia]
        omega
      refine ⟨hlengths, Nat.le_of_eq hlengths, ?_⟩
      rw [reads_eq_nil hx']
      exact fun i hi => nomatch hi

end PacketData

/-- A packet that has not been loaded. -/
def PacketData.empty : PacketData where
  buffer := List.replicate 1700 0
  length_buffer := List.length_replicate
  len := 0

/-- The send time is the extension element 1. -/
def timeMap : RTPMap := Std.TreeMap.ofList [((1 : UInt8), AbsoluteSendTime)]

/-- A datagram with an extension that holds a time element of three bytes. -/
def timeDatagram : List UInt8 :=
  [0x90, 0, 0, 0, 0, 0, 0, 0, 0, 0, 0, 0, 0xBE, 0xDE, 0, 1, 0x12, 1, 2, 3]

theorem loadsSafely_timeDatagram_iff :
    PacketData.empty.LoadsSafely timeMap timeDatagram ↔ WellFormed timeMap timeDatagram :=
  PacketData.loadsSafely_iff PacketData.empty timeMap (by decide) (by decide)

/-- A datagram that counts 15 contributing sources and ends behind the fixed header. -/
def truncatedDatagram : List UInt8 := [0x8F, 0, 0, 0, 0, 0, 0, 0, 0, 0, 0, 0]

theorem not_loadsSafely_truncatedDatagram : isRTP truncatedDatagram = true ∧
    ¬PacketData.empty.LoadsSafely timeMap truncatedDatagram := by
  refine ⟨by decide, ?_⟩
  rintro ⟨q, hset, hloaded⟩
  obtain ⟨q', hset', hbuffer, -⟩ :=
    @PacketData.setData_eq_some PacketData.empty truncatedDatagram (by decide)
  rw [hset] at hset'
  cases hset'
  have hheader := PacketData.le_getRTPHeaderLen hbuffer (by decide)
  have hlengths := hloaded.lengths
  have hsources : 12 + 4 * (firstByte truncatedDatagram % 2 ^ 4) = 72 := by decide
  have hlength : truncatedDatagram.length = 12 := rfl
  omega

end McuMediaServer
