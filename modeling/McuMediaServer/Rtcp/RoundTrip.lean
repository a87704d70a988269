import McuMediaServer.Rtcp.Compound

/-!
# The round trip of RTCP packets

For which packets `Serialize` writes exactly `GetSize()` bytes, a multiple of four that the length
field states, and `Parse` of these bytes returns the packet.
-/

namespace McuMediaServer

open ByteSeq ByteWriter ByteParser

/-! ## The header -/

@[simp]
theorem length_rtcpHeader (count pt size : Nat) : (rtcpHeader count pt size).length = 4 := by
  simp [rtcpHeader]

theorem read_rtcpHeader (count pt size : Nat) (rest : List UInt8) :
    RtcpCommon.read (rtcpHeader count pt size ++ rest) =
      some ⟨count % 2 ^ 5, 0, 2, pt % 2 ^ 8, lengthField size % 2 ^ 16⟩ := by
  have hfirst : get1 (rtcpHeader count pt size ++ rest) 0 =
      some (2 * 2 ^ 6 + count % 2 ^ 5) := by
    rw [rtcpHeader, List.append_assoc, List.append_assoc, get1_be1, Option.some.injEq]
    omega
  have hpt : get1 (rtcpHeader count pt size ++ rest) 1 = some (pt % 2 ^ 8) := by
    rw [rtcpHeader, List.append_assoc, List.append_assoc, get1_append (length_be1 _).le,
      length_be1, Nat.sub_self, get1_be1]
  have hlength : get2 (rtcpHeader count pt size ++ rest) 2 =
      some (lengthField size % 2 ^ 16) := by
    rw [rtcpHeader, List.append_assoc, get2_append (by simp), List.length_append, length_be1,
      length_be1, Nat.sub_self, get2_be2]
  rw [RtcpCommon.read, hfirst, hpt, hlength]
  simp only [Option.bind_eq_bind, Option.bind_some, pure, Option.some.injEq, RtcpCommon.mk.injEq,
    and_true]
  omega

theorem headerLength_eq_iff (size : Nat) :
    (lengthField size % 2 ^ 16 + 1) * 4 = size ↔
      0 < size ∧ size % 4 = 0 ∧ size ≤ 2 ^ 18 := by
  unfold lengthField dwordSub
  split <;> omega

/-! ## Round trips -/

/-- The round trip of one kind of packets. -/
def RoundTripsVia {P : Type} (size : Nat) (serialize : ByteWriter)
    (parse : List UInt8 → Nat → Option (Parsed P)) (p : P) : Prop :=
  ∃ bytes header n, Encodes serialize bytes ∧ bytes.length = size ∧ size % 4 = 0 ∧
    RtcpCommon.read bytes = some header ∧ header.headerLength = size ∧
    parse bytes size = some (some (p, n))

/-- `Serialize` writes exactly `GetSize()` bytes, a multiple of four that the length field states,
and `Parse` of these bytes gives the packet back. -/
def RTCPPacket.RoundTrips (p : RTCPPacket) : Prop :=
  RoundTripsVia p.getSize p.serialize (RTCPPacket.parse p.getType) p

section Via

variable {P Q : Type} {size : Nat} {w : ByteWriter} {parse : List UInt8 → Nat → Option (Parsed P)}
  {p : P}

theorem roundTripsVia_map_iff {f : P → Q} (hf : ∀ a b, f a = f b → a = b) :
    RoundTripsVia size w (fun data size => (parse data size).map fun r => r.map (Prod.map f id))
      (f p) ↔ RoundTripsVia size w parse p := by
  have hmap : ∀ (x : Option (Parsed P)) n,
      (x.map fun r => r.map (Prod.map f id)) = some (some (f p, n)) ↔ x = some (some (p, n)) := by
    intro x n
    constructor
    · intro h
      obtain ⟨r, rfl, hr⟩ := Option.map_eq_some_iff.1 h
      obtain ⟨⟨q, m⟩, rfl, hq⟩ := Option.map_eq_some_iff.1 hr
      obtain ⟨hfst, hsnd⟩ := Prod.mk.inj hq
      obtain rfl := hf q p hfst
      obtain rfl : m = n := hsnd
      rfl
    · intro h
      rw [h]
      rfl
  simp only [RoundTripsVia, hmap]

theorem roundTripsVia_iff {count pt : Nat} {body : List UInt8}
    (h : Encodes w (rtcpHeader count pt size ++ body)) :
    RoundTripsVia size (check size w) parse p ↔
      4 + body.length = size ∧ size % 4 = 0 ∧ size ≤ 2 ^ 18 ∧
        ∃ n, parse (rtcpHeader count pt size ++ body) size = some (some (p, n)) := by
  have hlen : (rtcpHeader count pt size ++ body).length = 4 + body.length := by
    rw [List.length_append, length_rtcpHeader]
  constructor
  · intro ⟨bytes, header, n, henc, hsize, hmod, hread, hheader, hparse⟩
    obtain rfl := henc.unique_of_check h
    rw [read_rtcpHeader] at hread
    cases hread
    have hfit := (headerLength_eq_iff size).1 hheader
    exact ⟨by omega, hmod, hfit.2.2, n, hparse⟩
  · intro ⟨hsize, hmod, hle, n, hparse⟩
    exact ⟨_, _, n, h.check (by omega), by omega, hmod, read_rtcpHeader _ _ _ _,
      (headerLength_eq_iff size).2 ⟨by omega, hmod, hle⟩, hparse⟩

end Via

/-! ## Words and report blocks -/

theorem length_wordsBytes (words : List UInt32) : (wordsBytes words).length = 4 * words.length := by
  induction words with
  | nil => rfl
  | cons w words ih =>
    rw [wordsBytes, List.flatMap_cons, List.length_append, length_be4, List.length_cons]
    change 4 + (wordsBytes words).length = _
    omega

theorem getWords_wordsBytes (words : List UInt32) (rest : List UInt8) :
    getWords words.length (wordsBytes words ++ rest) = some words := by
  induction words with
  | nil => rfl
  | cons w words ih =>
    have hw : w.toNat % 2 ^ 32 = w.toNat := Nat.mod_eq_of_lt w.toNat_lt
    have hdrop : (wordsBytes (w :: words) ++ rest).drop 4 = wordsBytes words ++ rest := by
      rw [wordsBytes, List.flatMap_cons, List.append_assoc]
      exact List.drop_left' (length_be4 _)
    rw [List.length_cons, getWords, hdrop, ih, wordsBytes, List.flatMap_cons, List.append_assoc,
      get4_be4, hw]
    simp

theorem length_of_getWords {count : Nat} {data : List UInt8} {words : List UInt32}
    (h : getWords count data = some words) : words.length = count := by
  induction count generalizing data words with
  | zero =>
    cases h
    rfl
  | succ count ih =>
    simp only [getWords, Option.bind_eq_bind, Option.bind_eq_some_iff, pure,
      Option.some.injEq] at h
    obtain ⟨_, -, words', hwords, rfl⟩ := h
    rw [List.length_cons, ih hwords]

namespace RTCPReport

def bytes (r : RTCPReport) : List UInt8 := r.buffer.data

theorem length_bytes (r : RTCPReport) : r.bytes.length = 24 := r.buffer.length_eq

theorem encodes_serialize (r : RTCPReport) : Encodes r.serialize r.bytes :=
  (encodes_put _).check r.length_bytes.ge

theorem parse_bytes (r : RTCPReport) (rest : List UInt8) {size : Nat} (h : 24 ≤ size) :
    parse (r.bytes ++ rest) size = some (some (r, 24)) := by
  have hlen : 0 + 24 ≤ (r.bytes ++ rest).length := by
    rw [List.length_append, r.length_bytes]
    omega
  have htake : ((r.bytes ++ rest).drop 0).take 24 = r.buffer.data := by
    rw [List.drop_zero]
    exact List.take_left' r.length_bytes
  rw [parse, if_neg (Nat.not_lt.2 h), Octets.read, dif_pos hlen]
  simp only [htake]
  rfl

theorem length_flatMap (reports : List RTCPReport) :
    (reports.flatMap bytes).length = 24 * reports.length := by
  induction reports with
  | nil => rfl
  | cons r reports ih =>
    rw [List.flatMap_cons, List.length_append, r.length_bytes, ih, List.length_cons]
    omega

theorem parseReports_flatMap (reports : List RTCPReport) :
    parseReports reports.length (reports.flatMap bytes) (24 * reports.length) = some reports := by
  induction reports with
  | nil => rfl
  | cons r reports ih =>
    have hdrop : (r.bytes ++ reports.flatMap bytes).drop 24 = reports.flatMap bytes :=
      List.drop_left' r.length_bytes
    have hsize : 24 * (reports.length + 1) - 24 = 24 * reports.length := by omega
    rw [List.length_cons, parseReports, List.flatMap_cons, r.parse_bytes _ (by omega)]
    simp only [Option.bind_eq_bind, Option.bind_some, hdrop, hsize, ih]
    rfl

end RTCPReport

/-! ## The packets -/

theorem not_lt_headerLength {count pt size : Nat}
    (hfit : (lengthField size % 2 ^ 16 + 1) * 4 = size) :
    ¬ size < RtcpCommon.headerLength ⟨count, 0, 2, pt, lengthField size % 2 ^ 16⟩ := by
  rw [RtcpCommon.headerLength, hfit]
  exact Nat.lt_irrefl size

theorem take_eq_self_iff_lt {α : Type} (l : List α) :
    l.take (l.length % 2 ^ 5) = l ↔ l.length < 2 ^ 5 := by
  rw [List.take_eq_self_iff]
  omega

namespace RTCPSenderReport

variable (p : RTCPSenderReport)

theorem length_info : p.info.length = 24 := by
  simp [info]

theorem encodes_serialize {count size : Nat} (reports : List RTCPReport) :
    Encodes (seq (put (rtcpHeader count 200 size ++ p.info) ::
      reports.map RTCPReport.serialize))
      (rtcpHeader count 200 size ++ (p.info ++ reports.flatMap RTCPReport.bytes)) := by
  rw [← List.append_assoc]
  exact (encodes_put _).andThen (Encodes.seq_map fun r _ => r.encodes_serialize)

theorem parse_bytes {count size : Nat} {reports : List RTCPReport}
    (hfit : (lengthField size % 2 ^ 16 + 1) * 4 = size) (hcount : count % 2 ^ 5 = reports.length)
    (hsize : 28 + 24 * reports.length = size) :
    parse (rtcpHeader count 200 size ++ (p.info ++ reports.flatMap RTCPReport.bytes)) size =
      some (some ({ p with reports := reports }, 28 + 24 * reports.length)) := by
  have hdrop : (rtcpHeader count 200 size ++ (p.info ++ reports.flatMap RTCPReport.bytes)).drop
      28 = reports.flatMap RTCPReport.bytes := by
    rw [← List.append_assoc]
    refine List.drop_left' ?_
    rw [List.length_append, length_rtcpHeader, p.length_info]
  have hrest : size - 28 = 24 * reports.length := by omega
  rw [parse, read_rtcpHeader]
  simp only [Option.bind_eq_bind, Option.bind_some, if_neg (not_lt_headerLength hfit), hdrop,
    hcount, hrest, RTCPReport.parseReports_flatMap]
  simp [info, get4_append]

theorem roundTripsVia_iff :
    RoundTripsVia p.getSize p.serialize parse p ↔ p.reports.length < 2 ^ 5 := by
  rw [serialize, McuMediaServer.roundTripsVia_iff (p.encodes_serialize _), List.length_append,
    p.length_info, RTCPReport.length_flatMap, ← take_eq_self_iff_lt]
  have htake : (p.reports.take (p.reports.length % 2 ^ 5)).length = p.reports.length % 2 ^ 5 := by
    rw [List.length_take]
    omega
  constructor
  · intro ⟨hsize, hmod, hle, n, hparse⟩
    have hfit := (headerLength_eq_iff p.getSize).2 ⟨by omega, hmod, hle⟩
    rw [p.parse_bytes hfit htake.symm (by omega)] at hparse
    exact congrArg reports (Prod.mk.inj (Option.some.inj (Option.some.inj hparse))).1
  · intro h
    have hlen := take_eq_self_iff_lt p.reports |>.1 h
    have hsize : 28 + 24 * p.reports.length = p.getSize := by
      rw [getSize]
      omega
    have hfit := (headerLength_eq_iff p.getSize).2 (by omega)
    rw [h]
    refine ⟨by omega, by omega, by omega, _, p.parse_bytes hfit (by omega) hsize⟩

end RTCPSenderReport

namespace RTCPReceiverReport

variable (p : RTCPReceiverReport)

theorem encodes_serialize {count size : Nat} (reports : List RTCPReport) :
    Encodes (seq (put (rtcpHeader count 201 size ++ be4 p.ssrc.toNat) ::
      reports.map RTCPReport.serialize))
      (rtcpHeader count 201 size ++ (be4 p.ssrc.toNat ++ reports.flatMap RTCPReport.bytes)) := by
  rw [← List.append_assoc]
  exact (encodes_put _).andThen (Encodes.seq_map fun r _ => r.encodes_serialize)

theorem parse_bytes {count size : Nat} {reports : List RTCPReport}
    (hfit : (lengthField size % 2 ^ 16 + 1) * 4 = size) (hcount : count % 2 ^ 5 = reports.length)
    (hsize : 8 + 24 * reports.length = size) :
    parse (rtcpHeader count 201 size ++
      (be4 p.ssrc.toNat ++ reports.flatMap RTCPReport.bytes)) size =
      some (some (⟨p.ssrc, reports⟩, 8 + 24 * reports.length)) := by
  have hdrop : (rtcpHeader count 201 size ++
      (be4 p.ssrc.toNat ++ reports.flatMap RTCPReport.bytes)).drop 8 =
      reports.flatMap RTCPReport.bytes := by
    rw [← List.append_assoc]
    refine List.drop_left' ?_
    rw [List.length_append, length_rtcpHeader, length_be4]
  have hrest : size - 8 = 24 * reports.length := by omega
  rw [parse, read_rtcpHeader]
  simp only [Option.bind_eq_bind, Option.bind_some, if_neg (not_lt_headerLength hfit), hdrop,
    hcount, hrest, RTCPReport.parseReports_flatMap]
  simp [get4_append]

theorem roundTripsVia_iff :
    RoundTripsVia p.getSize p.serialize parse p ↔ p.reports.length < 2 ^ 5 := by
  rw [serialize, McuMediaServer.roundTripsVia_iff (p.encodes_serialize _), List.length_append,
    length_be4, RTCPReport.length_flatMap, ← take_eq_self_iff_lt]
  have htake : (p.reports.take (p.reports.length % 2 ^ 5)).length = p.reports.length % 2 ^ 5 := by
    rw [List.length_take]
    omega
  constructor
  · intro ⟨hsize, hmod, hle, n, hparse⟩
    have hfit := (headerLength_eq_iff p.getSize).2 ⟨by omega, hmod, hle⟩
    rw [p.parse_bytes hfit htake.symm (by omega)] at hparse
    exact congrArg reports (Prod.mk.inj (Option.some.inj (Option.some.inj hparse))).1
  · intro h
    have hlen := take_eq_self_iff_lt p.reports |>.1 h
    have hsize : 8 + 24 * p.reports.length = p.getSize := by
      rw [getSize]
      omega
    have hfit := (headerLength_eq_iff p.getSize).2 (by omega)
    rw [h]
    refine ⟨by omega, by omega, by omega, _, p.parse_bytes hfit (by omega) hsize⟩

end RTCPReceiverReport

namespace RTCPExtendedJitterReport

variable (p : RTCPExtendedJitterReport)

theorem parse_bytes {count size : Nat} (hfit : (lengthField size % 2 ^ 16 + 1) * 4 = size)
    (hcount : count % 2 ^ 5 = p.jitters.length) :
    parse (rtcpHeader count 195 size ++ wordsBytes p.jitters) size =
      some (some (p, 4 + 4 * p.jitters.length)) := by
  have hdrop : (rtcpHeader count 195 size ++ wordsBytes p.jitters).drop 4 =
      wordsBytes p.jitters := List.drop_left' (length_rtcpHeader _ _ _)
  have hwords := getWords_wordsBytes p.jitters []
  rw [List.append_nil] at hwords
  rw [parse, read_rtcpHeader]
  simp only [Option.bind_eq_bind, Option.bind_some, if_neg (not_lt_headerLength hfit), hdrop,
    hcount, hwords]
  rfl

theorem length_of_parse {data : List UInt8} {count size n len : Nat}
    (hdata : RtcpCommon.read data = some ⟨count % 2 ^ 5, 0, 2, n, len⟩) {m : Nat}
    (h : parse data size = some (some (p, m))) : p.jitters.length = count % 2 ^ 5 := by
  rw [parse, hdata] at h
  simp only [Option.bind_eq_bind, Option.bind_some] at h
  split at h
  · cases h
  · simp only [Option.bind_eq_some_iff, pure, Option.some.injEq, Prod.mk.injEq] at h
    obtain ⟨jitters, hjitters, rfl, -⟩ := h
    exact length_of_getWords hjitters

theorem roundTripsVia_iff :
    RoundTripsVia p.getSize p.serialize parse p ↔ p.jitters.length < 2 ^ 5 := by
  rw [serialize, McuMediaServer.roundTripsVia_iff (encodes_put _), length_wordsBytes]
  constructor
  · intro ⟨_, _, _, n, hparse⟩
    have := p.length_of_parse (read_rtcpHeader _ _ _ _) hparse
    omega
  · intro h
    have hsize : 4 + 4 * p.jitters.length = p.getSize := by
      rw [getSize]
      omega
    have hfit := (headerLength_eq_iff p.getSize).2 (by omega)
    exact ⟨hsize, by omega, by omega, _, p.parse_bytes hfit (Nat.mod_eq_of_lt h)⟩

end RTCPExtendedJitterReport

theorem CString.ofBuffer_chars (s : CString) : CString.ofBuffer s.chars = s := by
  have h : s.chars.takeWhile (· ≠ 0) = s.chars := by
    rw [List.takeWhile_eq_self_iff]
    intro c hc
    have hne : c ≠ 0 := fun h => s.nonzero (h ▸ hc)
    simpa using hne
  cases s
  simp only [CString.ofBuffer, h]

theorem CString.length_ofBuffer_le (buffer : List UInt8) :
    (CString.ofBuffer buffer).chars.length ≤ buffer.length :=
  (List.takeWhile_prefix _).length_le

namespace RTCPBye

variable (p : RTCPBye)

theorem length_reasonBytes (reason : Option CString) :
    (reasonBytes reason).length = reason.elim 0 fun reason => reason.chars.length + 1 := by
  cases reason with
  | none => rfl
  | some reason =>
    rw [reasonBytes, List.length_append, length_be1, Nat.add_comm]
    rfl

theorem parse_bytes {ssrcs : List UInt32} {reason : Option CString} {count size : Nat}
    (hfit : (lengthField size % 2 ^ 16 + 1) * 4 = size) (hcount : count % 2 ^ 5 = ssrcs.length)
    (hsize : 4 + 4 * ssrcs.length + (reasonBytes reason).length = size)
    (hreason : ∀ r ∈ reason, r.chars.length < 2 ^ 8) :
    ∃ n, parse (rtcpHeader count 203 size ++ (wordsBytes ssrcs ++ reasonBytes reason)) size =
      some (some (⟨ssrcs, reason⟩, n)) := by
  have hdrop : (rtcpHeader count 203 size ++ (wordsBytes ssrcs ++ reasonBytes reason)).drop 4 =
      wordsBytes ssrcs ++ reasonBytes reason := List.drop_left' (length_rtcpHeader _ _ _)
  have hfront : (rtcpHeader count 203 size ++ wordsBytes ssrcs).length =
      4 + 4 * ssrcs.length := by
    rw [List.length_append, length_rtcpHeader, length_wordsBytes]
  have hheader : RtcpCommon.headerLength ⟨ssrcs.length, 0, 2, 203 % 2 ^ 8,
      lengthField size % 2 ^ 16⟩ = size := hfit
  rw [parse, read_rtcpHeader]
  simp only [Option.bind_eq_bind, Option.bind_some, hdrop, hcount, getWords_wordsBytes, hheader,
    Nat.lt_irrefl, if_false]
  cases reason with
  | none =>
    have hnot : ¬ 4 + 4 * ssrcs.length < size := by
      rw [← hsize]
      exact Nat.lt_irrefl _
    exact ⟨_, if_neg hnot⟩
  | some r =>
    have hlen := hreason r rfl
    have hlt : 4 + 4 * ssrcs.length < size := by
      rw [← hsize, length_reasonBytes]
      exact Nat.lt_add_of_pos_right (Nat.succ_pos _)
    have hread : get1 (rtcpHeader count 203 size ++ (wordsBytes ssrcs ++ reasonBytes (some r)))
        (4 + 4 * ssrcs.length) = some r.chars.length := by
      rw [← List.append_assoc, get1_append hfront.le, hfront, Nat.sub_self, reasonBytes,
        get1_be1, Nat.mod_eq_of_lt hlen]
    have hslice : slice (rtcpHeader count 203 size ++ (wordsBytes ssrcs ++
        reasonBytes (some r))) (4 + 4 * ssrcs.length + 1) r.chars.length = some r.chars := by
      have hfront' : (rtcpHeader count 203 size ++ wordsBytes ssrcs ++
          be1 r.chars.length).length = 4 + 4 * ssrcs.length + 1 := by
        rw [List.length_append, hfront, length_be1]
      rw [reasonBytes, ← List.append_assoc, ← List.append_assoc, slice_append hfront'.le,
        hfront', Nat.sub_self]
      have hleft : slice (r.chars ++ []) 0 r.chars.length = some r.chars := slice_left
      simpa using hleft
    rw [if_pos hlt, hread]
    simp only [Option.bind_some, hslice, CString.ofBuffer_chars]
    exact ⟨_, rfl⟩

theorem of_parse {data : List UInt8} {count size n len m : Nat}
    (hdata : RtcpCommon.read data = some ⟨count % 2 ^ 5, 0, 2, n, len⟩)
    (h : parse data size = some (some (p, m))) :
    p.ssrcs.length = count % 2 ^ 5 ∧ ∀ r ∈ p.reason, r.chars.length < 2 ^ 8 := by
  rw [parse, hdata] at h
  simp only [Option.bind_eq_bind, Option.bind_some] at h
  split at h
  · cases h
  · simp only [Option.bind_eq_some_iff] at h
    obtain ⟨ssrcs, hssrcs, h⟩ := h
    split at h
    · simp only [Option.bind_eq_some_iff, pure, Option.some.injEq, Prod.mk.injEq] at h
      obtain ⟨k, hk, reason, hslice, rfl, -⟩ := h
      refine ⟨length_of_getWords hssrcs, ?_⟩
      intro r hr
      cases hr
      have hle := CString.length_ofBuffer_le reason
      rw [length_of_slice hslice] at hle
      exact hle.trans_lt (get1_lt hk)
    · simp only [pure, Option.some.injEq, Prod.mk.injEq] at h
      obtain ⟨rfl, -⟩ := h
      exact ⟨length_of_getWords hssrcs, fun r hr => nomatch hr⟩

theorem roundTripsVia_iff :
    RoundTripsVia p.getSize p.serialize parse p ↔ p.ssrcs.length < 2 ^ 5 ∧
      ∀ r ∈ p.reason, r.chars.length < 2 ^ 8 ∧ (r.chars.length + 1) % 4 = 0 := by
  rw [serialize, McuMediaServer.roundTripsVia_iff (encodes_put _), List.length_append,
    length_wordsBytes, length_reasonBytes]
  constructor
  · intro ⟨hsize, hmod, _, n, hparse⟩
    obtain ⟨hcount, hreason⟩ := p.of_parse (read_rtcpHeader _ _ _ _) hparse
    refine ⟨by omega, fun r hr => ⟨hreason r hr, ?_⟩⟩
    rw [Option.mem_def.1 hr] at hsize
    change 4 + (4 * p.ssrcs.length + (r.chars.length + 1)) = p.getSize at hsize
    omega
  · intro ⟨hcount, hreason⟩
    have hbound : (p.reason.elim 0 fun r => r.chars.length + 1) ≤ 2 ^ 8 ∧
        (p.reason.elim 0 fun r => r.chars.length + 1) % 4 = 0 := by
      cases hr : p.reason with
      | none => exact ⟨Nat.zero_le _, rfl⟩
      | some r => exact hreason r hr
    have hsize : 4 + 4 * p.ssrcs.length + (p.reason.elim 0 fun r => r.chars.length + 1) =
        p.getSize := by
      rw [getSize]
      omega
    have hfit := (headerLength_eq_iff p.getSize).2 (by omega)
    refine ⟨by omega, by omega, by omega, ?_⟩
    exact parse_bytes hfit (Nat.mod_eq_of_lt hcount) (by rw [length_reasonBytes, hsize])
      fun r hr => (hreason r hr).1

end RTCPBye

namespace RTCPApp

variable (p : RTCPApp)

theorem length_body :
    (be4 p.ssrc.toNat ++ p.name.data ++ p.data).length = 8 + p.data.length := by
  rw [List.length_append, List.length_append, length_be4, p.name.length_eq]

theorem parse_bytes (count : Nat) {size : Nat}
    (hfit : (lengthField size % 2 ^ 16 + 1) * 4 = size) (hsize : 12 + p.data.length = size) :
    parse (rtcpHeader count 204 size ++ (be4 p.ssrc.toNat ++ p.name.data ++ p.data)) size =
      some (some ({ p with subtype := .ofNat (count % 2 ^ 5) }, size)) := by
  have hfront : (rtcpHeader count 204 size ++ be4 p.ssrc.toNat).length = 8 := by simp
  have hfront' : (rtcpHeader count 204 size ++ be4 p.ssrc.toNat ++ p.name.data).length = 12 := by
    rw [List.length_append, hfront, p.name.length_eq]
  have hname : Octets.read 4 (rtcpHeader count 204 size ++
      (be4 p.ssrc.toNat ++ p.name.data ++ p.data)) 8 = some p.name := by
    have hlen : 8 + 4 ≤ (rtcpHeader count 204 size ++
        (be4 p.ssrc.toNat ++ p.name.data ++ p.data)).length := by
      rw [List.length_append, length_rtcpHeader, p.length_body]
      omega
    have htake : ((rtcpHeader count 204 size ++
        (be4 p.ssrc.toNat ++ p.name.data ++ p.data)).drop 8).take 4 = p.name.data := by
      rw [List.append_assoc, ← List.append_assoc, List.drop_left' hfront]
      exact List.take_left' p.name.length_eq
    rw [Octets.read, dif_pos hlen]
    simp only [htake]
  have hdata : slice (rtcpHeader count 204 size ++
      (be4 p.ssrc.toNat ++ p.name.data ++ p.data)) 12 p.data.length = some p.data := by
    rw [← List.append_assoc, ← List.append_assoc, slice_append hfront'.le, hfront', Nat.sub_self]
    have hleft : slice (p.data ++ []) 0 p.data.length = some p.data := slice_left
    simpa using hleft
  have hheader : RtcpCommon.headerLength ⟨count % 2 ^ 5, 0, 2, 204 % 2 ^ 8,
      lengthField size % 2 ^ 16⟩ = size := hfit
  have hrest : dwordSub size 12 = p.data.length := by
    rw [dwordSub, if_pos (by omega)]
    omega
  rw [parse, read_rtcpHeader]
  simp only [Option.bind_eq_bind, Option.bind_some, hheader, Nat.lt_irrefl, if_false, hname,
    hrest, hdata]
  simp [get4_append]

theorem roundTripsVia_iff :
    RoundTripsVia p.getSize p.serialize parse p ↔
      p.subtype.toNat < 2 ^ 5 ∧ p.data.length % 4 = 0 ∧ 12 + p.data.length ≤ 2 ^ 18 := by
  have hsubtype : UInt8.ofNat (p.subtype.toNat % 2 ^ 5) = p.subtype ↔ p.subtype.toNat < 2 ^ 5 := by
    rw [← UInt8.toNat_inj, UInt8.toNat_ofNat']
    omega
  rw [serialize, McuMediaServer.roundTripsVia_iff (encodes_put _), p.length_body, ← hsubtype]
  constructor
  · intro ⟨hsize, hmod, hle, n, hparse⟩
    have hfit := (headerLength_eq_iff p.getSize).2 ⟨by omega, hmod, hle⟩
    rw [p.parse_bytes _ hfit (by omega)] at hparse
    have heq := (Prod.mk.inj (Option.some.inj (Option.some.inj hparse))).1
    exact ⟨congrArg subtype heq, by omega, by omega⟩
  · intro ⟨heq, hmod, hle⟩
    have hsize : 12 + p.data.length = p.getSize := by
      rw [getSize]
      omega
    have hfit := (headerLength_eq_iff p.getSize).2 (by omega)
    have hparse := p.parse_bytes p.subtype.toNat hfit hsize
    rw [heq] at hparse
    exact ⟨by omega, by omega, by omega, _, hparse⟩

end RTCPApp

namespace RTCPFullIntraRequest

theorem roundTripsVia (p : RTCPFullIntraRequest) :
    RoundTripsVia p.getSize p.serialize parse p := by
  have hfit : (lengthField 8 % 2 ^ 16 + 1) * 4 = 8 := rfl
  have hsize : p.getSize = 8 := rfl
  rw [serialize, roundTripsVia_iff (encodes_put _), length_be4, hsize]
  refine ⟨rfl, rfl, by decide, 8, ?_⟩
  rw [parse, read_rtcpHeader]
  simp only [Option.bind_eq_bind, Option.bind_some, if_neg (not_lt_headerLength hfit)]
  simp [get4_append]

end RTCPFullIntraRequest

namespace RTCPNACK

variable (p : RTCPNACK)

theorem parse_bytes {size : Nat} (hfit : (lengthField size % 2 ^ 16 + 1) * 4 = size) :
    parse (rtcpHeader 0 193 size ++ (be4 p.ssrc.toNat ++ be2 p.fsn.toNat ++ be2 p.blp.toNat)) size =
      some (some ({ p with blp := .ofNat (p.ssrc.toNat % 2 ^ 16) }, 12)) := by
  have hblp : get2 (rtcpHeader 0 193 size ++
      (be4 p.ssrc.toNat ++ be2 p.fsn.toNat ++ be2 p.blp.toNat)) 6 =
      some (p.ssrc.toNat % 2 ^ 16) := by
    simp [get2_append, be4]
  rw [parse, read_rtcpHeader]
  simp only [Option.bind_eq_bind, Option.bind_some, if_neg (not_lt_headerLength hfit), hblp]
  simp [get4_append, get2_append]

theorem roundTripsVia_iff :
    RoundTripsVia p.getSize p.serialize parse p ↔ p.blp.toNat = p.ssrc.toNat % 2 ^ 16 := by
  have hblp : UInt16.ofNat (p.ssrc.toNat % 2 ^ 16) = p.blp ↔
      p.blp.toNat = p.ssrc.toNat % 2 ^ 16 := by
    rw [← UInt16.toNat_inj, UInt16.toNat_ofNat']
    omega
  have hsize : p.getSize = 12 := rfl
  rw [serialize, McuMediaServer.roundTripsVia_iff (encodes_put _), ← hblp, hsize,
    @parse_bytes p 12 rfl]
  constructor
  · intro ⟨_, _, _, n, hparse⟩
    exact congrArg blp (Prod.mk.inj (Option.some.inj (Option.some.inj hparse))).1
  · intro heq
    rw [heq]
    exact ⟨by simp, rfl, by decide, 12, rfl⟩

end RTCPNACK

/-! ## Source descriptions -/

namespace RTCPSDES

theorem Item.length_bytes (item : Item) : item.bytes.length = item.payload.data.length + 2 := by
  rw [bytes, List.length_append, List.length_append, length_be1, length_be1]
  omega

theorem Item.length_flatMap (items : List Item) :
    (items.flatMap Item.bytes).length =
      (items.map fun item => item.payload.data.length + 2).sum := by
  rw [List.length_flatMap]
  simp only [Item.length_bytes]

variable {data : List UInt8}

namespace Description

theorem length_bytes (d : Description) : d.bytes.length = pad32 d.length := by
  have := le_pad32 d.length
  rw [bytes, List.length_append, List.length_append, length_be4, Item.length_flatMap,
    List.length_replicate]
  unfold length at this ⊢
  omega

theorem encodes_serialize (d : Description) : Encodes d.serialize d.bytes :=
  (encodes_put _).check (d.length_bytes ▸ Nat.mod_le _ _)

theorem parseItems_bytes {items : List Item} (hne : ∀ item ∈ items, item.type ≠ 0)
    {fuel size : Nat} {rest : List UInt8} (hfuel : items.length < fuel)
    (hsize : (items.flatMap Item.bytes).length < size) :
    parseItems fuel (items.flatMap Item.bytes ++ (be1 0 ++ rest)) size =
      some (some (items, (items.flatMap Item.bytes).length)) := by
  induction items generalizing fuel size with
  | nil =>
    cases fuel with
    | zero => exact absurd hfuel (Nat.not_lt_zero _)
    | succ fuel =>
      rw [parseItems]
      split
      · rfl
      · simp
  | cons item items ih =>
    cases fuel with
    | zero => exact absurd hfuel (Nat.not_lt_zero _)
    | succ fuel =>
      have hlen := item.length_bytes
      rw [List.flatMap_cons, List.length_append] at hsize ⊢
      have hbyte : item.payload.data.length % 2 ^ 8 = item.payload.data.length :=
        Nat.mod_eq_of_lt item.payload.length_lt
      have htype : ¬ item.type.toNat = 0 := fun h =>
        hne item List.mem_cons_self (UInt8.toNat_inj.1 h)
      have hrest := ih (fun i hi => hne i (List.mem_cons_of_mem item hi))
        (Nat.lt_of_succ_lt_succ hfuel)
        (show (items.flatMap Item.bytes).length < size - (2 + item.payload.data.length) by omega)
      have hread := item.payload.read_append (be1 item.type.toNat ++
        be1 item.payload.data.length) (items.flatMap Item.bytes ++ (be1 0 ++ rest))
      have hdrop : (item.bytes ++ (items.flatMap Item.bytes ++ (be1 0 ++ rest))).drop
          (2 + item.payload.data.length) = items.flatMap Item.bytes ++ (be1 0 ++ rest) := by
        refine List.drop_left' ?_
        omega
      have h0 : get1 (item.bytes ++ (items.flatMap Item.bytes ++ (be1 0 ++ rest))) 0 =
          some item.type.toNat := by
        simp [Item.bytes]
      have h1 : get1 (item.bytes ++ (items.flatMap Item.bytes ++ (be1 0 ++ rest))) 1 =
          some item.payload.data.length := by
        rw [Item.bytes, List.append_assoc, List.append_assoc, get1_append (length_be1 _).le,
          length_be1, Nat.sub_self, get1_be1, hbyte]
      have h2 : Payload.read (2 ^ 8)
          (item.bytes ++ (items.flatMap Item.bytes ++ (be1 0 ++ rest))) 2
          item.payload.data.length = some item.payload := by
        rw [Item.bytes, List.append_assoc]
        simpa using hread
      rw [parseItems, if_neg (by omega), List.append_assoc, h0]
      simp only [Option.bind_eq_bind, Option.bind_some, if_neg htype, h1, h2, hdrop, hrest]
      rw [if_neg (by omega)]
      simp only [UInt8.ofNat_toNat, pure, Option.some.injEq, Prod.mk.injEq, true_and]
      omega

theorem parse_bytes (d : Description) (hne : ∀ item ∈ d.items, item.type ≠ 0)
    (rest : List UInt8) {size : Nat} (h : d.bytes.length ≤ size) :
    parse (d.bytes ++ rest) size = some (some (d, d.bytes.length)) := by
  have hpad := le_pad32 d.length
  rw [d.length_bytes] at h ⊢
  have hlength : 4 + (d.items.flatMap Item.bytes).length + 1 = d.length := by
    rw [Item.length_flatMap, length]
  have hcount : d.items.length ≤ (d.items.flatMap Item.bytes).length :=
    length_le_length_flatMap fun item _ => item.length_bytes ▸ Nat.succ_pos _
  have hdrop : (d.bytes ++ rest).drop 4 = d.items.flatMap Item.bytes ++
      (be1 0 ++ (List.replicate (pad32 d.length - d.length) 0 ++ rest)) := by
    rw [bytes, List.append_assoc, List.drop_left' (length_be4 _), List.replicate_succ,
      List.append_assoc]
    rfl
  have hssrc : get4 (d.bytes ++ rest) 0 = some d.ssrc.toNat := by
    rw [bytes, List.append_assoc, get4_be4, Nat.mod_eq_of_lt d.ssrc.toNat_lt]
  rw [parse, if_neg (by omega), hssrc, hdrop]
  simp only [Option.bind_eq_bind, Option.bind_some,
    parseItems_bytes hne (show d.items.length < size + 1 by omega)
      (show (d.items.flatMap Item.bytes).length < size - 4 by omega), hlength]
  simp

theorem types_of_parseItems {fuel size n : Nat} {items : List Item}
    (h : parseItems fuel data size = some (some (items, n))) : ∀ item ∈ items, item.type ≠ 0 := by
  induction fuel generalizing data size items n with
  | zero => cases h
  | succ fuel ih =>
    rw [parseItems] at h
    split at h
    · cases h
      exact fun item hitem => nomatch hitem
    · simp only [Option.bind_eq_bind, Option.bind_eq_some_iff] at h
      obtain ⟨type, htype, h⟩ := h
      split at h
      · cases h
        exact fun item hitem => nomatch hitem
      case isFalse hne =>
        simp only [Option.bind_eq_some_iff] at h
        obtain ⟨length, -, h⟩ := h
        split at h
        · cases h
        · simp only [Option.bind_eq_some_iff] at h
          obtain ⟨payload, -, r, hr, h⟩ := h
          cases r with
          | none => cases h
          | some r =>
            obtain ⟨items', len⟩ := r
            cases h
            intro item hitem
            rcases List.mem_cons.1 hitem with rfl | hitem
            · intro hzero
              have hz := congrArg UInt8.toNat hzero
              rw [UInt8.toNat_ofNat_of_lt' (get1_lt htype)] at hz
              exact hne hz
            · exact ih hr item hitem

theorem types_of_parse {size n : Nat} {d : Description}
    (h : parse data size = some (some (d, n))) : ∀ item ∈ d.items, item.type ≠ 0 := by
  unfold parse at h
  split at h
  · cases h
  · simp only [Option.bind_eq_bind, Option.bind_eq_some_iff] at h
    obtain ⟨ssrc, -, r, hr, h⟩ := h
    cases r with
    | none => cases h
    | some r =>
      cases h
      exact types_of_parseItems hr

end Description

variable (p : RTCPSDES)

theorem encodes_serialize {count size : Nat} :
    Encodes (seq (put (rtcpHeader count 202 size) ::
      p.descriptions.map Description.serialize))
      (rtcpHeader count 202 size ++ p.descriptions.flatMap Description.bytes) :=
  (encodes_put _).andThen (Encodes.seq_map fun d _ => d.encodes_serialize)

theorem length_flatMap (descriptions : List Description) :
    (descriptions.flatMap Description.bytes).length =
      (descriptions.map fun d => pad32 d.length).sum := by
  rw [List.length_flatMap]
  simp only [Description.length_bytes]

theorem sum_getSize {descriptions : List Description}
    (h : (descriptions.map fun d => pad32 d.length).sum < 2 ^ 32) :
    (descriptions.map Description.getSize).sum =
      (descriptions.map fun d => pad32 d.length).sum := by
  induction descriptions with
  | nil => rfl
  | cons d descriptions ih =>
    rw [List.map_cons, List.sum_cons] at h
    rw [List.map_cons, List.sum_cons, List.map_cons, List.sum_cons, ih (by omega),
      Description.getSize, Nat.mod_eq_of_lt (by omega)]

theorem sum_mod (descriptions : List Description) :
    (descriptions.map fun d => pad32 d.length).sum % 4 = 0 := by
  induction descriptions with
  | nil => rfl
  | cons d descriptions ih =>
    have := pad32_mod d.length
    rw [List.map_cons, List.sum_cons]
    omega

theorem parse_bytes {count size : Nat} (hfit : (lengthField size % 2 ^ 16 + 1) * 4 = size)
    (hcount : count % 2 ^ 5 ≠ 0 ∨ p.descriptions = [])
    (hsize : 4 + (p.descriptions.flatMap Description.bytes).length = size)
    (hne : ∀ d ∈ p.descriptions, ∀ item ∈ d.items, item.type ≠ 0) :
    ∃ n, parse (rtcpHeader count 202 size ++ p.descriptions.flatMap Description.bytes) size =
      some (some (p, n)) := by
  have hpos : ∀ d ∈ p.descriptions, 0 < d.bytes.length := by
    intro d _
    have := le_pad32 d.length
    rw [d.length_bytes]
    unfold Description.length at this ⊢
    omega
  have hdrop : (rtcpHeader count 202 size ++ p.descriptions.flatMap Description.bytes).drop 4 =
      p.descriptions.flatMap Description.bytes := List.drop_left' (length_rtcpHeader _ _ _)
  have hrest : size - 4 = (p.descriptions.flatMap Description.bytes).length := by omega
  have hall : parseAll Description.parse size (p.descriptions.flatMap Description.bytes)
      (p.descriptions.flatMap Description.bytes).length =
        some (some (p.descriptions.map id, (p.descriptions.flatMap Description.bytes).length)) :=
    parseAll_flatMap (fun d hd => ⟨hpos d hd, fun rest n hn => d.parse_bytes (hne d hd) rest hn⟩)
      ((length_le_length_flatMap hpos).trans (by omega))
  rw [parse, read_rtcpHeader]
  simp only [Option.bind_eq_bind, Option.bind_some, if_neg (not_lt_headerLength hfit), hdrop,
    hrest, hall, List.map_id]
  split
  case isTrue hzero =>
    cases p with
    | mk descriptions =>
      have hnil : descriptions = [] := hcount.resolve_left fun h => h hzero
      exact ⟨4, by rw [hnil]; rfl⟩
  case isFalse => exact ⟨_, rfl⟩

theorem of_parse {count size n len m : Nat}
    (hdata : RtcpCommon.read data = some ⟨count % 2 ^ 5, 0, 2, n, len⟩)
    (h : parse data size = some (some (p, m))) :
    (count % 2 ^ 5 ≠ 0 ∨ p.descriptions = []) ∧
      ∀ d ∈ p.descriptions, ∀ item ∈ d.items, item.type ≠ 0 := by
  rw [parse, hdata] at h
  simp only [Option.bind_eq_bind, Option.bind_some] at h
  split at h
  · cases h
  · split at h
    · cases h
      exact ⟨Or.inr rfl, fun d hd => nomatch hd⟩
    case isFalse hcount =>
      simp only [Option.bind_eq_some_iff] at h
      obtain ⟨r, hr, h⟩ := h
      cases r with
      | none => cases h
      | some r =>
        cases h
        exact ⟨Or.inl hcount,
          forall_mem_of_parseAll (fun _ _ _ _ => Description.types_of_parse) hr⟩

theorem roundTripsVia_iff :
    RoundTripsVia p.getSize p.serialize parse p ↔
      (p.descriptions.length % 2 ^ 5 ≠ 0 ∨ p.descriptions = []) ∧
        (∀ d ∈ p.descriptions, ∀ item ∈ d.items, item.type ≠ 0) ∧
          4 + (p.descriptions.map fun d => pad32 d.length).sum ≤ 2 ^ 18 := by
  rw [serialize, McuMediaServer.roundTripsVia_iff p.encodes_serialize, length_flatMap]
  constructor
  · intro ⟨hsize, _, hle, n, hparse⟩
    obtain ⟨hcount, hne⟩ := p.of_parse (read_rtcpHeader _ _ _ _) hparse
    exact ⟨hcount, hne, by omega⟩
  · intro ⟨hcount, hne, hle⟩
    have hmod := sum_mod p.descriptions
    have hsize : 4 + (p.descriptions.map fun d => pad32 d.length).sum = p.getSize := by
      rw [getSize, sum_getSize (by omega)]
      omega
    have hfit := (headerLength_eq_iff p.getSize).2 (by omega)
    refine ⟨hsize, by omega, by omega, ?_⟩
    exact p.parse_bytes hfit hcount (by rw [length_flatMap, hsize]) hne

end RTCPSDES

end McuMediaServer
