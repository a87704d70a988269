import McuMediaServer.Base.Run
import Mathlib.Algebra.BigOperators.Group.List.Basic
import Mathlib.Algebra.Order.BigOperators.Group.List
import Mathlib.Algebra.Order.Ring.Nat

/-!
# The sliding window

`Acumulator` counts what was added in the last `window` milliseconds: it keeps the values with their
times in a queue and their sum next to it. A `Reset` forgets neither of the two, and 0 stands for a
time that is not set: the first value sets both the first and the last time, and `GetAverage` divides
by their difference.

`accumulates_iff` says of which sequences of calls everything is right after each of them.
-/

namespace McuMediaServer

open StepRun

/-- Reference: `acumulator.h:14`. -/
structure Acumulator where
  /-- The times and the values, the oldest first. -/
  values : List (Nat × Nat) := []
  window : Nat
  inWindow : Bool := false
  acumulated : Nat := 0
  instant : Nat := 0
  max : Nat := 0
  min : Nat := 2 ^ 64 - 1
  first : Nat := 0
  last : Nat := 0
  deriving DecidableEq, Repr

namespace Acumulator

/-- Reference: `acumulator.h:44`. -/
def reset (a : Acumulator) (now : Nat) : Acumulator :=
  { a with acumulated := 0, max := 0, min := 2 ^ 64 - 1, first := now, last := 0, inWindow := false }

/-- Reference: `acumulator.h:17`. -/
def new (window : Nat) : Acumulator := reset { window } 0

/-- Reference: `acumulator.h:38`. -/
def resetMinMax (a : Acumulator) : Acumulator := { a with max := 0, min := 2 ^ 64 - 1 }

/-- Old values are erased from the queue and subtracted from the sum. There is no value when the
queue runs empty: the next front is nothing. Reference: `acumulator.h:63`. -/
def erase (window now : Nat) :
    List (Nat × Nat) → Nat → Bool → Option (List (Nat × Nat) × Nat × Bool)
  | [], _, _ => none
  | (time, val) :: values, instant, inWindow =>
    if (time + window) % 2 ^ 64 < now then
      erase window now values ((instant + 2 ^ 64 - val) % 2 ^ 64) true
    else
      some ((time, val) :: values, instant, inWindow)

/-- Reference: `acumulator.h:54`. -/
def update (a : Acumulator) (now val : Nat) : Option Acumulator := do
  let acumulated := (a.acumulated + val) % 2 ^ 64
  let instant := (a.instant + val) % 2 ^ 64
  let (values, instant, inWindow) ← erase a.window now (a.values ++ [(now, val)]) instant a.inWindow
  some { a with
    values, inWindow, acumulated, instant
    first := if a.first = 0 then now else a.first
    last := now
    max := if instant > a.max then instant else a.max
    min := if inWindow && instant < a.min then instant else a.min }

/-- Reference: `acumulator.h:25`. -/
def getDiff (a : Acumulator) : Nat := (a.last + 2 ^ 64 - a.first) % 2 ^ 64

/-- The integer division of the averages. There is no value for a division by zero. -/
def perSecond (value time : Nat) : Option Nat :=
  if time = 0 then none else some (value * 1000 % 2 ^ 64 / time)

/-- Reference: `acumulator.h:33`. -/
def getInstantAvg (a : Acumulator) : Option Nat := perSecond a.instant a.window

/-- Reference: `acumulator.h:34`. -/
def getAverage (a : Acumulator) : Option Nat := perSecond a.acumulated a.getDiff

/-- Reference: `acumulator.h:35`. -/
def getMinAvg (a : Acumulator) : Option Nat := perSecond a.min a.window

/-- Reference: `acumulator.h:36`. -/
def getMaxAvg (a : Acumulator) : Option Nat := perSecond a.max a.window

/-! ## What it should count -/

/-- The value is not older than the window. -/
def InWindow (window now : Nat) (v : Nat × Nat) : Prop := now ≤ v.1 + window

instance (window now : Nat) (v : Nat × Nat) : Decidable (InWindow window now v) :=
  inferInstanceAs (Decidable (_ ≤ _))

/-- The values in the window. -/
def windowed (window now : Nat) (values : List (Nat × Nat)) : List (Nat × Nat) :=
  values.filter fun v => InWindow window now v

/-- The sum of values. -/
def total (values : List (Nat × Nat)) : Nat := (values.map Prod.snd).sum

/-- A whole window has passed since a value was added. -/
def Passed (window now : Nat) (values : List (Nat × Nat)) : Prop :=
  ∃ v ∈ values, ¬InWindow window now v

instance (window now : Nat) (values : List (Nat × Nat)) : Decidable (Passed window now values) :=
  inferInstanceAs (Decidable (∃ v ∈ values, ¬InWindow window now v))

/-! ### Sums and windows -/

theorem total_cons (v : Nat × Nat) (values : List (Nat × Nat)) :
    total (v :: values) = v.2 + total values := by
  rw [total, List.map_cons, List.sum_cons, total]

theorem total_append (xs ys : List (Nat × Nat)) : total (xs ++ ys) = total xs + total ys := by
  rw [total, List.map_append, List.sum_append, total, total]

variable {values : List (Nat × Nat)}

theorem total_eq_zero (h : ∀ v ∈ values, v.2 = 0) : total values = 0 := by
  refine List.sum_eq_zero fun x hx => ?_
  obtain ⟨v, hv, rfl⟩ := List.mem_map.1 hx
  exact h v hv

theorem eq_zero_of_total (h : total values = 0) : ∀ v ∈ values, v.2 = 0 := by
  intro v hv
  have hle : v.2 ≤ total values := List.single_le_sum (by simp) _ (List.mem_map_of_mem hv)
  omega

theorem total_filter_le (p : Nat × Nat → Bool) (values : List (Nat × Nat)) :
    total (values.filter p) ≤ total values := by
  induction values with
  | nil => exact le_rfl
  | cons v values ih =>
    rw [List.filter_cons, total_cons]
    split
    · rw [total_cons]
      omega
    · omega

theorem windowed_append (window now : Nat) (xs ys : List (Nat × Nat)) :
    windowed window now (xs ++ ys) = windowed window now xs ++ windowed window now ys :=
  List.filter_append ..

theorem windowed_windowed {window now now' : Nat} (h : now ≤ now') (values : List (Nat × Nat)) :
    windowed window now' (windowed window now values) = windowed window now' values := by
  rw [windowed, windowed, windowed, List.filter_filter]
  refine List.filter_congr fun v _ => ?_
  rw [Bool.eq_iff_iff, Bool.and_eq_true, decide_eq_true_iff, decide_eq_true_iff, InWindow, InWindow]
  omega

variable {window now : Nat}

theorem windowed_cons_of_inWindow {v : Nat × Nat}
    (hsorted : ∀ w ∈ values, v.1 ≤ w.1) (h : InWindow window now v) :
    windowed window now (v :: values) = v :: values := by
  refine List.filter_eq_self.2 fun w hw => decide_eq_true ?_
  rcases List.mem_cons.1 hw with rfl | hw
  · exact h
  · have hle := hsorted w hw
    rw [InWindow] at h ⊢
    omega

/-! ### The loop that erases old values -/

/-- Times and values in a queue. -/
structure Queued (now : Nat) (values : List (Nat × Nat)) : Prop where
  sorted : values.Pairwise fun v w => v.1 ≤ w.1
  le : ∀ v ∈ values, v.1 ≤ now

theorem erase_spec (hnow : now < 2 ^ 64) (hq : Queued now values)
    (hend : ∃ v ∈ values, InWindow window now v ∧ v.1 + window < 2 ^ 64)
    (hsum : total values < 2 ^ 64) (inWindow : Bool) :
    erase window now values (total values) inWindow =
      some (windowed window now values, total (windowed window now values),
        inWindow || decide (Passed window now values)) := by
  induction values generalizing inWindow with
  | nil =>
    obtain ⟨v, hv, -⟩ := hend
    cases hv
  | cons v values ih =>
    obtain ⟨time, val⟩ := v
    obtain ⟨hfirst, hrest⟩ := List.pairwise_cons.1 hq.sorted
    have htime : time ≤ now := hq.le _ List.mem_cons_self
    rw [total_cons] at hsum
    dsimp only at hsum
    rcases Classical.em (InWindow window now (time, val)) with hin | hout
    · have hfits : time + window < 2 ^ 64 := by
        obtain ⟨w, hw, -, hw'⟩ := hend
        rcases List.mem_cons.1 hw with rfl | hw
        · exact hw'
        · have hle := hfirst w hw
          dsimp only at hle
          omega
      have hnone : ¬Passed window now ((time, val) :: values) := by
        rintro ⟨w, hw, hnot⟩
        rw [← windowed_cons_of_inWindow hfirst hin] at hw
        exact hnot (of_decide_eq_true (List.mem_filter.1 hw).2)
      rw [erase, Nat.mod_eq_of_lt hfits, if_neg (not_lt.2 hin),
        windowed_cons_of_inWindow hfirst hin, decide_eq_false hnone, Bool.or_false]
    · have hout' : time + window < now := not_le.1 hout
      have hpassed : Passed window now ((time, val) :: values) :=
        ⟨_, List.mem_cons_self, hout⟩
      have hend' : ∃ v ∈ values, InWindow window now v ∧ v.1 + window < 2 ^ 64 := by
        obtain ⟨w, hw, hin, hw'⟩ := hend
        rcases List.mem_cons.1 hw with rfl | hw
        · exact absurd hin hout
        · exact ⟨w, hw, hin, hw'⟩
      have hdrop : windowed window now ((time, val) :: values) = windowed window now values :=
        List.filter_cons_of_neg (by simpa using hout)
      have hsub : (total ((time, val) :: values) + 2 ^ 64 - val) % 2 ^ 64 = total values := by
        rw [total_cons]
        dsimp only
        rw [show val + total values + 2 ^ 64 - val = total values + 2 ^ 64 by omega,
          Nat.add_mod_right, Nat.mod_eq_of_lt (by omega)]
      rw [erase, Nat.mod_eq_of_lt (by omega), if_pos hout', hsub,
        ih ⟨hrest, fun w hw => hq.le w (List.mem_cons_of_mem _ hw)⟩ hend' (by omega), hdrop,
        decide_eq_true hpassed, Bool.or_true, Bool.true_or]

theorem erase_eq_none (hwindow : window < 2 ^ 32) (hnow : now < 2 ^ 64)
    (hle : ∀ v ∈ values, v.1 ≤ now)
    (hend : ¬∃ v ∈ values, InWindow window now v ∧ v.1 + window < 2 ^ 64) (instant : Nat)
    (inWindow : Bool) : erase window now values instant inWindow = none := by
  induction values generalizing instant inWindow with
  | nil => rfl
  | cons v values ih =>
    obtain ⟨time, val⟩ := v
    have htime : time ≤ now := hle _ List.mem_cons_self
    have hold : (time + window) % 2 ^ 64 < now := by
      rcases Nat.lt_or_ge (time + window) (2 ^ 64) with hlt | hge
      · rw [Nat.mod_eq_of_lt hlt]
        exact not_le.1 fun hin => hend ⟨_, List.mem_cons_self, hin, hlt⟩
      · rw [Nat.mod_eq_sub_mod hge, Nat.mod_eq_of_lt (by omega)]
        omega
    rw [erase, if_pos hold]
    refine ih (fun w hw => hle w (List.mem_cons_of_mem _ hw)) ?_ _ _
    rintro ⟨w, hw, hin⟩
    exact hend ⟨w, List.mem_cons_of_mem _ hw, hin⟩

/-! ### Updates and averages -/

theorem isSome_perSecond (value time : Nat) : (perSecond value time).isSome ↔ time ≠ 0 := by
  rw [perSecond]
  split <;> simp [*]

/-- What an `Update` does, once the loop has stopped. -/
theorem update_eq_some {a a' : Acumulator} {now val : Nat} :
    a.update now val = some a' ↔ ∃ values instant inWindow,
      erase a.window now (a.values ++ [(now, val)]) ((a.instant + val) % 2 ^ 64) a.inWindow =
        some (values, instant, inWindow) ∧
      a' = { a with
        values, inWindow, instant
        acumulated := (a.acumulated + val) % 2 ^ 64
        first := if a.first = 0 then now else a.first
        last := now
        max := if instant > a.max then instant else a.max
        min := if inWindow && instant < a.min then instant else a.min } := by
  rw [update]
  constructor
  · intro h
    obtain ⟨⟨values, instant, inWindow⟩, herase, h⟩ := Option.bind_eq_some_iff.1 h
    exact ⟨values, instant, inWindow, herase, (Option.some.inj h).symm⟩
  · rintro ⟨values, instant, inWindow, herase, rfl⟩
    rw [herase]
    rfl

/-- There is some time between the first value and an `Update` when the first time is set and is
another one. -/
theorem diff_ne_zero {first now : Nat} (hnow : now < 2 ^ 64) (hle : first ≤ now) :
    (now + 2 ^ 64 - if first = 0 then now else first) % 2 ^ 64 ≠ 0 ↔ first ≠ 0 ∧ first ≠ now := by
  split
  case isTrue hzero =>
    rw [Nat.add_sub_cancel_left, Nat.mod_self]
    exact iff_of_false (fun h => h rfl) fun h => h.1 hzero
  case isFalse hset =>
    rw [show now + 2 ^ 64 - first = now - first + 2 ^ 64 by omega, Nat.add_mod_right,
      Nat.mod_eq_of_lt (by omega)]
    omega

end Acumulator

/-- What a client can call. -/
inductive AcumulatorCall where
  | update (now : UInt64) (val : UInt32)
  | reset (now : UInt64)
  | resetMinMax
  deriving DecidableEq, Repr

/-- The time of a call. -/
def AcumulatorCall.time? : AcumulatorCall → Option Nat
  | .update now _ | .reset now => some now.toNat
  | .resetMinMax => none

/-- An accumulator next to what was called: the time of the last call, the values added since the
last `Reset`, the sums that were returned since the extremes were reset, each with whether a whole
window had passed, and whether the last call was an `Update`. -/
structure Acumulation where
  acumulator : Acumulator
  now : Nat := 0
  added : List (Nat × Nat) := []
  returned : List (Nat × Bool) := []
  updated : Bool := false

namespace Acumulation

open Acumulator

/-- There is no value when the program fails. -/
def call (o : Acumulation) : AcumulatorCall → Option Acumulation
  | .update now val => do
    let acumulator ← o.acumulator.update now.toNat val.toNat
    let added := o.added ++ [(now.toNat, val.toNat)]
    some {
      acumulator, added
      now := now.toNat
      returned := o.returned ++
        [(acumulator.instant, decide (Passed acumulator.window now.toNat added))]
      updated := true }
  | .reset now => some { acumulator := o.acumulator.reset now.toNat, now := now.toNat }
  | .resetMinMax =>
    some { o with acumulator := o.acumulator.resetMinMax, returned := [], updated := false }

/-- The sums are those of the values added, the extremes bound the sums returned, those from when a
whole window has passed in the case of the minimum, and no average divides by zero behind an
`Update`. -/
structure Right (o : Acumulation) : Prop where
  instant : o.acumulator.instant = total (windowed o.acumulator.window o.now o.added)
  acumulated : o.acumulator.acumulated = total o.added
  max : ∀ r ∈ o.returned, r.1 ≤ o.acumulator.max
  min : ∀ r ∈ o.returned, r.2 → o.acumulator.min ≤ r.1
  averages : o.updated → o.acumulator.getInstantAvg.isSome ∧ o.acumulator.getAverage.isSome ∧
    o.acumulator.getMinAvg.isSome ∧ o.acumulator.getMaxAvg.isSome

/-- Calls that the accumulator can take. For an `Update` there is a window, the time is another one
than the first, which is set, the sum of the values can be counted, and so can the end of the
window of some value that is in it; for a `Reset` the sum is zero. -/
def Accepts (o : Acumulation) : AcumulatorCall → Prop
  | .update now val =>
    o.acumulator.window ≠ 0 ∧ o.acumulator.first ≠ 0 ∧ o.acumulator.first ≠ now.toNat ∧
      o.acumulator.acumulated + val.toNat < 2 ^ 64 ∧
      ∃ v ∈ o.acumulator.values ++ [(now.toNat, val.toNat)],
        InWindow o.acumulator.window now.toNat v ∧ v.1 + o.acumulator.window < 2 ^ 64
  | .reset _ => o.acumulator.instant = 0
  | .resetMinMax => True

/-! ## Runs -/

/-- The accumulator after a sequence of calls. -/
def calls (window : UInt32) (cs : List AcumulatorCall) : Option Acumulation :=
  cs.foldlM call { acumulator := Acumulator.new window.toNat }

/-- What holds as long as everything is right. In front of the values that were added since the last
`Reset` there may be older ones in the queue, which are zero. -/
structure Sound (o : Acumulation) : Prop where
  right : o.Right
  window_lt : o.acumulator.window < 2 ^ 32
  now_lt : o.now < 2 ^ 64
  first_le : o.acumulator.first ≤ o.now
  fits : total o.added < 2 ^ 64
  queued : Queued o.now o.acumulator.values
  values : ∃ old, o.acumulator.values = old ++ windowed o.acumulator.window o.now o.added ∧
    ∀ v ∈ old, v.2 = 0
  passed : Passed o.acumulator.window o.now o.added → o.acumulator.inWindow = true

theorem sound_new (window : UInt32) : Sound { acumulator := Acumulator.new window.toNat } where
  right :=
    { instant := rfl
      acumulated := rfl
      max := nofun
      min := nofun
      averages := nofun }
  window_lt := window.toNat_lt
  now_lt := Nat.two_pow_pos 64
  first_le := le_rfl
  fits := Nat.two_pow_pos 64
  queued := ⟨.nil, nofun⟩
  values := ⟨[], rfl, nofun⟩
  passed := fun ⟨_, hv, _⟩ => nomatch hv

variable {now val : Nat}

section Calls

variable {o o' : Acumulation} (h : Sound o)

include h

theorem Sound.instant_eq : o.acumulator.instant = total o.acumulator.values := by
  obtain ⟨old, hvalues, hold⟩ := h.values
  rw [hvalues, total_append, total_eq_zero hold, Nat.zero_add, h.right.instant]

theorem Sound.instant_le : o.acumulator.instant ≤ o.acumulator.acumulated := by
  rw [h.right.instant, h.right.acumulated]
  exact total_filter_le _ _

/-- A `Reset` when the sum is zero. -/
theorem sound_reset {now : Nat} (hnow : now < 2 ^ 64) (hle : o.now ≤ now)
    (hzero : o.acumulator.instant = 0) :
    Sound { acumulator := o.acumulator.reset now, now := now } where
  right :=
    { instant := hzero
      acumulated := rfl
      max := nofun
      min := nofun
      averages := nofun }
  window_lt := h.window_lt
  now_lt := hnow
  first_le := le_rfl
  fits := Nat.two_pow_pos 64
  queued := ⟨h.queued.sorted, fun v hv => Nat.le_trans (h.queued.le v hv) hle⟩
  values := by
    refine ⟨o.acumulator.values, (List.append_nil _).symm, ?_⟩
    rw [h.instant_eq] at hzero
    exact eq_zero_of_total hzero
  passed := fun ⟨_, hv, _⟩ => nomatch hv

theorem sound_resetMinMax :
    Sound { o with acumulator := o.acumulator.resetMinMax, returned := [], updated := false } where
  right :=
    { instant := h.right.instant
      acumulated := h.right.acumulated
      max := nofun
      min := nofun
      averages := nofun }
  window_lt := h.window_lt
  now_lt := h.now_lt
  first_le := h.first_le
  fits := h.fits
  queued := h.queued
  values := h.values
  passed := h.passed

theorem Sound.queued_append {now : Nat} (hle : o.now ≤ now) (val : Nat) :
    Queued now (o.acumulator.values ++ [(now, val)]) where
  sorted := by
    refine List.pairwise_append.2 ⟨h.queued.sorted, List.pairwise_singleton _ _, ?_⟩
    intro v hv w hw
    rw [List.mem_singleton.1 hw]
    exact Nat.le_trans (h.queued.le v hv) hle
  le := by
    intro v hv
    rcases List.mem_append.1 hv with hv | hv
    · exact Nat.le_trans (h.queued.le v hv) hle
    · rw [List.mem_singleton.1 hv]

theorem Sound.windowed_append {now : Nat} (hle : o.now ≤ now) (val : Nat) :
    ∃ old, windowed o.acumulator.window now (o.acumulator.values ++ [(now, val)]) =
        old ++ windowed o.acumulator.window now (o.added ++ [(now, val)]) ∧
      ∀ v ∈ old, v.2 = 0 := by
  obtain ⟨old, hvalues, hold⟩ := h.values
  refine ⟨windowed o.acumulator.window now old, ?_, fun v hv => hold v (List.mem_filter.1 hv).1⟩
  rw [hvalues, Acumulator.windowed_append, Acumulator.windowed_append, windowed_windowed hle,
    Acumulator.windowed_append, List.append_assoc]

theorem Sound.inWindow (hpassed : Passed o.acumulator.window now (o.added ++ [(now, val)])) :
    o.acumulator.inWindow = true ∨
      Passed o.acumulator.window now (o.acumulator.values ++ [(now, val)]) := by
  obtain ⟨v, hv, hnot⟩ := hpassed
  rcases List.mem_append.1 hv with hv | hv
  · rcases Classical.em (InWindow o.acumulator.window o.now v) with hin | hout
    · obtain ⟨old, hvalues, -⟩ := h.values
      refine .inr ⟨v, List.mem_append_left _ ?_, hnot⟩
      rw [hvalues]
      exact List.mem_append_right _ (List.mem_filter.2 ⟨hv, decide_eq_true hin⟩)
    · exact .inl (h.passed ⟨v, hv, hout⟩)
  · exact .inr ⟨v, List.mem_append_right _ hv, hnot⟩

/-- An `Update` that the accumulator can take. -/
theorem sound_update (hnow : now < 2 ^ 64) (hle : o.now ≤ now) (hwindow : o.acumulator.window ≠ 0)
    (hfirst : o.acumulator.first ≠ 0 ∧ o.acumulator.first ≠ now)
    (hfits : o.acumulator.acumulated + val < 2 ^ 64)
    (hend : ∃ v ∈ o.acumulator.values ++ [(now, val)],
      InWindow o.acumulator.window now v ∧ v.1 + o.acumulator.window < 2 ^ 64) :
    ∃ a, o.acumulator.update now val = some a ∧
      Sound {
        acumulator := a, now
        added := o.added ++ [(now, val)]
        returned := o.returned ++
          [(a.instant, decide (Passed a.window now (o.added ++ [(now, val)])))]
        updated := true } := by
  have hinstant := h.instant_le
  have htotal : total (o.acumulator.values ++ [(now, val)]) = o.acumulator.instant + val := by
    rw [total_append, ← h.instant_eq]
    rfl
  have hadded : total (o.added ++ [(now, val)]) = o.acumulator.acumulated + val := by
    rw [total_append, ← h.right.acumulated]
    rfl
  have hqueued := h.queued_append hle val
  have herase := erase_spec hnow hqueued hend (by omega) o.acumulator.inWindow
  rw [htotal, ← Nat.mod_eq_of_lt (show o.acumulator.instant + val < 2 ^ 64 by omega)] at herase
  obtain ⟨old, hleft, hold⟩ := h.windowed_append hle val
  refine ⟨_, update_eq_some.2 ⟨_, _, _, herase, rfl⟩, ?_⟩
  have hsum : total (windowed o.acumulator.window now (o.acumulator.values ++ [(now, val)])) =
      total (windowed o.acumulator.window now (o.added ++ [(now, val)])) := by
    rw [hleft, total_append, total_eq_zero hold, Nat.zero_add]
  have hmax : ∀ r ∈ o.returned, r.1 ≤ o.acumulator.max := h.right.max
  have hmin : ∀ r ∈ o.returned, r.2 → o.acumulator.min ≤ r.1 := h.right.min
  have hdiff := (diff_ne_zero hnow (Nat.le_trans h.first_le hle)).2 hfirst
  refine {
    right := {
      instant := hsum
      acumulated := ?_
      max := ?_
      min := ?_
      averages := fun _ => ⟨(isSome_perSecond _ _).2 hwindow, (isSome_perSecond _ _).2 hdiff,
        (isSome_perSecond _ _).2 hwindow, (isSome_perSecond _ _).2 hwindow⟩ }
    window_lt := h.window_lt
    now_lt := hnow
    first_le := ?_
    fits := hadded.trans_lt hfits
    queued := ⟨hqueued.sorted.filter _, fun v hv => hqueued.le v (List.mem_filter.1 hv).1⟩
    values := ⟨old, hleft, hold⟩
    passed := ?_ }
  · rw [hadded]
    exact Nat.mod_eq_of_lt hfits
  · intro r hr
    dsimp only at hr ⊢
    rcases List.mem_append.1 hr with hr | hr
    · have := hmax r hr
      split <;> omega
    · rw [List.mem_singleton.1 hr]
      dsimp only
      split <;> omega
  · intro r hr hpassed
    dsimp only at hr ⊢
    rcases List.mem_append.1 hr with hr | hr
    · have := hmin r hr hpassed
      split
      case isTrue hlt =>
        rw [Bool.and_eq_true, decide_eq_true_iff] at hlt
        omega
      case isFalse => exact this
    · rw [List.mem_singleton.1 hr] at hpassed ⊢
      dsimp only at hpassed ⊢
      have hin := h.inWindow (of_decide_eq_true hpassed)
      rw [← decide_eq_true_iff (p := Passed _ _ _), ← Bool.or_eq_true] at hin
      rw [hin, Bool.true_and]
      split
      case isTrue => exact le_rfl
      case isFalse hge => exact not_lt.1 fun hlt => hge (decide_eq_true hlt)
  · have := h.first_le
    dsimp only
    split <;> omega
  · intro hpassed
    have hin := h.inWindow hpassed
    rw [← decide_eq_true_iff (p := Passed _ _ _), ← Bool.or_eq_true] at hin
    exact hin

/-- An `Update` behind which everything is right is one that the accumulator can take. -/
theorem accepts_of_update (hnow : now < 2 ^ 64) (hle : o.now ≤ now) {a : Acumulator}
    (ha : o.acumulator.update now val = some a)
    (hacumulated : a.acumulated = total (o.added ++ [(now, val)]))
    (hinstant : a.getInstantAvg.isSome) (haverage : a.getAverage.isSome) :
    o.acumulator.window ≠ 0 ∧ o.acumulator.first ≠ 0 ∧ o.acumulator.first ≠ now ∧
      o.acumulator.acumulated + val < 2 ^ 64 ∧
      ∃ v ∈ o.acumulator.values ++ [(now, val)],
        InWindow o.acumulator.window now v ∧ v.1 + o.acumulator.window < 2 ^ 64 := by
  obtain ⟨values, instant, inWindow, herase, rfl⟩ := update_eq_some.1 ha
  have hfirst := (diff_ne_zero hnow (Nat.le_trans h.first_le hle)).1
    ((isSome_perSecond _ _).1 haverage)
  refine ⟨(isSome_perSecond _ _).1 hinstant, hfirst.1, hfirst.2, ?_, by_contra fun hend => ?_⟩
  · have hadded : total (o.added ++ [(now, val)]) = o.acumulator.acumulated + val := by
      rw [total_append, ← h.right.acumulated]
      rfl
    rw [← hadded, ← hacumulated]
    exact Nat.mod_lt _ (Nat.two_pow_pos 64)
  · have hnone := erase_eq_none h.window_lt hnow (h.queued_append hle val).le hend
      ((o.acumulator.instant + val) % 2 ^ 64) o.acumulator.inWindow
    rw [hnone] at herase
    cases herase

end Calls

/-- The time of a call is not before the one of the call before. -/
def InOrder (o : Acumulation) (c : AcumulatorCall) : Prop := ∀ now ∈ c.time?, o.now ≤ now

variable {c : AcumulatorCall}

theorem call_of_accepts {o : Acumulation} (h : Sound o) (hle : InOrder o c)
    (haccepts : o.Accepts c) : ∃ o', o.call c = some o' ∧ Sound o' := by
  cases c with
  | update now val =>
    obtain ⟨hwindow, hfirst, hnow, hfits, hend⟩ := haccepts
    obtain ⟨a, ha, hsound⟩ :=
      sound_update h now.toNat_lt (hle _ rfl) hwindow ⟨hfirst, hnow⟩ hfits hend
    refine ⟨_, ?_, hsound⟩
    rw [call, ha]
    rfl
  | reset now => exact ⟨_, rfl, sound_reset h now.toNat_lt (hle _ rfl) haccepts⟩
  | resetMinMax => exact ⟨_, rfl, sound_resetMinMax h⟩

theorem accepts_of_call {o o' : Acumulation} (h : Sound o) (hle : InOrder o c)
    (hcall : o.call c = some o') (hright : o'.Right) : o.Accepts c := by
  cases c with
  | update now val =>
    obtain ⟨a, ha, hcall⟩ := Option.bind_eq_some_iff.1 hcall
    obtain rfl := Option.some.inj hcall
    obtain ⟨hinstant, haverage, -⟩ := hright.averages rfl
    exact accepts_of_update h now.toNat_lt (hle _ rfl) ha hright.acumulated hinstant haverage
  | reset now =>
    obtain rfl := Option.some.inj hcall
    exact hright.instant
  | resetMinMax => trivial

theorem now_of_call {o o' : Acumulation} (h : o.call c = some o') : o'.now = c.time?.getD o.now := by
  cases c with
  | update now val =>
    obtain ⟨a, -, h⟩ := Option.bind_eq_some_iff.1 h
    rw [← Option.some.inj h]
    rfl
  | reset now | resetMinMax =>
    rw [← Option.some.inj h]
    rfl

theorem meets_inOrder {cs : List AcumulatorCall} {o : Acumulation}
    (hsorted : (cs.filterMap AcumulatorCall.time?).Pairwise (· ≤ ·))
    (hle : ∀ now ∈ cs.filterMap AcumulatorCall.time?, o.now ≤ now) :
    MeetsM call InOrder o cs := by
  induction cs generalizing o with
  | nil => trivial
  | cons c cs ih =>
    cases htime : c.time? with
    | none =>
      rw [List.filterMap_cons_none htime] at hsorted hle
      refine ⟨fun now hnow => ?_, fun o' ho' => ih hsorted ?_⟩
      · rw [htime] at hnow
        cases hnow
      · rw [now_of_call ho', htime]
        exact hle
    | some time =>
      rw [List.filterMap_cons_some htime] at hsorted hle
      obtain ⟨hfirst, hrest⟩ := List.pairwise_cons.1 hsorted
      refine ⟨fun now hnow => ?_, fun o' ho' => ih hrest ?_⟩
      · rw [htime] at hnow
        rw [← Option.some.inj hnow]
        exact hle time List.mem_cons_self
      · rw [now_of_call ho', htime]
        exact hfirst

/-- **The sliding window.** After each of a sequence of calls in the order of their times everything
is right exactly as long as the accumulator can take each of them. -/
theorem accumulates_iff (window : UInt32) (cs : List AcumulatorCall)
    (hsorted : (cs.filterMap AcumulatorCall.time?).Pairwise (· ≤ ·)) :
    (∀ bs, bs <+: cs → ∃ o, calls window bs = some o ∧ o.Right) ↔
      MeetsM call Accepts { acumulator := Acumulator.new window.toNat } cs :=
  forall_prefix_foldlM_iff_meetsM_within (fun _ h => h.right)
    (fun _ _ h hle => call_of_accepts h hle) (fun _ _ _ h hle => accepts_of_call h hle)
    (sound_new window) cs (meets_inOrder hsorted fun _ _ => Nat.zero_le _)

/-- A value of 5 that is added a millisecond behind a `Reset`. -/
theorem accumulates_update :
    (∀ bs, bs <+: [AcumulatorCall.reset 1, .update 2 5] → ∃ o, calls 1000 bs = some o ∧ o.Right) ↔
      MeetsM call Accepts { acumulator := Acumulator.new (1000 : UInt32).toNat }
        [.reset 1, .update 2 5] :=
  accumulates_iff 1000 _ (by decide)

/-- Behind the next `Reset` it is still there. -/
theorem not_right_reset :
    ¬∀ bs, bs <+: [AcumulatorCall.reset 1, .update 2 5, .reset 3] →
      ∃ o, calls 1000 bs = some o ∧ o.Right := by
  intro h
  obtain ⟨o, ho, hright⟩ := h _ (List.prefix_refl _)
  have hfive : (calls 1000 [.reset 1, .update 2 5, .reset 3]).map
      (fun o => (o.acumulator.instant, o.added)) = some (5, []) := by
    decide
  rw [ho, Option.map_some, Option.some_inj, Prod.mk.injEq] at hfive
  have hinstant := hright.instant
  rw [hfive.1, hfive.2] at hinstant
  cases hinstant

end Acumulation

end McuMediaServer
