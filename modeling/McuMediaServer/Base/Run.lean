import Mathlib.Data.Finset.Card
import Mathlib.Data.List.Induction
import Mathlib.Data.Nat.Find
import Mathlib.Tactic.Common

/-!
# Runs of a step function

A component that is driven from outside is a state `σ` and a step function `σ → α → σ`, and what a
client can do to it is a list of inputs. This file fixes the three notions every such argument
uses: the state a run reaches, the runs all of whose steps satisfy a condition on the state they
start from, and the two induction rules that turn a step lemma into a statement about all runs.

The rules carry the *history* of the run next to the state, because the properties proved with them
compare a state with the inputs that led to it.
-/

namespace StepRun

variable {σ α : Type*}

/-- The state reached from `s` after the inputs `as`, in order. -/
def run (step : σ → α → σ) (s : σ) (as : List α) : σ :=
  as.foldl step s

/-- Every step of the run of `as` from `s` satisfies `C`, a condition on the state before the step
and on its input. -/
def Meets (step : σ → α → σ) (C : σ → α → Prop) (s : σ) : List α → Prop
  | [] => True
  | a :: as => C s a ∧ Meets step C (step s a) as

section Append

variable (step : σ → α → σ) (C : σ → α → Prop) (s : σ)

@[simp]
theorem run_nil : run step s [] = s := rfl

@[simp]
theorem run_cons (a : α) (as : List α) : run step s (a :: as) = run step (step s a) as := rfl

theorem run_append (as bs : List α) :
    run step s (as ++ bs) = run step (run step s as) bs :=
  List.foldl_append

@[simp]
theorem run_concat (as : List α) (a : α) :
    run step s (as ++ [a]) = step (run step s as) a := by
  rw [run_append, run_cons, run_nil]

@[simp]
theorem meets_nil : Meets step C s [] := trivial

@[simp]
theorem meets_cons (a : α) (as : List α) :
    Meets step C s (a :: as) ↔ C s a ∧ Meets step C (step s a) as := Iff.rfl

theorem meets_append (as bs : List α) :
    Meets step C s (as ++ bs) ↔ Meets step C s as ∧ Meets step C (run step s as) bs := by
  induction as generalizing s with
  | nil => simp
  | cons a as ih => simp [ih, and_assoc]

@[simp]
theorem meets_concat (as : List α) (a : α) :
    Meets step C s (as ++ [a]) ↔ Meets step C s as ∧ C (run step s as) a := by
  simp [meets_append]

end Append

/-- Running is decidable step by step, so a concrete run can be checked by evaluation. -/
instance decidableMeets (step : σ → α → σ) (C : σ → α → Prop) [∀ s a, Decidable (C s a)] :
    (s : σ) → (as : List α) → Decidable (Meets step C s as)
  | _, [] => .isTrue trivial
  | s, a :: as =>
    have := decidableMeets step C (step s a) as
    inferInstanceAs (Decidable (_ ∧ _))

variable {D : σ → α → Prop} {I P : List α → σ → Prop}

section Induction

variable {step : σ → α → σ} {C : σ → α → Prop} {s : σ}

theorem meets_of_forall (h : ∀ t a, C t a) (as : List α) : Meets step C s as := by
  induction as generalizing s with
  | nil => exact trivial
  | cons a as ih => exact ⟨h s a, ih⟩

theorem Meets.imp (h : ∀ t a, C t a → D t a) {as : List α}
    (hm : Meets step C s as) : Meets step D s as := by
  induction as generalizing s with
  | nil => exact trivial
  | cons a as ih => exact ⟨h s a hm.1, ih hm.2⟩

theorem meets_congr {I : σ → Prop} (hiff : ∀ t a, I t → (C t a ↔ D t a))
    (hkeeps : ∀ t a, I t → I (step t a)) (hs : I s) (as : List α) :
    Meets step C s as ↔ Meets step D s as := by
  induction as generalizing s with
  | nil => rfl
  | cons a as ih => exact and_congr (hiff s a hs) (ih (hkeeps s a hs))

theorem Meets.and {as : List α} (hD : Meets step D s as)
    (hC : Meets step C s as) : Meets step (fun t a => D t a ∧ C t a) s as := by
  induction as generalizing s with
  | nil => exact trivial
  | cons a as ih => exact ⟨⟨hD.1, hC.1⟩, ih hD.2 hC.2⟩

/-- **Invariant rule.** What the start satisfies and every step meeting `C` keeps, every state of a
run that meets `C` satisfies. `I` may speak of the inputs consumed so far. -/
theorem invariant_of_meets {I : List α → σ → Prop} (hinit : I [] s)
    (hstep : ∀ as a, I as (run step s as) → C (run step s as) a →
      I (as ++ [a]) (step (run step s as) a)) :
    ∀ as, Meets step C s as → I as (run step s as) := by
  intro as
  induction as using List.reverseRecOn with
  | nil => exact fun _ => hinit
  | append_singleton as a ih =>
    intro hm
    rw [meets_concat] at hm
    rw [run_concat]
    exact hstep as a (ih hm.1) hm.2

/-- Every step of the run of `as` from `s` satisfies `C`, when a step can fail: after a step that
fails there is nothing left to satisfy. -/
def MeetsM (step : σ → α → Option σ) (C : σ → α → Prop) (s : σ) : List α → Prop
  | [] => True
  | a :: as => C s a ∧ ∀ t, step s a = some t → MeetsM step C t as

/-- A run that can fail is checked step by step too. -/
instance decidableMeetsM (step : σ → α → Option σ) (C : σ → α → Prop) [∀ s a, Decidable (C s a)] :
    (s : σ) → (as : List α) → Decidable (MeetsM step C s as)
  | _, [] => .isTrue trivial
  | s, a :: as =>
    match hstep : step s a with
    | none => decidable_of_iff (C s a) (by simp [MeetsM, hstep])
    | some t =>
      have := decidableMeetsM step C t as
      decidable_of_iff (C s a ∧ MeetsM step C t as) (by simp [MeetsM, hstep])

/-- **Failure rule.** When from a state satisfying the invariant a step succeeds exactly under `C`,
and keeps the invariant, a run succeeds exactly when every step of it satisfies `C`. -/
theorem isSome_foldlM_iff {step : σ → α → Option σ} {C : σ → α → Prop} {I : σ → Prop}
    (hsome : ∀ t a, I t → ((step t a).isSome ↔ C t a))
    (hkeeps : ∀ t a u, I t → step t a = some u → I u) {s : σ} (hs : I s) (as : List α) :
    (as.foldlM step s).isSome ↔ MeetsM step C s as := by
  induction as generalizing s with
  | nil => exact iff_of_true rfl trivial
  | cons a as ih =>
    rw [List.foldlM_cons, MeetsM, ← hsome s a hs]
    cases hstep : step s a with
    | none => simp
    | some t =>
      have htail := ih (hkeeps s a t hs hstep)
      rw [Option.bind_eq_bind, Option.bind_some, htail]
      simp

theorem meetsM_congr {step : σ → α → Option σ} {C D : σ → α → Prop} {I : σ → Prop}
    (hiff : ∀ t a, I t → (C t a ↔ D t a)) (hkeeps : ∀ t a u, I t → step t a = some u → I u) {s : σ}
    (hs : I s) (as : List α) : MeetsM step C s as ↔ MeetsM step D s as := by
  induction as generalizing s with
  | nil => rfl
  | cons a as ih =>
    refine and_congr (hiff s a hs) ?_
    exact forall_congr' fun t => imp_congr_right fun hstep => ih (hkeeps s a t hs hstep)

/-- **Guarded totality rule.** When a step that meets `C` does not fail from a state satisfying the
invariant and keeps it, no run whose steps meet `C` fails, and the state it reaches satisfies the
invariant. -/
theorem exists_foldlM_of_meetsM {step : σ → α → Option σ} {C : σ → α → Prop} {I : σ → Prop}
    (hstep : ∀ t a, I t → C t a → ∃ u, step t a = some u ∧ I u) {s : σ} (hs : I s) (as : List α)
    (hmeets : MeetsM step C s as) : ∃ t, as.foldlM step s = some t ∧ I t := by
  induction as generalizing s with
  | nil => exact ⟨s, rfl, hs⟩
  | cons a as ih =>
    obtain ⟨u, hu, hI⟩ := hstep s a hs hmeets.1
    obtain ⟨t, hrun, ht⟩ := ih hI (hmeets.2 u hu)
    refine ⟨t, ?_, ht⟩
    rw [List.foldlM_cons, hu]
    exact hrun

/-- **Exactness rule for steps that can fail.** When, from a state satisfying the invariant, a step
that meets `C` succeeds and keeps it, and a step that succeeds in a state satisfying `P` meets `C`,
then a run succeeds with `P` at every point of it exactly if all its steps meet `C`. All steps of
the runs considered meet `D`. -/
theorem forall_prefix_foldlM_iff_meetsM_within {step : σ → α → Option σ} {C D : σ → α → Prop}
    {I P : σ → Prop} (hP : ∀ t, I t → P t)
    (hgood : ∀ t a, I t → D t a → C t a → ∃ u, step t a = some u ∧ I u)
    (hbad : ∀ t a u, I t → D t a → step t a = some u → P u → C t a) {s : σ} (hs : I s) (as : List α)
    (hD : MeetsM step D s as) :
    (∀ bs, bs <+: as → ∃ t, bs.foldlM step s = some t ∧ P t) ↔ MeetsM step C s as := by
  induction as generalizing s with
  | nil =>
    refine iff_of_true (fun bs hbs => ?_) trivial
    rw [List.prefix_nil.1 hbs]
    exact ⟨s, rfl, hP s hs⟩
  | cons a as ih =>
    obtain ⟨hDa, hDas⟩ := hD
    constructor
    · intro h
      obtain ⟨t, ht, hPt⟩ := h [a] (List.prefix_append [a] as)
      rw [List.foldlM_cons, Option.bind_eq_bind, Option.bind_eq_some_iff] at ht
      obtain ⟨t', hstep, ht'⟩ := ht
      obtain rfl : t' = t := by simpa using ht'
      have hC := hbad s a t' hs hDa hstep hPt
      refine ⟨hC, fun t ht => ?_⟩
      obtain ⟨u, hu, hIu⟩ := hgood s a hs hDa hC
      obtain rfl : u = t := Option.some.inj (hu.symm.trans ht)
      refine (ih hIu (hDas u hu)).1 fun bs hbs => ?_
      have hrun := h (a :: bs) (List.cons_prefix_cons.2 ⟨rfl, hbs⟩)
      rwa [List.foldlM_cons, ht] at hrun
    · rintro ⟨hC, htail⟩ bs hbs
      obtain ⟨u, hu, hIu⟩ := hgood s a hs hDa hC
      cases bs with
      | nil => exact ⟨s, rfl, hP s hs⟩
      | cons b bs =>
        obtain ⟨hb, htl⟩ := List.cons_prefix_cons.1 hbs
        rw [List.foldlM_cons, hb, hu]
        exact (ih hIu (hDas u hu)).2 (htail u hu) bs htl

theorem meetsM_of_forall {step : σ → α → Option σ} {C : σ → α → Prop} (h : ∀ t a, C t a) (s : σ)
    (as : List α) : MeetsM step C s as := by
  induction as generalizing s with
  | nil => exact trivial
  | cons a as ih => exact ⟨h s a, fun t _ => ih t⟩

theorem forall_prefix_foldlM_iff_meetsM {step : σ → α → Option σ} {C : σ → α → Prop}
    {I P : σ → Prop} (hP : ∀ t, I t → P t)
    (hgood : ∀ t a, I t → C t a → ∃ u, step t a = some u ∧ I u)
    (hbad : ∀ t a u, I t → step t a = some u → P u → C t a) {s : σ} (hs : I s) (as : List α) :
    (∀ bs, bs <+: as → ∃ t, bs.foldlM step s = some t ∧ P t) ↔ MeetsM step C s as :=
  forall_prefix_foldlM_iff_meetsM_within (D := fun _ _ => True) hP
    (fun t a hI _ => hgood t a hI) (fun t a u hI _ => hbad t a u hI) hs as
    (meetsM_of_forall (fun _ _ => trivial) s as)

/-- **Exactness rule over inputs.** As before, where the invariant, what is asked and the condition
speak of the inputs so far. -/
theorem forall_prefix_foldlM_iff {step : σ → α → Option σ} {C : List α → α → Prop}
    {s : σ} (hinit : I [] s) (hP : ∀ as t, I as t → P as t)
    (hgood : ∀ as t a, I as t → C as a → ∃ u, step t a = some u ∧ I (as ++ [a]) u)
    (hbad : ∀ as t a u, I as t → step t a = some u → P (as ++ [a]) u → C as a) (as : List α) :
    (∀ bs, bs <+: as → ∃ t, bs.foldlM step s = some t ∧ P bs t) ↔
      ∀ bs a, bs ++ [a] <+: as → C bs a := by
  have hrun (as : List α) (hall : ∀ bs a, bs ++ [a] <+: as → C bs a) :
      ∃ t, as.foldlM step s = some t ∧ I as t := by
    induction as using List.reverseRecOn with
    | nil => exact ⟨s, rfl, hinit⟩
    | append_singleton as a ih =>
      obtain ⟨t, ht, hI⟩ := ih fun bs b hbs => hall bs b (hbs.trans (List.prefix_append as [a]))
      obtain ⟨u, hu, hI'⟩ := hgood as t a hI (hall as a (List.prefix_refl _))
      refine ⟨u, ?_, hI'⟩
      rw [List.foldlM_append, ht]
      simpa using hu
  constructor
  · intro h
    induction as using List.reverseRecOn with
    | nil =>
      intro bs a hbs
      exact absurd (List.prefix_nil.1 hbs) (by simp)
    | append_singleton as b ih =>
      have hbefore := ih fun bs hbs => h bs (hbs.trans (List.prefix_append as [b]))
      intro bs a hbs
      rcases List.prefix_concat_iff.1 hbs with heq | hbs
      · obtain ⟨rfl, hab⟩ := List.append_inj' heq rfl
        obtain rfl : a = b := List.singleton_inj.1 hab
        obtain ⟨t, ht, hI⟩ := hrun bs hbefore
        obtain ⟨u, hu, hPu⟩ := h (bs ++ [a]) (List.prefix_refl _)
        rw [List.foldlM_append, ht] at hu
        exact hbad bs t a u hI (by simpa using hu) hPu
      · exact hbefore bs a hbs
  · intro h bs hbs
    obtain ⟨t, ht, hI⟩ := hrun bs fun cs a hcs => h cs a (hcs.trans hbs)
    exact ⟨t, ht, hP bs t hI⟩

/-- **Totality rule.** When a step that can fail does not fail from a state satisfying the invariant
and keeps it, no run fails and the state it reaches satisfies the invariant. -/
theorem exists_foldlM {step : σ → α → Option σ} {I : List α → σ → Prop} {s : σ} (hinit : I [] s)
    (hstep : ∀ as t a, I as t → ∃ u, step t a = some u ∧ I (as ++ [a]) u) (as : List α) :
    ∃ t, as.foldlM step s = some t ∧ I as t := by
  induction as using List.reverseRecOn with
  | nil => exact ⟨s, rfl, hinit⟩
  | append_singleton as a ih =>
    obtain ⟨t, hrun, ht⟩ := ih
    obtain ⟨u, hu, hI⟩ := hstep as t a ht
    refine ⟨u, ?_, hI⟩
    rw [List.foldlM_append, hrun]
    simpa using hu

/-- Every step of a run that meets `C` has whatever follows from the invariant and `C`. -/
theorem Meets.of_invariant {I : List α → σ → Prop} (hinit : I [] s)
    (hstep : ∀ as a, I as (run step s as) → C (run step s as) a →
      I (as ++ [a]) (step (run step s as) a))
    (hD : ∀ as a, I as (run step s as) → C (run step s as) a → D (run step s as) a) :
    ∀ as, Meets step C s as → Meets step D s as := by
  intro as
  induction as using List.reverseRecOn with
  | nil => exact fun _ => trivial
  | append_singleton as a ih =>
    intro hm
    rw [meets_concat] at hm ⊢
    exact ⟨ih hm.1, hD as a (invariant_of_meets hinit hstep as hm.1) hm.2⟩

/-- **Exactness rule.** When, from a state satisfying `P`, the next state satisfies `P` exactly if
the step meets `C`, then `P` holds at every point of a run exactly if all its steps meet `C`. The
auxiliary invariant `I` is what the step lemma may rely on besides `P`, and `D` is a condition that
all steps of the runs considered meet. -/
theorem forall_prefix_iff_meets_within (hinit : I [] s) (hP : P [] s)
    (hI : ∀ as a, I as (run step s as) → P as (run step s as) → D (run step s as) a →
      C (run step s as) a → I (as ++ [a]) (step (run step s as) a))
    (hstep : ∀ as a, I as (run step s as) → P as (run step s as) → D (run step s as) a →
      (P (as ++ [a]) (step (run step s as) a) ↔ C (run step s as) a)) :
    ∀ as, Meets step D s as →
      ((∀ bs, bs <+: as → P bs (run step s bs)) ↔ Meets step C s as) := by
  have hboth : ∀ as, Meets step (fun t a => D t a ∧ C t a) s as →
      I as (run step s as) ∧ P as (run step s as) :=
    invariant_of_meets (I := fun as t => I as t ∧ P as t) ⟨hinit, hP⟩ fun as a h hC =>
      ⟨hI as a h.1 h.2 hC.1 hC.2, (hstep as a h.1 h.2 hC.1).2 hC.2⟩
  intro as
  induction as using List.reverseRecOn with
  | nil =>
    refine fun _ => ⟨fun _ => trivial, fun _ bs hbs => ?_⟩
    rw [List.prefix_nil.1 hbs]
    exact hP
  | append_singleton as a ih =>
    intro hD
    rw [meets_concat] at hD
    have ih := ih hD.1
    rw [meets_concat, ← ih]
    constructor
    · intro h
      have has : ∀ bs, bs <+: as → P bs (run step s bs) :=
        fun bs hbs => h bs (hbs.trans (List.prefix_append as [a]))
      have hlast := h (as ++ [a]) (List.prefix_refl _)
      rw [run_concat] at hlast
      obtain ⟨hIas, hPas⟩ := hboth as (hD.1.and (ih.1 has))
      exact ⟨has, (hstep as a hIas hPas hD.2).1 hlast⟩
    · rintro ⟨has, hC⟩ bs hbs
      obtain ⟨hIas, hPas⟩ := hboth as (hD.1.and (ih.1 has))
      rcases List.prefix_concat_iff.1 hbs with rfl | hbs
      · rw [run_concat]
        exact (hstep as a hIas hPas hD.2).2 hC
      · exact has bs hbs

theorem forall_prefix_iff_meets (hinit : I [] s) (hP : P [] s)
    (hI : ∀ as a, I as (run step s as) → P as (run step s as) → C (run step s as) a →
      I (as ++ [a]) (step (run step s as) a))
    (hstep : ∀ as a, I as (run step s as) → P as (run step s as) →
      (P (as ++ [a]) (step (run step s as) a) ↔ C (run step s as) a)) :
    ∀ as, (∀ bs, bs <+: as → P bs (run step s bs)) ↔ Meets step C s as :=
  fun as => forall_prefix_iff_meets_within (D := fun _ _ => True) hinit hP
    (fun as a hIas hPas _ => hI as a hIas hPas) (fun as a hIas hPas _ => hstep as a hIas hPas) as
    (meets_of_forall (fun _ _ => trivial) as)

end Induction

section Iterations

/-- **Pigeonhole rule.** Steps that leave a condition that only the elements of a finite set meet
leave it within as many steps as the set has elements. -/
theorem exists_iterate_le_card {f : α → α} {x : α} {P : α → Prop} {s : Finset α}
    (hs : ∀ y, P y → y ∈ s) (h : ∃ n, ¬P (f^[n] x)) : ∃ n ≤ s.card, ¬P (f^[n] x) := by
  classical
  refine ⟨Nat.find h, not_lt.1 fun hlt => ?_, Nat.find_spec h⟩
  have hbefore {k : Nat} (hk : k < Nat.find h) : P (f^[k] x) := not_not.1 (Nat.find_min h hk)
  have hmaps : ∀ k ∈ Finset.range (Nat.find h), f^[k] x ∈ s :=
    fun k hk => hs _ (hbefore (Finset.mem_range.1 hk))
  have hcard : s.card < (Finset.range (Nat.find h)).card := by rwa [Finset.card_range]
  -- two of the states before are the same, and from there on the steps are
  obtain ⟨j, hj, k, hk, hne, heq⟩ := Finset.exists_ne_map_eq_of_card_lt_of_maps_to hcard hmaps
  rw [Finset.mem_range] at hj hk
  wlog hjk : j < k generalizing j k
  · exact this k hk j hj hne.symm heq.symm (by omega)
  refine Nat.find_spec h ?_
  rw [← Nat.sub_add_cancel hk.le, Function.iterate_add_apply, ← heq, ← Function.iterate_add_apply]
  exact hbefore (by omega)

end Iterations

end StepRun
