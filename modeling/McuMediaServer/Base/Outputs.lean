import Mathlib.Data.List.Basic

/-!
# Steps with an output

A machine that answers every input, and the answers to a sequence of inputs. Two machines whose
states stay related give the same answers (`outputs_eq_of_simulates`).
-/

namespace McuMediaServer.Outputs

variable {σ τ α ω : Type}

/-- The answers to inputs. -/
def outputs (step : σ → α → σ × ω) : σ → List α → List ω
  | _, [] => []
  | s, a :: as => (step s a).2 :: outputs step (step s a).1 as

/-- The state after inputs. -/
def final (step : σ → α → σ × ω) : σ → List α → σ
  | s, [] => s
  | s, a :: as => final step (step s a).1 as

@[simp]
theorem outputs_cons (step : σ → α → σ × ω) (s : σ) (a : α) (as : List α) :
    outputs step s (a :: as) = (step s a).2 :: outputs step (step s a).1 as := rfl

@[simp]
theorem length_outputs (step : σ → α → σ × ω) (s : σ) (as : List α) :
    (outputs step s as).length = as.length := by
  induction as generalizing s with
  | nil => rfl
  | cons a as ih => simp [ih]

theorem outputs_map {β : Type} (step : σ → α → σ × ω) (f : β → α) (s : σ) (bs : List β) :
    outputs step s (bs.map f) = outputs (fun s b => step s (f b)) s bs := by
  induction bs generalizing s with
  | nil => rfl
  | cons b bs ih => rw [List.map_cons, outputs_cons, outputs_cons, ih]

/-- Machines whose related states answer the inputs alike and stay related. -/
theorem outputs_eq_of_simulates {step : σ → α → σ × ω} {step' : τ → α → τ × ω}
    {R : σ → τ → Prop} {P : α → Prop}
    (hstep : ∀ s t a, P a → R s t → (step s a).2 = (step' t a).2 ∧ R (step s a).1 (step' t a).1)
    {s : σ} {t : τ} (hR : R s t) {as : List α} (has : ∀ a ∈ as, P a) :
    outputs step s as = outputs step' t as := by
  induction as generalizing s t with
  | nil => rfl
  | cons a as ih =>
    obtain ⟨hout, hnext⟩ := hstep s t a (has a List.mem_cons_self) hR
    rw [outputs_cons, outputs_cons, hout, ih hnext fun b hb => has b (List.mem_cons_of_mem a hb)]

end McuMediaServer.Outputs
