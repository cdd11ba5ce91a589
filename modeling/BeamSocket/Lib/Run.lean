import Mathlib.Data.Finset.Lattice.Fold
import Mathlib.Data.List.Basic

/-!
# Runs of a step function

A system is a step function `σ → ε → σ` on states and events; a run folds it
over a list of events. `StepsMeet` says that every step of a run, taken in the
state it is taken in, meets a condition.

* `run_invariant`: what holds initially and is kept by every step holds after
  every run.
* `run_invariant_of_stepsMeet`: the same when only the steps that meet a
  condition keep it.
* `run_invariant_of_mem`: the same when only the events of the run keep it.
* `run_simulation`: what relates two systems and is kept by a step of both.
* `run_join`: an observation that every step joins with a value of its event is,
  after a run, joined with the values of all events; order and repetition do not
  matter.
* `run_of_not_stepsMeet`: what a step that fails a condition brings about, and no
  step undoes, holds after every run with such a step.
-/

namespace BeamSocket.Lib

variable {σ ε : Type*} {step : σ → ε → σ} {C : σ → ε → Prop} {I : σ → Prop} {s : σ}
  {evs : List ε}

/-- The state after the events of `evs`, oldest first. -/
def run (step : σ → ε → σ) (s : σ) (evs : List ε) : σ := evs.foldl step s

@[simp] theorem run_nil : run step s [] = s := rfl

@[simp] theorem run_cons {e : ε} : run step s (e :: evs) = run step (step s e) evs := rfl

theorem run_append (step : σ → ε → σ) (s : σ) (evs evs' : List ε) :
    run step s (evs ++ evs') = run step (run step s evs) evs' := List.foldl_append

/-- Every step of the run from `s` meets `C`. -/
def StepsMeet (step : σ → ε → σ) (C : σ → ε → Prop) : σ → List ε → Prop
  | _, [] => True
  | s, e :: evs => C s e ∧ StepsMeet step C (step s e) evs

instance StepsMeet.instDecidable [∀ s e, Decidable (C s e)] :
    ∀ (s : σ) (evs : List ε), Decidable (StepsMeet step C s evs)
  | _, [] => isTrue trivial
  | s, e :: evs =>
    have := StepsMeet.instDecidable (step s e) evs
    inferInstanceAs (Decidable (C s e ∧ StepsMeet step C (step s e) evs))

theorem stepsMeet_append (step : σ → ε → σ) (C : σ → ε → Prop) (s : σ) (evs evs' : List ε) :
    StepsMeet step C s (evs ++ evs') ↔
      StepsMeet step C s evs ∧ StepsMeet step C (run step s evs) evs' := by
  induction evs generalizing s with
  | nil => simp [StepsMeet]
  | cons e evs ih => simp [StepsMeet, ih, and_assoc]

theorem stepsMeet_and (step : σ → ε → σ) (C D : σ → ε → Prop) (s : σ) (evs : List ε) :
    StepsMeet step (fun s e => C s e ∧ D s e) s evs ↔
      StepsMeet step C s evs ∧ StepsMeet step D s evs := by
  induction evs generalizing s with
  | nil => simp [StepsMeet]
  | cons e evs ih => simp only [StepsMeet, ih]; tauto

theorem run_invariant_of_stepsMeet (hstep : ∀ s e, I s → C s e → I (step s e)) (h : I s)
    (hmeet : StepsMeet step C s evs) : I (run step s evs) := by
  induction evs generalizing s with
  | nil => exact h
  | cons e evs ih => exact ih (hstep s e h hmeet.1) hmeet.2

theorem run_invariant (hstep : ∀ s e, I s → I (step s e)) (h : I s) : I (run step s evs) := by
  induction evs generalizing s with
  | nil => exact h
  | cons e evs ih => exact ih (hstep s e h)

theorem run_invariant_of_mem (hstep : ∀ e ∈ evs, ∀ s, I s → I (step s e)) (h : I s) :
    I (run step s evs) := by
  induction evs generalizing s with
  | nil => exact h
  | cons e evs ih =>
    exact ih (fun e' he' => hstep e' (List.mem_cons_of_mem _ he'))
      (hstep e List.mem_cons_self s h)

/-- Two systems that read the same events. -/
theorem run_simulation {τ : Type*} {step' : τ → ε → τ} {R : σ → τ → Prop} {t : τ}
    (hstep : ∀ e ∈ evs, ∀ s t, R s t → R (step s e) (step' t e)) (h : R s t) :
    R (run step s evs) (run step' t evs) := by
  induction evs generalizing s t with
  | nil => exact h
  | cons e evs ih =>
    exact ih (fun e' he' => hstep e' (List.mem_cons_of_mem _ he'))
      (hstep e List.mem_cons_self s t h)

theorem run_of_not_stepsMeet (hbreak : ∀ s e, ¬C s e → I (step s e))
    (hstep : ∀ s e, I s → I (step s e)) (hmeet : ¬StepsMeet step C s evs) :
    I (run step s evs) := by
  induction evs generalizing s with
  | nil => exact absurd trivial hmeet
  | cons e evs ih =>
    rw [run_cons]
    by_cases he : C s e
    · exact ih fun htail => hmeet ⟨he, htail⟩
    · exact run_invariant hstep (hbreak s e he)

/-- `f e` is the part of the event that the joined value depends on. -/
theorem run_join {α β : Type*} [SemilatticeSup α] [OrderBot α] [DecidableEq β] {g : σ → α}
    {f : ε → β} {v : β → α} (h : I s)
    (hstep : ∀ s, I s → ∀ e ∈ evs, I (step s e) ∧ g (step s e) = g s ⊔ v (f e)) :
    g (run step s evs) = g s ⊔ (evs.map f).toFinset.sup v := by
  induction evs generalizing s with
  | nil => simp
  | cons e evs ih =>
    obtain ⟨hI, hg⟩ := hstep s h e (List.mem_cons_self ..)
    have htail := ih hI fun s hs e he => hstep s hs e (List.mem_cons_of_mem _ he)
    rw [run_cons, htail, hg, List.map_cons, List.toFinset_cons, Finset.sup_insert, sup_assoc]

end BeamSocket.Lib
