import BeamSocket.Lib.Run

/-!
# Services and what explains them

A service answers calls, one after the other: `serve s c` is the answer to `c` in state `s`
and the state behind it. A specification is a relation `Serves t c a t'` between a state, a
call, an answer and the state behind it; it explains a sequence of answers if they can be
given one after the other.

* `explains_of_simulation`: a service whose single answers are explained, state by related
  state, is explained.
-/

namespace BeamSocket.Lib

variable {σ τ γ α : Type*}

/-- The answers to `calls`, oldest first, and the state behind them. -/
def answers (serve : σ → γ → α × σ) : σ → List γ → List α × σ
  | s, [] => ([], s)
  | s, c :: calls =>
    let (a, s') := serve s c
    let (as, s'') := answers serve s' calls
    (a :: as, s'')

/-- The specification can answer `calls` with `as`. -/
inductive Explains (Serves : τ → γ → α → τ → Prop) : τ → List γ → List α → τ → Prop
  | nil (t : τ) : Explains Serves t [] [] t
  | cons {t t' t'' : τ} {c : γ} {a : α} {calls : List γ} {as : List α}
    (hserves : Serves t c a t') (hrest : Explains Serves t' calls as t'') :
    Explains Serves t (c :: calls) (a :: as) t''

theorem explains_of_simulation {serve : σ → γ → α × σ} {Serves : τ → γ → α → τ → Prop}
    {R : σ → τ → Prop} {C : σ → γ → Prop}
    (hsim : ∀ s t c, R s t → C s c → ∃ t', Serves t c (serve s c).1 t' ∧ R (serve s c).2 t')
    {s : σ} {t : τ} (h : R s t) {calls : List γ}
    (hmeet : StepsMeet (fun s c => (serve s c).2) C s calls) :
    ∃ t', Explains Serves t calls (answers serve s calls).1 t' ∧
      R (answers serve s calls).2 t' := by
  induction calls generalizing s t with
  | nil => exact ⟨t, .nil t, h⟩
  | cons c calls ih =>
    obtain ⟨t', hserves, hnext⟩ := hsim s t c h hmeet.1
    obtain ⟨t'', hrest, hlast⟩ := ih hnext hmeet.2
    exact ⟨t'', .cons hserves hrest, hlast⟩

end BeamSocket.Lib
