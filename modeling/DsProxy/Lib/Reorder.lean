import DsProxy.Lib.Run
import Mathlib.Data.List.Perm.Basic

/-!
# Runs whose order makes no difference

Where every accepted operation does to the state what it would do to any state, a run is the fold of
these effects over the operations it accepts. When the effects commute, two runs that accept the
same operations, each in its own order, end in the same state.
-/

namespace Runs.System

variable {σ α : Type*}

/-- The accepted operations of a run, in order. -/
def accepted (M : System σ α) : σ → List α → List α
  | _, [] => []
  | s, a :: ops =>
    if (M.step s a).isSome = true then a :: M.accepted (M.next s a) ops
    else M.accepted (M.next s a) ops

variable {M : System σ α} {s s' : σ} {a : α} {ops first second : List α}

theorem accepted_cons_of_step (h : M.step s a = some s') :
    M.accepted s (a :: ops) = a :: M.accepted s' ops := by
  rw [accepted, h, Option.isSome_some, if_pos rfl, next_of_step h]

theorem accepted_cons_of_refused (h : M.step s a = none) :
    M.accepted s (a :: ops) = M.accepted s ops := by
  rw [accepted, h, Option.isSome_none, if_neg Bool.false_ne_true, next_of_refused h]

section Effect

variable {effect : σ → α → σ}

theorem run_eq_foldl (heffect : ∀ {s a s'}, M.step s a = some s' → s' = effect s a) (s : σ)
    (ops : List α) : M.run s ops = (M.accepted s ops).foldl effect s := by
  induction ops generalizing s with
  | nil => rfl
  | cons a ops ih =>
      cases hstep : M.step s a with
      | none => rw [run_cons_of_refused hstep, accepted_cons_of_refused hstep, ih]
      | some s' =>
          rw [run_cons_of_step hstep, accepted_cons_of_step hstep, List.foldl_cons, ih,
            ← heffect hstep]

/-- Two orders of the same operations end alike. -/
theorem run_eq_of_perm (heffect : ∀ {s a s'}, M.step s a = some s' → s' = effect s a)
    (hcomm : ∀ a ∈ M.accepted s first, ∀ b ∈ M.accepted s first, ∀ t,
      effect (effect t a) b = effect (effect t b) a)
    (hperm : (M.accepted s first).Perm (M.accepted s second)) :
    M.run s first = M.run s second := by
  rw [run_eq_foldl heffect, run_eq_foldl heffect]
  exact hperm.foldl_eq' hcomm s

end Effect

end Runs.System
