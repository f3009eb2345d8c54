import DsProxy.Lib.Run
import Mathlib.Algebra.Group.Basic

/-!
# A cell with relative additions and stale writes

Many clients share a cell. Some steps add to it; in others a client copies its value, and writes the
copy back later. A write puts the cell back to where it was when the copy was made, so nothing that
was added is lost exactly when what is added between a copy and its write sums to zero.
-/

namespace Runs

variable {σ α C G : Type*} [AddCommGroup G]

/-- How a system holds such a cell: its value, what has been added to it, the copy of each client
with what had been added when it was made, and the client that writes its copy in a step. -/
structure Cell (M : System σ α) (C G : Type*) where
  value : σ → G
  added : σ → G
  copy : σ → C → Option (G × G)
  writer : σ → α → Option C

namespace Cell

variable {M : System σ α} (cell : Cell M C G) (I : σ → Prop)

/-- The system treats the cell as such, while an invariant holds. -/
structure Lawful : Prop where
  write : ∀ {s a s' c}, I s → M.step s a = some s' → cell.writer s a = some c →
    ∃ v d, cell.copy s c = some (v, d) ∧ cell.value s' = v ∧ cell.added s' = cell.added s
  other : ∀ {s a s'}, I s → M.step s a = some s' → cell.writer s a = none →
    cell.value s' - cell.added s' = cell.value s - cell.added s
  copied : ∀ {s a s' c v d}, I s → M.step s a = some s' → cell.copy s' c = some (v, d) →
    cell.copy s c = some (v, d) ∨ v = cell.value s' ∧ d = cell.added s'

/-- Nothing has been added, on balance, since the writer's copy was made. -/
def Unstale (s : σ) (a : α) : Prop :=
  ∀ c v d, cell.writer s a = some c → cell.copy s c = some (v, d) → d = cell.added s

variable {cell I} {base : G} {s s' : σ} {a : α}

/-- A step keeps the difference exactly when it writes no stale copy. -/
theorem Lawful.step_iff (h : cell.Lawful I) (hI : I s)
    (hcopies : ∀ c v d, cell.copy s c = some (v, d) → v - d = base)
    (hvalue : cell.value s - cell.added s = base) (hstep : M.step s a = some s') :
    cell.value s' - cell.added s' = base ↔ cell.Unstale s a := by
  cases hwriter : cell.writer s a with
  | none =>
      apply iff_of_true ((h.other hI hstep hwriter).trans hvalue)
      intro c v d hc
      cases hwriter.symm.trans hc
  | some c =>
      obtain ⟨v, d, hcopy, hwritten, hadded⟩ := h.write hI hstep hwriter
      rw [hwritten, hadded, ← hcopies c v d hcopy, sub_right_inj]
      constructor
      · intro heq c' v' d' hc' hcopy'
        cases hwriter.symm.trans hc'
        cases hcopy.symm.trans hcopy'
        exact heq.symm
      · intro hunstale
        exact (hunstale c v d hwriter hcopy).symm

/-- At every moment of a run each cell holds its first value and all that was added, exactly when no
step writes a stale copy. -/
theorem run_iff {ι : Type*} {cell : ι → Cell M C G} {base : ι → G} {P : σ → α → Prop}
    (h : ∀ i, (cell i).Lawful I)
    (hP : ∀ {s a s'}, I s → M.step s a = some s' → (P s a ↔ ∀ i, (cell i).Unstale s a))
    (hstep : ∀ {s a s'}, I s → M.step s a = some s' → I s') (hI : I s)
    (hcopies : ∀ i c v d, (cell i).copy s c = some (v, d) → v - d = base i)
    (hvalue : ∀ i, (cell i).value s - (cell i).added s = base i) (ops : List α) :
    (∀ n i, (cell i).value (M.run s (ops.take n)) - (cell i).added (M.run s (ops.take n)) =
      base i) ↔ M.Throughout P s ops := by
  refine System.always_iff_throughout
    (I := fun s => I s ∧ ∀ i c v d, (cell i).copy s c = some (v, d) → v - d = base i)
    (Q := fun s => ∀ i, (cell i).value s - (cell i).added s = base i) (fun hs hQ hnext => ?_)
    (fun hs hQ hnext hQ' => ?_) ⟨hI, hcopies⟩ hvalue ops
  · rw [hP hs.1 hnext]
    exact forall_congr' fun i => (h i).step_iff hs.1 (hs.2 i) (hQ i) hnext
  · refine ⟨hstep hs.1 hnext, fun i c v d hcopy => ?_⟩
    rcases (h i).copied hs.1 hnext hcopy with hold | ⟨rfl, rfl⟩
    · exact hs.2 i c v d hold
    · exact hQ' i

end Cell

end Runs
