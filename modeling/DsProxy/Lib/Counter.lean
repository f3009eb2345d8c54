import DsProxy.Lib.Run
import Mathlib.Algebra.Group.Int.Defs
import Mathlib.Data.Int.Notation

/-!
# A counter raised through snapshots

Clients share a counter. A client takes a snapshot of it, and is done when it has tried to write the
snapshot, raised by an amount of its own, back. A write from an old snapshot takes away what the
others have added since. That never comes back: once the counter is below what is due, so is every
snapshot of it.
-/

namespace Runs

variable {σ α C : Type*}

/-- How a system holds such a counter: its value, what the clients that are done were to add, the
snapshot of each client, the client that is done after a step with its amount, and whether its write
is made. One that is not leaves the counter as it was, or short of the raised snapshot. -/
structure Counter (M : System σ α) (C : Type*) where
  value : σ → ℤ
  due : σ → ℤ
  snapshot : σ → C → Option ℤ
  raiser : σ → α → Option (C × ℤ)
  written : σ → α → Prop

namespace Counter

variable {M : System σ α} (counter : Counter M C) (I : σ → Prop)

/-- The system treats the counter as such, while an invariant holds. -/
structure Lawful : Prop where
  raise : ∀ {s a s' c d}, I s → M.step s a = some s' → counter.raiser s a = some (c, d) →
    0 < d ∧ counter.due s' = counter.due s + d ∧ ∃ v, counter.snapshot s c = some v ∧
      (counter.written s a → counter.value s' = v + d) ∧
      (¬ counter.written s a → counter.value s' = counter.value s ∨ counter.value s' < v + d)
  other : ∀ {s a s'}, I s → M.step s a = some s' → counter.raiser s a = none →
    counter.due s' = counter.due s ∧ counter.value s' = counter.value s
  taken : ∀ {s a s' c v}, I s → M.step s a = some s' → counter.snapshot s' c = some v →
    counter.snapshot s c = some v ∨ v ≤ counter.value s'

/-- A client that is done has written, and from a snapshot that is still the value. -/
def Fresh (s : σ) (a : α) : Prop :=
  ∀ c d, counter.raiser s a = some (c, d) →
    counter.written s a ∧ counter.snapshot s c = some (counter.value s)

variable {counter I} {base : ℤ} {s s' : σ} {a : α}

/-- The counter is what it was and all that is due, and no snapshot is above that. -/
structure Exact (counter : Counter M C) (base : ℤ) (s : σ) : Prop where
  value : counter.value s = base + counter.due s
  snapshot : ∀ c v, counter.snapshot s c = some v → v ≤ base + counter.due s

/-- The counter is behind, and so is every snapshot. -/
structure Behind (counter : Counter M C) (base : ℤ) (s : σ) : Prop where
  value : counter.value s < base + counter.due s
  snapshot : ∀ c v, counter.snapshot s c = some v → v < base + counter.due s

/-- A snapshot after a step is an old one or at most the value. -/
theorem Lawful.snapshot_cases (h : counter.Lawful I) (hI : I s) (hstep : M.step s a = some s')
    {bound : ℤ} (hold : ∀ c v, counter.snapshot s c = some v → v < bound)
    (hvalue : counter.value s' < bound) :
    ∀ c v, counter.snapshot s' c = some v → v < bound := by
  intro c v hv
  rcases h.taken hI hstep hv with hbefore | hbelow
  · exact hold c v hbefore
  · omega

theorem Lawful.exact_of_fresh (h : counter.Lawful I) (hI : I s) (hexact : Exact counter base s)
    (hstep : M.step s a = some s') (hfresh : counter.Fresh s a) : Exact counter base s' := by
  have hvalue := hexact.value
  cases hraiser : counter.raiser s a with
  | none =>
      obtain ⟨hdue, hsame⟩ := h.other hI hstep hraiser
      refine ⟨by omega, fun c v hv => ?_⟩
      rcases h.taken hI hstep hv with hbefore | hbelow
      · have hbound := hexact.snapshot c v hbefore
        omega
      · omega
  | some raise =>
      obtain ⟨client, d⟩ := raise
      obtain ⟨hpos, hdue, v, hsnapshot, hmade, -⟩ := h.raise hI hstep hraiser
      obtain ⟨hwritten, hcurrent⟩ := hfresh client d hraiser
      obtain rfl := Option.some.inj (hsnapshot.symm.trans hcurrent)
      have hraised := hmade hwritten
      refine ⟨by omega, fun c v hv => ?_⟩
      rcases h.taken hI hstep hv with hbefore | hbelow
      · have hbound := hexact.snapshot c v hbefore
        omega
      · omega

/-- A write that is not made, or made from a snapshot that is not the value any more. -/
theorem Lawful.behind_of_not_fresh (h : counter.Lawful I) (hI : I s)
    (hexact : Exact counter base s) (hstep : M.step s a = some s')
    (hstale : ¬ counter.Fresh s a) : Behind counter base s' := by
  have hvalue := hexact.value
  unfold Fresh at hstale
  push Not at hstale
  obtain ⟨client, d, hraiser, hstale⟩ := hstale
  obtain ⟨hpos, hdue, v, hsnapshot, hmade, hlost⟩ := h.raise hI hstep hraiser
  have hbehind : counter.value s' < base + counter.due s' := by
    by_cases hwritten : counter.written s a
    · have hraised := hmade hwritten
      have hold : v ≠ counter.value s := fun hv => hstale hwritten (hv ▸ hsnapshot)
      have hbound := hexact.snapshot client v hsnapshot
      omega
    · have hbound := hexact.snapshot client v hsnapshot
      have hshort := hlost hwritten
      omega
  refine ⟨hbehind, h.snapshot_cases hI hstep (fun c v hv => ?_) hbehind⟩
  have hbound := hexact.snapshot c v hv
  omega

theorem Lawful.behind_step (h : counter.Lawful I) (hI : I s) (hbehind : Behind counter base s)
    (hstep : M.step s a = some s') : Behind counter base s' := by
  have hvalue := hbehind.value
  cases hraiser : counter.raiser s a with
  | none =>
      obtain ⟨hdue, hsame⟩ := h.other hI hstep hraiser
      have hafter : counter.value s' < base + counter.due s' := by omega
      refine ⟨hafter, h.snapshot_cases hI hstep (fun c v hv => ?_) hafter⟩
      rw [hdue]
      exact hbehind.snapshot c v hv
  | some raise =>
      obtain ⟨client, d⟩ := raise
      obtain ⟨hpos, hdue, v, hsnapshot, hmade, hlost⟩ := h.raise hI hstep hraiser
      have hbound := hbehind.snapshot client v hsnapshot
      have hafter : counter.value s' < base + counter.due s' := by
        by_cases hwritten : counter.written s a
        · have hraised := hmade hwritten
          omega
        · have hshort := hlost hwritten
          omega
      refine ⟨hafter, h.snapshot_cases hI hstep (fun c v hv => ?_) hafter⟩
      have hothers := hbehind.snapshot c v hv
      omega

theorem Lawful.behind_run (h : counter.Lawful I)
    (hinvariant : ∀ {s a s'}, I s → M.step s a = some s' → I s') (hI : I s)
    (hbehind : Behind counter base s) (ops : List α) : Behind counter base (M.run s ops) := by
  have hboth := System.run_invariant (M := M) (P := fun s => I s ∧ Behind counter base s)
    (fun hs hstep => ⟨hinvariant hs.1 hstep, h.behind_step hs.1 hs.2 hstep⟩) ⟨hI, hbehind⟩ ops
  exact hboth.2

/-- After a run the counter has been raised by all that is due, exactly when every client that was
done has written from a fresh snapshot. -/
theorem Lawful.run_iff (h : counter.Lawful I)
    (hinvariant : ∀ {s a s'}, I s → M.step s a = some s' → I s') (hI : I s)
    (hexact : Exact counter base s) (ops : List α) :
    counter.value (M.run s ops) = base + counter.due (M.run s ops) ↔
      M.Throughout counter.Fresh s ops := by
  induction ops generalizing s with
  | nil => exact iff_of_true hexact.value trivial
  | cons a ops ih =>
      cases hstep : M.step s a with
      | none =>
          rw [System.run_cons_of_refused hstep, System.throughout_cons_of_refused hstep]
          exact ih hI hexact
      | some s' =>
          rw [System.run_cons_of_step hstep, System.throughout_cons_of_step hstep]
          by_cases hfresh : counter.Fresh s a
          · rw [ih (hinvariant hI hstep) (h.exact_of_fresh hI hexact hstep hfresh)]
            exact (and_iff_right hfresh).symm
          · have hlost := h.behind_run hinvariant (hinvariant hI hstep)
              (h.behind_of_not_fresh hI hexact hstep hfresh) ops
            apply iff_of_false (Int.ne_of_lt hlost.value)
            intro hall
            exact hfresh hall.1

end Counter

end Runs
