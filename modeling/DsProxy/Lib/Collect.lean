import DsProxy.Lib.Run

/-!
# What a run collects

Every accepted step yields a list, and a run yields the lists of its steps one after the other. When
the entries of each step lie between the values of a counter before and after it, and rise, the
entries of the run do: none comes twice. What two lists of every step have to do with each other
carries over to the run.
-/

namespace Runs

variable {σ α β : Type*}

/-- The entries rise, from a lower bound on and below an upper one. -/
structure Climbs (rank : β → ℕ) (low high : ℕ) (l : List β) : Prop where
  rising : l.Pairwise fun a b => rank a < rank b
  bounded : ∀ b ∈ l, low ≤ rank b ∧ rank b < high
  le : low ≤ high

namespace Climbs

variable {rank : β → ℕ} {low mid high : ℕ} {l l' : List β}

theorem nil (h : low ≤ high) : Climbs rank low high ([] : List β) :=
  ⟨List.Pairwise.nil, fun _ hb => absurd hb List.not_mem_nil, h⟩

theorem singleton {b : β} (h : rank b < high) : Climbs rank (rank b) high [b] := by
  refine ⟨List.pairwise_singleton _ _, fun c hc => ?_, Nat.le_of_lt h⟩
  obtain rfl := List.mem_singleton.mp hc
  exact ⟨Nat.le_refl _, h⟩

theorem append (h : Climbs rank low mid l) (h' : Climbs rank mid high l') :
    Climbs rank low high (l ++ l') := by
  have hlow := h.le
  have hhigh := h'.le
  refine ⟨List.pairwise_append.mpr ⟨h.rising, h'.rising, fun a ha b hb => ?_⟩, fun b hb => ?_, ?_⟩
  · exact Nat.lt_of_lt_of_le (h.bounded a ha).2 (h'.bounded b hb).1
  · rcases List.mem_append.mp hb with hb | hb
    · have hbounds := h.bounded b hb
      omega
    · have hbounds := h'.bounded b hb
      omega
  · omega

theorem nodup (h : Climbs rank low high l) : l.Nodup :=
  h.rising.imp fun hlt heq => Nat.ne_of_lt hlt (congrArg rank heq)

end Climbs

namespace System

variable {M : System σ α} {f g : σ → α → List β} {s s' : σ} {a : α} {ops : List α}

/-- The lists of the accepted steps of a run, each measured in the state it meets. -/
def collect (M : System σ α) (f : σ → α → List β) : σ → List α → List β
  | _, [] => []
  | s, a :: ops =>
    (if (M.step s a).isSome = true then f s a else []) ++ M.collect f (M.next s a) ops

theorem collect_cons_of_step (h : M.step s a = some s') :
    M.collect f s (a :: ops) = f s a ++ M.collect f s' ops := by
  rw [collect, next_of_step h, h, Option.isSome_some, if_pos rfl]

theorem collect_cons_of_refused (h : M.step s a = none) :
    M.collect f s (a :: ops) = M.collect f s ops := by
  rw [collect, next_of_refused h, h, Option.isSome_none, if_neg Bool.false_ne_true, List.nil_append]

theorem collect_sublist (hstep : ∀ {s a s'}, M.step s a = some s' → (f s a).Sublist (g s a))
    (s : σ) (ops : List α) : (M.collect f s ops).Sublist (M.collect g s ops) := by
  induction ops generalizing s with
  | nil => exact List.Sublist.refl _
  | cons a ops ih =>
      cases h : M.step s a with
      | none =>
          rw [collect_cons_of_refused h, collect_cons_of_refused h]
          exact ih s
      | some s' =>
          rw [collect_cons_of_step h, collect_cons_of_step h]
          exact (hstep h).append (ih s')

/-- What rises within every step rises along a run. -/
theorem collect_climbs {rank : β → ℕ} {counter : σ → ℕ}
    (hstep : ∀ {s a s'}, M.step s a = some s' →
      Climbs rank (counter s) (counter s') (f s a)) (s : σ) (ops : List α) :
    Climbs rank (counter s) (counter (M.run s ops)) (M.collect f s ops) := by
  induction ops generalizing s with
  | nil => exact Climbs.nil (Nat.le_refl _)
  | cons a ops ih =>
      cases h : M.step s a with
      | none =>
          rw [collect_cons_of_refused h, run_cons_of_refused h]
          exact ih s
      | some s' =>
          rw [collect_cons_of_step h, run_cons_of_step h]
          exact (hstep h).append (ih s')

/-! ### Two amounts of every step -/

variable {spent received : σ → α → ℕ}

theorem total_le_total (hstep : ∀ {s a s'}, M.step s a = some s' → received s a ≤ spent s a)
    (s : σ) (ops : List α) : M.total received s ops ≤ M.total spent s ops := by
  induction ops generalizing s with
  | nil => exact Nat.le_refl _
  | cons a ops ih =>
      cases h : M.step s a with
      | none =>
          rw [total_cons_of_refused h, total_cons_of_refused h]
          exact ih s
      | some s' =>
          rw [total_cons_of_step h, total_cons_of_step h]
          exact Nat.add_le_add (hstep h) (ih s')

/-- When no step gives back more than it takes, a run gives everything back only when each of its
steps does. -/
theorem total_le_iff_throughout
    (hstep : ∀ {s a s'}, M.step s a = some s' → received s a ≤ spent s a) (s : σ) (ops : List α) :
    M.total spent s ops ≤ M.total received s ops ↔
      M.Throughout (fun s a => spent s a ≤ received s a) s ops := by
  induction ops generalizing s with
  | nil => exact iff_of_true (Nat.le_refl _) trivial
  | cons a ops ih =>
      cases h : M.step s a with
      | none =>
          rw [total_cons_of_refused h, total_cons_of_refused h, throughout_cons_of_refused h]
          exact ih s
      | some s' =>
          have hfirst := hstep h
          have hrest := total_le_total (M := M) hstep s' ops
          rw [total_cons_of_step h, total_cons_of_step h, throughout_cons_of_step h, ← ih]
          omega

/-- Conditions that all hold throughout a run hold together at every step of it. -/
theorem forall_throughout {ι : Type*} {P : ι → σ → α → Prop} :
    (∀ k, M.Throughout (P k) s ops) ↔ M.Throughout (fun s a => ∀ k, P k s a) s ops := by
  induction ops generalizing s with
  | nil => exact iff_of_true (fun _ => trivial) trivial
  | cons a ops ih =>
      simp only [Throughout, forall_and, ih, forall_comm (α := ι)]

end System

end Runs
