import Mathlib.Data.List.Induction
import Mathlib.Tactic.Common

/-!
# Runs of a system that may refuse an operation

A system takes one operation at a time and either moves to a new state or refuses, and a refused
operation leaves the state as it was. A run is a list of operations, taken in order. What a proof
about runs needs is here once: an invariant of every accepted step holds along a run, a fact that
was false at the start and is true at the end has a last step that made it true, a counter that an
operation moves past is passed only once, and what is spent along a run is bounded by what is
received when a potential covers the difference at every step.
-/

namespace Runs

/-- A system: what an accepted operation does to the state, `none` when it is refused. -/
structure System (σ α : Type*) where
  step : σ → α → Option σ

variable {σ α : Type*} (M : System σ α)

namespace System

/-- The state after one operation, accepted or refused. -/
def next (s : σ) (a : α) : σ := (M.step s a).getD s

/-- The state after a list of operations. -/
def run (s : σ) (ops : List α) : σ := ops.foldl M.next s

variable {M}

@[simp] theorem run_nil (s : σ) : M.run s [] = s := rfl

@[simp] theorem run_cons (s : σ) (a : α) (ops : List α) :
    M.run s (a :: ops) = M.run (M.next s a) ops := rfl

theorem run_append (s : σ) (first second : List α) :
    M.run s (first ++ second) = M.run (M.run s first) second :=
  List.foldl_append

theorem run_concat (s : σ) (ops : List α) (a : α) :
    M.run s (ops ++ [a]) = M.next (M.run s ops) a := by
  rw [run_append, run_cons, run_nil]

theorem next_of_step {s s' : σ} {a : α} (h : M.step s a = some s') : M.next s a = s' := by
  rw [next, h, Option.getD_some]

theorem next_of_refused {s : σ} {a : α} (h : M.step s a = none) : M.next s a = s := by
  rw [next, h, Option.getD_none]

theorem step_of_isSome {s : σ} {a : α} (h : (M.step s a).isSome = true) :
    M.step s a = some (M.next s a) := by
  obtain ⟨s', hstep⟩ := Option.isSome_iff_exists.mp h
  rw [next_of_step hstep, hstep]

/-- Either the operation was accepted or the state is unchanged. -/
theorem step_or_unchanged (s : σ) (a : α) :
    M.step s a = some (M.next s a) ∨ M.next s a = s := by
  cases h : M.step s a with
  | none => exact Or.inr (next_of_refused h)
  | some s' => rw [next_of_step h]; exact Or.inl rfl

/-! ### Invariants -/

/-- A relation between states that is reflexive, transitive and respected by every accepted step
holds between the two ends of a run. -/
theorem run_rel {R : σ → σ → Prop} (hrefl : ∀ s, R s s)
    (htrans : ∀ {s t u}, R s t → R t u → R s u)
    (hstep : ∀ {s a s'}, M.step s a = some s' → R s s') (s : σ) (ops : List α) :
    R s (M.run s ops) := by
  induction ops generalizing s with
  | nil => exact hrefl s
  | cons a ops ih =>
      rw [run_cons]
      refine htrans ?_ (ih (M.next s a))
      rcases step_or_unchanged (M := M) s a with h | h
      · exact hstep h
      · rw [h]
        exact hrefl s

theorem run_invariant {P : σ → Prop}
    (hstep : ∀ {s a s'}, P s → M.step s a = some s' → P s') {s : σ} (hs : P s) (ops : List α) :
    P (M.run s ops) :=
  run_rel (M := M) (R := fun s s' => P s → P s') (fun _ h => h) (fun hst htu h => htu (hst h))
    (fun h hs => hstep hs h) s ops hs

/-! ### Steps at a position -/

/-- Operation `a` is accepted at position `i` of the run and takes `s` to `s'`. -/
structure StepAt (M : System σ α) (s₀ : σ) (ops : List α) (i : ℕ) (a : α) (s s' : σ) : Prop where
  op : ops[i]? = some a
  before : s = M.run s₀ (ops.take i)
  step : M.step s a = some s'

theorem StepAt.after {s₀ s s' : σ} {ops : List α} {i : ℕ} {a : α}
    (h : StepAt M s₀ ops i a s s') : s' = M.run s₀ (ops.take (i + 1)) := by
  rw [List.take_add_one, h.op, Option.toList_some, run_concat, ← h.before, next_of_step h.step]

/-- One position has one step. -/
theorem StepAt.same {s₀ s s' t t' : σ} {ops : List α} {i : ℕ} {a b : α}
    (h : StepAt M s₀ ops i a s s') (h' : StepAt M s₀ ops i b t t') : a = b ∧ s = t :=
  ⟨Option.some.inj (h.op.symm.trans h'.op), h.before.trans h'.before.symm⟩

theorem step_at_or_unchanged (s₀ : σ) (ops : List α) (i : ℕ) :
    (∃ a, StepAt M s₀ ops i a (M.run s₀ (ops.take i)) (M.run s₀ (ops.take (i + 1)))) ∨
      (M.run s₀ (ops.take (i + 1)) = M.run s₀ (ops.take i) ∧
        ∀ a s s', ¬ StepAt M s₀ ops i a s s') := by
  cases hop : ops[i]? with
  | none =>
      refine Or.inr ⟨?_, fun a s s' h => ?_⟩
      · rw [List.take_add_one, hop, Option.toList_none, List.append_nil]
      · exact absurd (hop.symm.trans h.op) (by simp)
  | some a =>
      cases hstep : M.step (M.run s₀ (ops.take i)) a with
      | none =>
          refine Or.inr ⟨?_, fun b s s' h => ?_⟩
          · rw [List.take_add_one, hop, Option.toList_some, run_concat, next_of_refused hstep]
          · obtain rfl : a = b := Option.some.inj (hop.symm.trans h.op)
            have hrefused := h.step
            rw [h.before, hstep] at hrefused
            cases hrefused
      | some s' =>
          have h : StepAt M s₀ ops i a (M.run s₀ (ops.take i)) s' := ⟨hop, rfl, hstep⟩
          exact Or.inl ⟨a, h.after ▸ h⟩

/-- A relation that is reflexive, transitive and respected by the steps of a run holds between any
two of its positions. -/
theorem run_take_rel {R : σ → σ → Prop} (hrefl : ∀ s, R s s)
    (htrans : ∀ {s t u}, R s t → R t u → R s u) {s₀ : σ} {ops : List α}
    (hstep : ∀ {i a s s'}, StepAt M s₀ ops i a s s' → R s s') {m n : ℕ} (hmn : m ≤ n) :
    R (M.run s₀ (ops.take m)) (M.run s₀ (ops.take n)) := by
  induction hmn with
  | refl => exact hrefl _
  | @step n _ ih =>
      rcases step_at_or_unchanged (M := M) s₀ ops n with ⟨a, h⟩ | ⟨h, -⟩
      · exact htrans ih (hstep h)
      · rw [h]
        exact ih

theorem run_of_stepAt {P : σ → Prop} {s₀ : σ} {ops : List α}
    (hstep : ∀ {i a s s'}, StepAt M s₀ ops i a s s' → P s → P s') (hs : P s₀) :
    P (M.run s₀ ops) := by
  have hrun := run_take_rel (R := fun s s' => P s → P s') (fun _ h => h)
    (fun hst htu h => htu (hst h)) hstep (Nat.zero_le ops.length) hs
  rwa [List.take_length] at hrun

theorem run_take_of_le (s₀ : σ) (ops : List α) {i j : ℕ} (hij : i ≤ j) :
    ∃ mid, M.run s₀ (ops.take j) = M.run (M.run s₀ (ops.take i)) mid := by
  refine ⟨(ops.take j).drop i, ?_⟩
  have hsplit : ops.take j = ops.take i ++ (ops.take j).drop i := by
    conv_lhs => rw [← List.take_append_drop i (ops.take j)]
    rw [List.take_take, Nat.min_eq_left hij]
  conv_lhs => rw [hsplit, run_append]

theorem StepAt.later {s₀ s s' : σ} {ops : List α} {i j : ℕ} {a : α}
    (hi : StepAt M s₀ ops i a s s') (hij : i < j) : ∃ mid, M.run s₀ (ops.take j) = M.run s' mid :=
  hi.after ▸ run_take_of_le s₀ ops hij

/-- A step that needs a fact, takes it away, and can never have it again happens only once. -/
theorem StepAt.unique (Spends : α → σ → Prop) (Spent : σ → Prop) {s₀ : σ} {ops : List α}
    (hspend : ∀ {s a s'}, Spends a s → M.step s a = some s' → Spent s')
    (hstays : ∀ {s a s'}, Spent s → M.step s a = some s' → Spent s')
    (hclash : ∀ {s a s'}, Spent s → Spends a s → M.step s a = some s' → False)
    {i j : ℕ} {a b : α} {s s' t t' : σ}
    (hi : StepAt M s₀ ops i a s s') (hj : StepAt M s₀ ops j b t t')
    (ha : Spends a s) (hb : Spends b t) : i = j := by
  have hno : ∀ {i j a b s s' t t'}, StepAt M s₀ ops i a s s' → StepAt M s₀ ops j b t t' →
      Spends a s → Spends b t → ¬ i < j := by
    intro i j a b s s' t t' hi hj ha hb hij
    obtain ⟨mid, hmid⟩ := hi.later hij
    obtain rfl := hj.before.trans hmid
    exact hclash (run_invariant (fun hs h => hstays hs h) (hspend ha hi.step) mid) hb hj.step
  exact Nat.le_antisymm (Nat.le_of_not_lt (hno hj hi hb ha)) (Nat.le_of_not_lt (hno hi hj ha hb))

/-- A fact that is false at position `m` and true at `n` was made true by an operation between. -/
theorem exists_step_between {P : σ → Prop} {s₀ : σ} {ops : List α} {m n : ℕ} (hmn : m ≤ n)
    (hm : ¬ P (M.run s₀ (ops.take m))) (hn : P (M.run s₀ (ops.take n))) :
    ∃ i a s s', m ≤ i ∧ i < n ∧ StepAt M s₀ ops i a s s' ∧ ¬ P s ∧ P s' := by
  induction hmn with
  | refl => exact absurd hn hm
  | @step n hmn ih =>
      by_cases hbefore : P (M.run s₀ (ops.take n))
      · obtain ⟨i, a, s, s', hi, hin, hrest⟩ := ih hbefore
        exact ⟨i, a, s, s', hi, Nat.lt_succ_of_lt hin, hrest⟩
      · rcases step_at_or_unchanged (M := M) s₀ ops n with ⟨a, h⟩ | ⟨h, -⟩
        · exact ⟨n, a, _, _, hmn, Nat.lt_succ_self n, h, hbefore, hn⟩
        · exact absurd (h ▸ hn) hbefore

/-- Within `n` operations `v` was the last value written, or it was there first and none was. -/
def LastWrite (M : System σ α) {β : Type*} (read : σ → Option β) (write : α → Option β) (s₀ : σ)
    (ops : List α) (n : ℕ) (v : β) : Prop :=
  (∃ i a s s', StepAt M s₀ ops i a s s' ∧ i < n ∧ write a = some v ∧
    ∀ j b t t', i < j → j < n → StepAt M s₀ ops j b t t' → write b = none) ∨
  (read s₀ = some v ∧ ∀ j b t t', j < n → StepAt M s₀ ops j b t t' → write b = none)

theorem LastWrite.succ {β : Type*} {read : σ → Option β} {write : α → Option β} {s₀ : σ}
    {ops : List α} {n : ℕ} {v : β} (h : LastWrite M read write s₀ ops n v)
    (hnone : ∀ a s s', StepAt M s₀ ops n a s s' → write a = none) :
    LastWrite M read write s₀ ops (n + 1) v := by
  rcases h with ⟨i, a, s, s', hi, hin, ha, hlast⟩ | ⟨hfirst, hlast⟩
  · refine Or.inl ⟨i, a, s, s', hi, Nat.lt_succ_of_lt hin, ha, fun j b t t' hij hj hb => ?_⟩
    rcases Nat.lt_succ_iff_lt_or_eq.mp hj with hj | rfl
    · exact hlast j b t t' hij hj hb
    · exact hnone b t t' hb
  · refine Or.inr ⟨hfirst, fun j b t t' hj hb => ?_⟩
    rcases Nat.lt_succ_iff_lt_or_eq.mp hj with hj | rfl
    · exact hlast j b t t' hj hb
    · exact hnone b t t' hb

theorem LastWrite.unique {β : Type*} {read : σ → Option β} {write : α → Option β} {s₀ : σ}
    {ops : List α} {n : ℕ} {v w : β} (hv : LastWrite M read write s₀ ops n v)
    (hw : LastWrite M read write s₀ ops n w) : v = w := by
  rcases hv with ⟨i, a, s, s', hi, hin, ha, hlast⟩ | ⟨hfirst, hlast⟩
  · rcases hw with ⟨j, b, t, t', hj, hjn, hb, hlast'⟩ | ⟨-, hnone⟩
    · rcases Nat.lt_trichotomy i j with hij | rfl | hji
      · cases hb.symm.trans (hlast j b t t' hij hjn hj)
      · cases hi.op.symm.trans hj.op
        exact Option.some.inj (ha.symm.trans hb)
      · cases ha.symm.trans (hlast' i a s s' hji hin hi)
    · cases ha.symm.trans (hnone i a s s' hin hi)
  · rcases hw with ⟨j, b, t, t', hj, hjn, hb, -⟩ | ⟨hfirst', -⟩
    · cases hb.symm.trans (hlast j b t t' hjn hj)
    · exact Option.some.inj (hfirst.symm.trans hfirst')

/-- A value that only writes change was put there by the last write of the run, if there was one. -/
theorem last_write {β : Type*} (read : σ → Option β) (write : α → Option β) {s₀ : σ}
    {ops : List α}
    (hstep : ∀ {i a s s'}, StepAt M s₀ ops i a s s' → read s' = (write a).or (read s))
    {n : ℕ} {v : β} (hrun : read (M.run s₀ (ops.take n)) = some v) :
    LastWrite M read write s₀ ops n v := by
  induction n with
  | zero => exact Or.inr ⟨hrun, fun j b t t' hj => absurd hj (Nat.not_lt_zero j)⟩
  | succ n ih =>
      rcases step_at_or_unchanged (M := M) s₀ ops n with ⟨a, h⟩ | ⟨h, hnone⟩
      · rw [hstep h] at hrun
        cases hwrite : write a with
        | some w =>
            rw [hwrite, Option.some_or] at hrun
            refine Or.inl ⟨n, a, _, _, h, Nat.lt_succ_self n, hwrite.trans hrun, ?_⟩
            intro j b t t' hj hjn
            omega
        | none =>
            rw [hwrite, Option.none_or] at hrun
            apply (ih hrun).succ
            intro b t t' hb
            obtain rfl : a = b := Option.some.inj (h.op.symm.trans hb.op)
            exact hwrite
      · exact (ih (h ▸ hrun)).succ fun b t t' hb => absurd hb (hnone b t t')

/-! ### Conditions on every step -/

/-- Every accepted operation of the run has the property in the state it meets. -/
def Throughout (M : System σ α) (P : σ → α → Prop) : σ → List α → Prop
  | _, [] => True
  | s, a :: ops => ((M.step s a).isSome = true → P s a) ∧ M.Throughout P (M.next s a) ops

variable {P : σ → α → Prop} {I : σ → Prop} {s s' : σ} {a : α} {ops : List α}

theorem throughout_cons_of_step (h : M.step s a = some s') :
    M.Throughout P s (a :: ops) ↔ P s a ∧ M.Throughout P s' ops := by
  rw [Throughout, next_of_step h, h, Option.isSome_some]
  simp only [forall_const]

theorem throughout_cons_of_refused (h : M.step s a = none) :
    M.Throughout P s (a :: ops) ↔ M.Throughout P s ops := by
  rw [Throughout, next_of_refused h, h]
  simp

theorem run_cons_of_refused (h : M.step s a = none) : M.run s (a :: ops) = M.run s ops := by
  rw [run_cons, next_of_refused h]

theorem Throughout.and {Q : σ → α → Prop} (hP : M.Throughout P s ops)
    (hQ : M.Throughout Q s ops) : M.Throughout (fun s a => P s a ∧ Q s a) s ops := by
  induction ops generalizing s with
  | nil => trivial
  | cons a ops ih => exact ⟨fun hsome => ⟨hP.1 hsome, hQ.1 hsome⟩, ih hP.2 hQ.2⟩

theorem run_cons_of_step (h : M.step s a = some s') : M.run s (a :: ops) = M.run s' ops := by
  rw [run_cons, next_of_step h]

theorem Throughout.take (h : M.Throughout P s ops) (n : ℕ) : M.Throughout P s (ops.take n) := by
  induction ops generalizing s n with
  | nil => rwa [List.take_nil]
  | cons a ops ih =>
      cases n with
      | zero => trivial
      | succ n => exact ⟨h.1, ih h.2 n⟩

/-- What every step keeps under the condition may be used along with it. -/
theorem Throughout.and_invariant (h : M.Throughout P s ops)
    (hstep : ∀ {s a s'}, P s a → I s → M.step s a = some s' → I s') (hs : I s) :
    M.Throughout (fun s a => P s a ∧ I s) s ops := by
  induction ops generalizing s with
  | nil => trivial
  | cons a ops ih =>
      refine ⟨fun hsome => ⟨h.1 hsome, hs⟩, ih h.2 ?_⟩
      rcases step_or_unchanged (M := M) s a with hnext | hnext
      · exact hstep (h.1 (by rw [hnext, Option.isSome_some])) hs hnext
      · rwa [hnext]

theorem Throughout.invariant (h : M.Throughout P s ops)
    (hstep : ∀ {s a s'}, P s a → I s → M.step s a = some s' → I s') (hs : I s) :
    I (M.run s ops) := by
  induction ops generalizing s with
  | nil => exact hs
  | cons a ops ih =>
      apply ih h.2
      rcases step_or_unchanged (M := M) s a with hnext | hnext
      · exact hstep (h.1 (by rw [hnext, Option.isSome_some])) hs hnext
      · rwa [hnext]

theorem StepAt.succ_cons {t t' : σ} {b : α} {i : ℕ} :
    StepAt M s (a :: ops) (i + 1) b t t' ↔ StepAt M (M.next s a) ops i b t t' :=
  ⟨fun h => ⟨h.op, h.before, h.step⟩, fun h => ⟨h.op, h.before, h.step⟩⟩

/-- A condition on every step is one on the steps at all positions. -/
theorem throughout_iff_stepAt :
    M.Throughout P s ops ↔ ∀ i b t t', StepAt M s ops i b t t' → P t b := by
  induction ops generalizing s with
  | nil =>
      refine iff_of_true trivial fun i b t t' h => ?_
      cases h.op
  | cons a ops ih =>
      rw [Throughout, ih]
      constructor
      · rintro ⟨hfirst, hrest⟩ i b t t' h
        cases i with
        | zero =>
            cases h.op
            obtain rfl : t = s := h.before
            exact hfirst (by rw [h.step, Option.isSome_some])
        | succ i => exact hrest i b t t' (StepAt.succ_cons.mp h)
      · intro hall
        refine ⟨fun hsome => ?_, fun i b t t' h => hall (i + 1) b t t' (StepAt.succ_cons.mpr h)⟩
        exact hall 0 a s (M.next s a) ⟨rfl, rfl, step_of_isSome hsome⟩

/-- What a step keeps under a condition, and only under it, holds at every moment of a run exactly
when every step meets the condition. -/
theorem always_iff_throughout {Q : σ → Prop}
    (hiff : ∀ {s a s'}, I s → Q s → M.step s a = some s' → (Q s' ↔ P s a))
    (hstep : ∀ {s a s'}, I s → Q s → M.step s a = some s' → Q s' → I s') (hI : I s) (hQ : Q s)
    (ops : List α) : (∀ n, Q (M.run s (ops.take n))) ↔ M.Throughout P s ops := by
  induction ops generalizing s with
  | nil => exact iff_of_true (fun n => by rwa [List.take_nil]) trivial
  | cons a ops ih =>
      cases hnext : M.step s a with
      | none =>
          rw [throughout_cons_of_refused hnext, ← ih hI hQ]
          constructor
          · intro hall n
            have hlater := hall (n + 1)
            rwa [List.take_succ_cons, run_cons_of_refused hnext] at hlater
          · intro hall n
            cases n with
            | zero => exact hQ
            | succ n =>
                rw [List.take_succ_cons, run_cons_of_refused hnext]
                exact hall n
      | some s' =>
          rw [throughout_cons_of_step hnext, ← hiff hI hQ hnext]
          constructor
          · intro hall
            have hQ' : Q s' := by
              have hfirst := hall 1
              rwa [List.take_succ_cons, List.take_zero, run_cons_of_step hnext] at hfirst
            refine ⟨hQ', (ih (hstep hI hQ hnext hQ') hQ').mp fun n => ?_⟩
            have hlater := hall (n + 1)
            rwa [List.take_succ_cons, run_cons_of_step hnext] at hlater
          · rintro ⟨hQ', hrest⟩ n
            cases n with
            | zero => exact hQ
            | succ n =>
                rw [List.take_succ_cons, run_cons_of_step hnext]
                exact (ih (hstep hI hQ hnext hQ') hQ').mpr hrest n

theorem StepAt.lt_length {i : ℕ} {t t' : σ} (h : StepAt M s ops i a t t') : i < ops.length :=
  (List.getElem?_eq_some_iff.mp h.op).1

/-- A run that is one operation longer has one more step, unless the operation is refused. -/
theorem stepAt_concat {i : ℕ} {b : α} {t t' : σ} :
    StepAt M s (ops ++ [a]) i b t t' ↔ StepAt M s ops i b t t' ∨
      i = ops.length ∧ a = b ∧ M.run s ops = t ∧ M.step t b = some t' := by
  constructor
  · intro h
    rcases Nat.lt_or_ge i ops.length with hi | hi
    · refine Or.inl ⟨?_, ?_, h.step⟩
      · rw [← h.op, List.getElem?_append_left hi]
      · rw [h.before, List.take_append_of_le_length (Nat.le_of_lt hi)]
    · have hlength := h.lt_length
      rw [List.length_append, List.length_singleton] at hlength
      obtain rfl : i = ops.length := by omega
      refine Or.inr ⟨rfl, ?_, ?_, h.step⟩
      · simpa using h.op
      · rw [h.before, List.take_left]
  · rintro (h | ⟨rfl, rfl, rfl, hstep⟩)
    · refine ⟨?_, ?_, h.step⟩
      · rw [← h.op, List.getElem?_append_left h.lt_length]
      · rw [h.before, List.take_append_of_le_length (Nat.le_of_lt h.lt_length)]
    · exact ⟨List.getElem?_concat_length, by rw [List.take_left], hstep⟩

theorem not_last_of_refused (h : M.step (M.run s ops) a = none) {i : ℕ} {b : α} {t t' : σ} :
    ¬ (i = ops.length ∧ a = b ∧ M.run s ops = t ∧ M.step t b = some t') := by
  rintro ⟨-, rfl, rfl, hstep⟩
  rw [h] at hstep
  cases hstep

/-- A value that some steps put in place and others take away is there at the end of a run exactly
when it was put in place and since then nothing was put there and it was not taken away. -/
theorem put_iff {β : Type*} (read : σ → Option β) {puts : σ → α → Option β}
    {takes : σ → α → β → Prop} (hstart : read s = none)
    (hput : ∀ {s a s'} {v : β}, M.step s a = some s' → puts s a = some v → read s' = some v)
    (hkeep : ∀ {s a s'} {v : β}, M.step s a = some s' → puts s a = none →
      (read s' = some v ↔ read s = some v ∧ ¬ takes s a v)) {v : β} :
    read (M.run s ops) = some v ↔ ∃ i a t t', StepAt M s ops i a t t' ∧ puts t a = some v ∧
      ∀ j b u u', i < j → StepAt M s ops j b u u' → puts u b = none ∧ ¬ takes u b v := by
  induction ops using List.reverseRecOn with
  | nil =>
      rw [run_nil, hstart]
      refine iff_of_false nofun ?_
      rintro ⟨i, a, t, t', ha, -⟩
      exact Nat.not_lt_zero i ha.lt_length
  | append_singleton ops a ih =>
      simp only [stepAt_concat]
      cases hstep : M.step (M.run s ops) a with
      | none =>
          rw [run_concat, next_of_refused hstep, ih]
          simp only [not_last_of_refused hstep, or_false]
      | some s' =>
          have hlast : ops.length = ops.length ∧ a = a ∧ M.run s ops = M.run s ops ∧
            M.step (M.run s ops) a = some s' := ⟨rfl, rfl, rfl, hstep⟩
          rw [run_concat, next_of_step hstep]
          cases hputs : puts (M.run s ops) a with
          | some w =>
              rw [hput hstep hputs]
              constructor
              · intro hw
                refine ⟨ops.length, a, _, s', Or.inr hlast, hputs.trans hw, ?_⟩
                intro j b u u' hj hb
                rcases hb with hb | ⟨hb, -⟩
                · exact absurd hb.lt_length (Nat.lt_asymm hj)
                · exact absurd hb (Nat.ne_of_gt hj)
              · rintro ⟨i, b, t, t', hb | ⟨-, rfl, rfl, -⟩, hv, hsince⟩
                · have hnone := (hsince ops.length a _ s' hb.lt_length (Or.inr hlast)).1
                  cases hputs.symm.trans hnone
                · exact hputs.symm.trans hv
          | none =>
              rw [hkeep hstep hputs, ih]
              constructor
              · rintro ⟨⟨i, b, t, t', hb, hv, hsince⟩, hleft⟩
                refine ⟨i, b, t, t', Or.inl hb, hv, fun j c u u' hij hc => ?_⟩
                rcases hc with hc | ⟨-, rfl, rfl, -⟩
                · exact hsince j c u u' hij hc
                · exact ⟨hputs, hleft⟩
              · rintro ⟨i, b, t, t', hb | ⟨-, rfl, rfl, -⟩, hv, hsince⟩
                · refine ⟨⟨i, b, t, t', hb, hv, fun j c u u' hij hc => ?_⟩, ?_⟩
                  · exact hsince j c u u' hij (Or.inl hc)
                  · exact (hsince ops.length a _ s' hb.lt_length (Or.inr hlast)).2
                · cases hputs.symm.trans hv

/-- What the accepted operations of a run add up to, each measured in the state it meets. -/
def total (M : System σ α) (amount : σ → α → ℕ) : σ → List α → ℕ
  | _, [] => 0
  | s, a :: ops =>
    (if (M.step s a).isSome = true then amount s a else 0) + M.total amount (M.next s a) ops

theorem total_cons_of_step {amount : σ → α → ℕ} (h : M.step s a = some s') :
    M.total amount s (a :: ops) = amount s a + M.total amount s' ops := by
  rw [total, next_of_step h, h, Option.isSome_some, if_pos rfl]

theorem total_cons_of_refused {amount : σ → α → ℕ} (h : M.step s a = none) :
    M.total amount s (a :: ops) = M.total amount s ops := by
  rw [total, next_of_refused h, h, Option.isSome_none, if_neg Bool.false_ne_true, Nat.zero_add]

/-- What every step lets in and out makes up the difference between the two ends of a run. -/
theorem run_add_total {out into : σ → α → ℕ} {value : σ → ℕ}
    (hstep : ∀ {s a s'}, M.step s a = some s' → value s' + out s a = value s + into s a) (s : σ)
    (ops : List α) :
    value (M.run s ops) + M.total out s ops = value s + M.total into s ops := by
  induction ops generalizing s with
  | nil => rfl
  | cons a ops ih =>
      cases hnext : M.step s a with
      | none =>
          rw [run_cons_of_refused hnext, total_cons_of_refused hnext, total_cons_of_refused hnext]
          exact ih s
      | some s' =>
          have hfirst := hstep hnext
          have hrest := ih s'
          rw [run_cons_of_step hnext, total_cons_of_step hnext, total_cons_of_step hnext]
          omega

/-- When no step spends more than a multiple of what it receives and the potential gives back, no
run does. -/
theorem Throughout.total_le {spent received : σ → α → ℕ} {potential : σ → ℕ} {rate : ℕ}
    (h : M.Throughout P s ops)
    (hstep : ∀ {s a s'}, P s a → M.step s a = some s' →
      spent s a + potential s' ≤ rate * received s a + potential s) :
    M.total spent s ops + potential (M.run s ops) ≤
      rate * M.total received s ops + potential s := by
  induction ops generalizing s with
  | nil => exact Nat.le_refl _
  | cons a ops ih =>
      have hrest := ih h.2
      cases hnext : M.step s a with
      | none =>
          rw [next_of_refused hnext] at hrest
          rw [run_cons, next_of_refused hnext, total, total, next_of_refused hnext, hnext]
          simpa using hrest
      | some s' =>
          have hpaid := hstep (h.1 (by rw [hnext, Option.isSome_some])) hnext
          rw [next_of_step hnext] at hrest
          rw [run_cons_of_step hnext, total_cons_of_step hnext, total_cons_of_step hnext,
            Nat.mul_add]
          omega

/-! ### Runs within another system -/

section Within

variable {τ β : Type*} {N : System τ β} {f : σ → τ} {g : α → β}

/-- A system whose operations are some of another one's has its runs as runs of the other. -/
theorem run_map (hstep : ∀ s a, N.step (f s) (g a) = (M.step s a).map f) (s : σ) (ops : List α) :
    N.run (f s) (ops.map g) = f (M.run s ops) := by
  induction ops generalizing s with
  | nil => rfl
  | cons a ops ih =>
      rw [List.map_cons, run_cons, run_cons, ← ih, next, next, hstep]
      cases M.step s a <;> rfl

theorem throughout_map (hstep : ∀ s a, N.step (f s) (g a) = (M.step s a).map f)
    {P : τ → β → Prop} (s : σ) (ops : List α) :
    N.Throughout P (f s) (ops.map g) ↔ M.Throughout (fun s a => P (f s) (g a)) s ops := by
  induction ops generalizing s with
  | nil => exact Iff.rfl
  | cons a ops ih =>
      have hnext : N.next (f s) (g a) = f (M.next s a) := run_map hstep s [a]
      rw [List.map_cons, Throughout, Throughout, hstep, Option.isSome_map, hnext, ih]

theorem total_map (hstep : ∀ s a, N.step (f s) (g a) = (M.step s a).map f)
    {amount : τ → β → ℕ} (s : σ) (ops : List α) :
    N.total amount (f s) (ops.map g) = M.total (fun s a => amount (f s) (g a)) s ops := by
  induction ops generalizing s with
  | nil => rfl
  | cons a ops ih =>
      have hnext : N.next (f s) (g a) = f (M.next s a) := run_map hstep s [a]
      rw [List.map_cons, total, total, hstep, Option.isSome_map, hnext, ih]

end Within

end System

end Runs
