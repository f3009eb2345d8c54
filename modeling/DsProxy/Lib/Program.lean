import Mathlib.Tactic.Common

/-!
# Programs that call their environment

A program returns a value, or makes a call and goes on with the answer. Databases, networks and
other services are the calls; a run of the program is fixed by what the environment answers. Two
things matter about a run: what the program returned, and which calls it made.
-/

/-- A program over calls `Call`, each answered in its own type. -/
inductive Program {Call : Type} (Answer : Call → Type) (α : Type)
  | ret (a : α)
  | call (c : Call) (next : Answer c → Program Answer α)

namespace Program

variable {Call : Type} {Answer : Call → Type} {α β : Type}

def bind : Program Answer α → (α → Program Answer β) → Program Answer β
  | .ret a, f => f a
  | .call c next, f => .call c fun answer => (next answer).bind f

instance : Monad (Program Answer) where
  pure := .ret
  bind := .bind

/-- Make one call and return its answer. -/
def perform (c : Call) : Program Answer (Answer c) := .call c .ret

/-- What a program returns when the environment answers each call as `answer` says. -/
def eval (answer : ∀ c, Answer c) : Program Answer α → α
  | .ret a => a
  | .call c next => (next (answer c)).eval answer

/-- The calls made, in order. -/
def calls (answer : ∀ c, Answer c) : Program Answer α → List Call
  | .ret _ => []
  | .call c next => c :: (next (answer c)).calls answer

/-- Every call that any answers can lead to has the property. -/
def Forall (P : Call → Prop) : Program Answer α → Prop
  | .ret _ => True
  | .call c next => P c ∧ ∀ answer, (next answer).Forall P

/-- Running against an environment with a state of its own. -/
def exec {σ : Type} (handle : ∀ c, σ → Answer c × σ) : Program Answer α → σ → α × σ
  | .ret a, s => (a, s)
  | .call c next, s => (next (handle c s).1).exec handle (handle c s).2

/-- The calls such a run makes, in order. -/
def trace {σ : Type} (handle : ∀ c, σ → Answer c × σ) : Program Answer α → σ → List Call
  | .ret _, _ => []
  | .call c next, s => c :: (next (handle c s).1).trace handle (handle c s).2

/-- Running against an environment that may break the run off. -/
def tryExec {σ : Type} (handle : ∀ c, σ → Option (Answer c × σ)) :
    Program Answer α → σ → Option (α × σ)
  | .ret a, s => some (a, s)
  | .call c next, s => do
    let (answer, s') ← handle c s
    (next answer).tryExec handle s'

variable (answer : ∀ c, Answer c)

@[simp] theorem eval_pure (a : α) : eval answer (pure a : Program Answer α) = a := rfl

@[simp] theorem eval_perform (c : Call) : eval answer (perform c) = answer c := rfl

@[simp] theorem calls_pure (a : α) : calls answer (pure a : Program Answer α) = [] := rfl

@[simp] theorem calls_perform (c : Call) : calls answer (perform c) = [c] := rfl

@[simp] theorem eval_bind (p : Program Answer α) (f : α → Program Answer β) :
    eval answer (p >>= f) = eval answer (f (eval answer p)) := by
  change eval answer (p.bind f) = _
  induction p with
  | ret a => rfl
  | call c next ih => exact ih (answer c)

@[simp] theorem calls_bind (p : Program Answer α) (f : α → Program Answer β) :
    calls answer (p >>= f) = calls answer p ++ calls answer (f (eval answer p)) := by
  change calls answer (p.bind f) = _
  induction p with
  | ret a => rfl
  | call c next ih => exact congrArg (c :: ·) (ih (answer c))

@[simp] theorem eval_ite (condition : Prop) [Decidable condition] (p q : Program Answer α) :
    eval answer (if condition then p else q) = if condition then eval answer p else eval answer q :=
  apply_ite _ _ _ _

@[simp] theorem calls_ite (condition : Prop) [Decidable condition] (p q : Program Answer α) :
    calls answer (if condition then p else q) =
      if condition then calls answer p else calls answer q :=
  apply_ite _ _ _ _

/-! ### Runs against an environment -/

section Exec

variable {σ : Type} (handle : ∀ c, σ → Answer c × σ) (s : σ)

@[simp] theorem exec_bind (p : Program Answer α) (f : α → Program Answer β) :
    (p >>= f).exec handle s =
      (f (p.exec handle s).1).exec handle (p.exec handle s).2 := by
  change (p.bind f).exec handle s = _
  induction p generalizing s with
  | ret a => rfl
  | call c next ih => exact ih (handle c s).1 (handle c s).2

@[simp] theorem trace_bind (p : Program Answer α) (f : α → Program Answer β) :
    (p >>= f).trace handle s = p.trace handle s ++
      (f (p.exec handle s).1).trace handle (p.exec handle s).2 := by
  change (p.bind f).trace handle s = _
  induction p generalizing s with
  | ret a => rfl
  | call c next ih => exact congrArg (c :: ·) (ih (handle c s).1 (handle c s).2)

end Exec

/-! ### Runs that may break off -/

section TryExec

variable {σ : Type} (handle : ∀ c, σ → Option (Answer c × σ)) (s : σ)

theorem tryExec_call_eq_some {c : Call} {next : Answer c → Program Answer α} {result : α × σ} :
    (call c next).tryExec handle s = some result ↔
      ∃ answer s', handle c s = some (answer, s') ∧
        (next answer).tryExec handle s' = some result := by
  refine Option.bind_eq_some_iff.trans ⟨?_, ?_⟩
  · rintro ⟨⟨answer, s'⟩, hanswer, hrest⟩
    exact ⟨answer, s', hanswer, hrest⟩
  · rintro ⟨answer, s', hanswer, hrest⟩
    exact ⟨(answer, s'), hanswer, hrest⟩

@[simp] theorem tryExec_bind (p : Program Answer α) (f : α → Program Answer β) :
    (p >>= f).tryExec handle s =
      (p.tryExec handle s).bind fun result => (f result.1).tryExec handle result.2 := by
  change (p.bind f).tryExec handle s = _
  induction p generalizing s with
  | ret a => rfl
  | call c next ih =>
      change (handle c s).bind _ = ((handle c s).bind _).bind _
      rw [Option.bind_assoc]
      exact congrArg _ (funext fun result => ih result.1 result.2)

end TryExec

/-! ### Properties of all calls -/

variable {P : Call → Prop}

@[simp] theorem forall_pure (a : α) : (pure a : Program Answer α).Forall P := trivial

@[simp] theorem forall_perform (c : Call) :
    (perform c : Program Answer (Answer c)).Forall P ↔ P c :=
  ⟨fun h => h.1, fun h => ⟨h, fun _ => trivial⟩⟩

theorem Forall.bind {p : Program Answer α} {f : α → Program Answer β} (hp : p.Forall P)
    (hf : ∀ a, (f a).Forall P) : (p >>= f).Forall P := by
  change (p.bind f).Forall P
  induction p with
  | ret a => exact hf a
  | call c next ih => exact ⟨hp.1, fun answer => ih answer (hp.2 answer)⟩

theorem Forall.mono {Q : Call → Prop} {p : Program Answer α} (hp : p.Forall P)
    (h : ∀ c, P c → Q c) : p.Forall Q := by
  induction p with
  | ret a => trivial
  | call c next ih => exact ⟨h c hp.1, fun answer => ih answer (hp.2 answer)⟩

/-- What holds of all calls holds of those a run makes. -/
theorem Forall.of_mem_calls {p : Program Answer α} (hp : p.Forall P) {c : Call}
    (hc : c ∈ p.calls answer) : P c := by
  induction p with
  | ret a => cases hc
  | call c' next ih =>
      rcases List.mem_cons.mp hc with rfl | hc
      · exact hp.1
      · exact ih (answer c') (hp.2 _) hc

theorem Forall.of_mem_trace {σ : Type} {handle : ∀ c, σ → Answer c × σ} {s : σ}
    {p : Program Answer α} (hp : p.Forall P) {c : Call} (hc : c ∈ p.trace handle s) : P c := by
  induction p generalizing s with
  | ret a => cases hc
  | call c' next ih =>
      rcases List.mem_cons.mp hc with rfl | hc
      · exact hp.1
      · exact ih _ (hp.2 _) hc

/-! ### What a program can return -/

/-- Every result that any answers can lead to has the property. -/
def Returns (Q : α → Prop) : Program Answer α → Prop
  | .ret a => Q a
  | .call _ next => ∀ answer, (next answer).Returns Q

variable {Q : α → Prop} {Q' : β → Prop}

theorem returns_pure {a : α} (h : Q a) : (pure a : Program Answer α).Returns Q := h

theorem Returns.bind {p : Program Answer α} {f : α → Program Answer β} (hp : p.Returns Q)
    (hf : ∀ a, Q a → (f a).Returns Q') : (p >>= f).Returns Q' := by
  change (p.bind f).Returns Q'
  induction p with
  | ret a => exact hf a hp
  | call c next ih => exact fun answer => ih answer (hp answer)

theorem Returns.exec {σ : Type} {handle : ∀ c, σ → Answer c × σ} {s : σ} {p : Program Answer α}
    (h : p.Returns Q) : Q (p.exec handle s).1 := by
  induction p generalizing s with
  | ret a => exact h
  | call c next ih => exact ih (handle c s).1 (h _)

/-- What does not matter may be returned first. -/
theorem returns_bind {p : Program Answer α} {f : α → Program Answer β}
    (hf : ∀ a, (f a).Returns Q') : (p >>= f).Returns Q' := by
  change (p.bind f).Returns Q'
  induction p with
  | ret a => exact hf a
  | call c next ih => exact fun answer => ih answer

end Program
