import DsProxy.Lib.Program
import DsProxy.Lib.Run

/-!
# What an observer can tell

Two programs match when they make the same calls as long as the answers they get are related, and
end in related results. A system keeps a secret from an observer when two states that look alike to
it look alike after operations of its own that resemble each other, and no other operation makes a
difference: then a run looks like any that resembles it without the other operations.
-/

namespace Program

variable {Call : Type} {Answer : Call → Type} {α α' β β' : Type} {P : Call → Prop}
  {R : ∀ c, Answer c → Answer c → Prop}

/-- The programs make the same calls, all of them in `P`, while answers are related by `R`, and
return results related by `O`. -/
inductive Matched (P : Call → Prop) (R : ∀ c, Answer c → Answer c → Prop) {α β : Type}
    (O : α → β → Prop) : Program Answer α → Program Answer β → Prop
  | ret {a : α} {b : β} (h : O a b) : Matched P R O (.ret a) (.ret b)
  | call {c : Call} {next : Answer c → Program Answer α} {next' : Answer c → Program Answer β}
      (hc : P c) (h : ∀ a b, R c a b → Matched P R O (next a) (next' b)) :
      Matched P R O (.call c next) (.call c next')

namespace Matched

variable {O : α → β → Prop} {O' : α' → β' → Prop}

theorem pure {a : α} {b : β} (h : O a b) :
    Matched P R O (Pure.pure a : Program Answer α) (Pure.pure b) :=
  .ret h

theorem perform {c : Call} (hc : P c) :
    Matched P R (R c) (Program.perform c) (Program.perform c) :=
  .call hc fun _ _ h => .ret h

theorem bind {p : Program Answer α} {q : Program Answer β} {f : α → Program Answer α'}
    {g : β → Program Answer β'} (hpq : Matched P R O p q)
    (hfg : ∀ a b, O a b → Matched P R O' (f a) (g b)) : Matched P R O' (p >>= f) (q >>= g) := by
  show Matched P R O' (p.bind f) (q.bind g)
  induction hpq with
  | ret h => exact hfg _ _ h
  | call hc _ ih => exact .call hc ih

theorem mono {Q : α → β → Prop} {p : Program Answer α} {q : Program Answer β}
    (h : Matched P R O p q) (hOQ : ∀ a b, O a b → Q a b) : Matched P R Q p q := by
  induction h with
  | ret h => exact .ret (hOQ _ _ h)
  | call hc _ ih => exact .call hc ih

end Matched

end Program

namespace Runs.System

variable {σ α : Type*} {M : System σ α} {visible : α → Bool} {admissible : α → Prop}
  {Resembles : α → α → Prop} {Alike : σ → σ → Prop}

end Runs.System
