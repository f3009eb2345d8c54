import DsProxy.Backend.Balance
import DsProxy.Backend.View
import DsProxy.Lib.Noninterference

/-!
# What a user can tell about the others

The calls of a request keep to what belongs to the user it acts for, so nothing the others do, in
whatever order the queries come, shows in the answers to that user, except for the ids that new
messages get: the others use up numbers of the same sequence.
-/

namespace DsProxy.Backend

open Relay Runs Program

/-! ### The routes -/

section Routes

variable {cfg : Config} {owner : UUID → String} {u : String} {α β : Type}

/-- Two results that agree in what `seen` leaves of them, as long as errors are not read. -/
def SameResult {ε α : Type} (seen : α → α) (a b : Except ε α) : Prop :=
  a.toOption.map seen = b.toOption.map seen

/-- What a reply says but for the ids of messages. -/
def Reply.unnumbered : Reply → Reply
  | .message saved => .message saved.unnumbered
  | .messages history => .messages (history.map Message.unnumbered)
  | other => other

theorem SameResult.map {ε : Type} {a b : Except ε α} {seen : α → α} {seen' : β → β}
    (h : SameResult seen a b) {f : α → β} (hf : ∀ a, seen' (f a) = seen' (f (seen a))) :
    SameResult seen' (a.map f) (b.map f) := by
  unfold SameResult at h ⊢
  cases a with
  | error e =>
      cases b with
      | error e' => rfl
      | ok b => cases h
  | ok a =>
      cases b with
      | error e' => cases h
      | ok b =>
          show some (seen' (f a)) = some (seen' (f b))
          rw [hf a, hf b, Option.some.inj h]

end Routes

/-! ### The service -/

section Serving

variable {cfg : Config} {owner : UUID → String} {p : String} {mine : ℕ → Bool}

/-- The same operation of a run in which the sequence of the messages may have come further. -/
inductive ServiceOp.Resembles : ServiceOp → ServiceOp → Prop
  | request (n : ℕ) (asked : HttpRequest) : Resembles (.request n asked) (.request n asked)
  | query (n : ℕ) {outcome outcome' : Outcome} (h : outcome.Resembles outcome') :
      Resembles (.query n outcome) (.query n outcome')
  | heard (event : Event) (outcomes : Call → Outcome) :
      Resembles (.heard event outcomes) (.heard event outcomes)

/-- Services that look the same to `p`; what others have under way keeps to what belongs to them. -/
structure Service.Alike (owner : UUID → String) (p : String) (mine : ℕ → Bool) (s t : Service) :
    Prop where
  tables : s.toTables.Alike owner p t.toTables
  own : ∀ n, mine n = true → Option.Rel
    (Matched (Query.Own owner p) (Query.Same owner p) (SameResult Reply.unnumbered))
    (s.sessions n) (t.sessions n)
  foreign : ∀ n program, mine n = false → s.sessions n = some program →
    ∃ u, u ≠ p ∧ Matched (Query.Own owner u) (Query.Same owner u) (SameResult Reply.unnumbered)
      program program

theorem Service.Alike.session {s t : Service} (h : s.Alike owner p mine t) {n : ℕ}
    (hn : mine n = true) : (s.sessions n = none ∧ t.sessions n = none) ∨
      ∃ program program', s.sessions n = some program ∧ t.sessions n = some program' ∧
        Matched (Query.Own owner p) (Query.Same owner p) (SameResult Reply.unnumbered) program
          program' := by
  have hsession := h.own n hn
  cases hs : s.sessions n with
  | none =>
      cases ht : t.sessions n with
      | none => exact Or.inl ⟨rfl, rfl⟩
      | some program' => rw [hs, ht] at hsession; cases hsession
  | some program =>
      cases ht : t.sessions n with
      | none => rw [hs, ht] at hsession; cases hsession
      | some program' =>
          rw [hs, ht] at hsession
          cases hsession with
          | some hmatched => exact Or.inr ⟨program, program', rfl, rfl, hmatched⟩

theorem Service.Alike.update {s t : Service} (h : s.Alike owner p mine t) {w w' : Tables}
    (htables : w.Alike owner p w') {n : ℕ} (hn : mine n = true) {program program' : Serving Result}
    (hprogram : Matched (Query.Own owner p) (Query.Same owner p) (SameResult Reply.unnumbered)
      program program') :
    Service.Alike owner p mine ⟨w, Function.update s.sessions n (some program)⟩
      ⟨w', Function.update t.sessions n (some program')⟩ where
  tables := htables
  own m hm := by
    by_cases hmn : m = n
    · subst hmn
      simp only [Function.update_self]
      exact .some hprogram
    · simp only [Function.update_of_ne hmn]
      exact h.own m hm
  foreign m program hm hsession := by
    have hmn : m ≠ n := fun hmn => by
      rw [hmn, hn] at hm
      cases hm
    exact h.foreign m program hm ((Function.update_of_ne hmn _ _).symm.trans hsession)

/-- Of an answer that has been given, what there is to see but for the ids of messages. -/
def Service.seen (s : Service) (n : ℕ) : Option (Option Reply) :=
  (s.reply n).map fun result => result.toOption.map Reply.unnumbered

theorem Service.Alike.seen {s t : Service} (h : s.Alike owner p mine t) {n : ℕ}
    (hn : mine n = true) : s.seen n = t.seen n := by
  unfold Service.seen Service.reply
  rcases h.session hn with ⟨hs, ht⟩ | ⟨program, program', hs, ht, hmatched⟩
  · rw [hs, ht]
  · rw [hs, ht]
    cases hmatched with
    | ret hresult => exact congrArg some hresult
    | call hq hnext => rfl

end Serving

namespace Sample

def numbered (messageID : ℕ) : Outcome := { done with messageID := messageID }

/-- A message of the user, posted while another logs in, after six messages of others. -/
def served : List ServiceOp :=
  [.request 0 (.addMessage ctx), .request 1 (.login "other" "message" "signature"),
    .query 0 done, .query 1 done, .query 0 done, .query 0 done, .query 1 done, .query 0 answered,
    .query 0 (numbered 7), .query 0 (numbered 8), .query 0 published, .query 0 done]

end Sample

end DsProxy.Backend
