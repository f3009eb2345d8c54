import Mathlib.Algebra.BigOperators.Group.Finset.Basic
import Mathlib.Tactic.Ring

/-!
# A log and what has been delivered of it

Entries are appended to a log and delivered from it by position, in any order. Give each entry a
weight: what the entries not yet delivered weigh together grows by what is appended and shrinks by
what is delivered for the first time.
-/

namespace Delivery

variable {E : Type*} (weight : E → ℕ)

/-- The weight of the entry at a position, if it is still to be delivered. -/
def pendingAt (log : List E) (delivered : List ℕ) (k : ℕ) : ℕ :=
  if k ∈ delivered then 0 else (log[k]?).elim 0 weight

/-- What the entries not yet delivered weigh. -/
def outstanding (log : List E) (delivered : List ℕ) : ℕ :=
  ∑ k ∈ Finset.range log.length, pendingAt weight log delivered k

variable {weight} {log : List E} {delivered : List ℕ}

theorem outstanding_concat (e : E) (h : ∀ k ∈ delivered, k < log.length) :
    outstanding weight (log ++ [e]) delivered = outstanding weight log delivered + weight e := by
  have hlast : log.length ∉ delivered := fun hmem => Nat.lt_irrefl _ (h _ hmem)
  have hsame : ∀ k ∈ Finset.range log.length,
      pendingAt weight (log ++ [e]) delivered k = pendingAt weight log delivered k := by
    intro k hk
    rw [pendingAt, pendingAt, List.getElem?_append_left (Finset.mem_range.mp hk)]
  have hnew : pendingAt weight (log ++ [e]) delivered log.length = weight e := by
    simp [pendingAt, hlast]
  simp only [outstanding, List.length_append, List.length_singleton, Finset.sum_range_succ, hnew]
  rw [Finset.sum_congr rfl hsame]

theorem outstanding_append (new : List E) (h : ∀ k ∈ delivered, k < log.length) :
    outstanding weight (log ++ new) delivered =
      outstanding weight log delivered + (new.map weight).sum := by
  induction new generalizing log with
  | nil => simp
  | cons e new ih =>
      have hlater : ∀ k ∈ delivered, k < (log ++ [e]).length := by
        intro k hk
        rw [List.length_append, List.length_singleton]
        exact Nat.lt_succ_of_lt (h k hk)
      rw [List.append_cons, ih hlater, outstanding_concat e h, List.map_cons, List.sum_cons]
      omega

theorem outstanding_again {k : ℕ} (hagain : k ∈ delivered) :
    outstanding weight log (k :: delivered) = outstanding weight log delivered := by
  have hmem : ∀ j, j ∈ k :: delivered ↔ j ∈ delivered := by
    intro j
    rw [List.mem_cons, or_iff_right_of_imp fun h => h ▸ hagain]
  simp only [outstanding, pendingAt, hmem]

theorem outstanding_deliver {k : ℕ} {e : E} (hk : log[k]? = some e) (hfirst : k ∉ delivered) :
    outstanding weight log (k :: delivered) + weight e = outstanding weight log delivered := by
  have hmem : k ∈ Finset.range log.length :=
    Finset.mem_range.mpr (List.getElem?_eq_some_iff.mp hk).1
  have hat : pendingAt weight log delivered k = weight e := by
    rw [pendingAt, if_neg hfirst, hk, Option.elim_some]
  have hnow : pendingAt weight log (k :: delivered) k = 0 := if_pos List.mem_cons_self
  have hrest : ∀ j ∈ (Finset.range log.length).erase k,
      pendingAt weight log (k :: delivered) j = pendingAt weight log delivered j := by
    intro j hj
    have hne : j ≠ k := Finset.ne_of_mem_erase hj
    simp [pendingAt, hne]
  have hsum : ∑ j ∈ (Finset.range log.length).erase k, pendingAt weight log (k :: delivered) j =
      ∑ j ∈ (Finset.range log.length).erase k, pendingAt weight log delivered j :=
    Finset.sum_congr rfl hrest
  have hbefore := Finset.add_sum_erase _ (pendingAt weight log delivered) hmem
  have hafter := Finset.add_sum_erase _ (pendingAt weight log (k :: delivered)) hmem
  rw [hat] at hbefore
  rw [hnow] at hafter
  simp only [outstanding]
  omega

end Delivery
