import Mathlib.Algebra.BigOperators.Group.Finset.Basic
import Mathlib.Algebra.Order.BigOperators.Group.Finset
import Mathlib.Logic.Relation

/-!
# Escrow accounts

A balance of which part is set aside, one reservation for each ticket still open. Tickets come from
a counter: `reserve` and `spend` take the next one, `settle` closes an open one and pays out at most
what it set aside. That the reservations are covered and that no ticket at or past the counter is
open are fields, so an account breaking either cannot be built.
-/

open Finset

structure Escrow where
  balance : ℕ
  next : ℕ
  held : ℕ → Option ℕ
  fresh : ∀ ticket, next ≤ ticket → held ticket = none
  covered : ∑ ticket ∈ range next, (held ticket).getD 0 ≤ balance

namespace Escrow

/-- The part of the balance that is set aside. -/
def reserved (e : Escrow) : ℕ := ∑ ticket ∈ range e.next, (e.held ticket).getD 0

theorem reserved_le_balance (e : Escrow) : e.reserved ≤ e.balance := e.covered

theorem lt_next_of_held {e : Escrow} {ticket amount : ℕ} (h : e.held ticket = some amount) :
    ticket < e.next := by
  by_contra hge
  rw [e.fresh ticket (Nat.le_of_not_lt hge)] at h
  cases h

/-- The reservations may be summed over any range past the counter. -/
theorem reserved_eq_sum_range (e : Escrow) {n : ℕ} (h : e.next ≤ n) :
    e.reserved = ∑ ticket ∈ range n, (e.held ticket).getD 0 := by
  apply sum_subset (range_subset_range.mpr h)
  intro ticket _ hticket
  rw [e.fresh ticket (Nat.le_of_not_lt (mt mem_range.mpr hticket)), Option.getD_none]

/-! ### Sums after an update -/

theorem sum_held_reserve {held : ℕ → Option ℕ} {next amount : ℕ} :
    ∑ ticket ∈ range (next + 1), (Function.update held next (some amount) ticket).getD 0 =
      ∑ ticket ∈ range next, (held ticket).getD 0 + amount := by
  rw [sum_range_succ, Function.update_self, Option.getD_some]
  congr 1
  apply sum_congr rfl
  intro ticket hticket
  rw [Function.update_of_ne (Nat.ne_of_lt (mem_range.mp hticket))]

theorem sum_held_settle {held : ℕ → Option ℕ} {next ticket amount : ℕ} (hlt : ticket < next)
    (hheld : held ticket = some amount) :
    ∑ t ∈ range next, (Function.update held ticket none t).getD 0 + amount =
      ∑ t ∈ range next, (held t).getD 0 := by
  rw [← add_sum_erase _ _ (mem_range.mpr hlt), ← add_sum_erase _ _ (mem_range.mpr hlt)]
  rw [Function.update_self, hheld, Option.getD_none, Option.getD_some, Nat.zero_add, Nat.add_comm]
  congr 1
  apply sum_congr rfl
  intro t ht
  rw [Function.update_of_ne (ne_of_mem_erase ht)]

/-! ### Operations -/

/-- An account with no reservation yet. -/
def opened (balance : ℕ) : Escrow where
  balance := balance
  next := 0
  held := fun _ => none
  fresh := fun _ _ => rfl
  covered := by simp

def fund (e : Escrow) (amount : ℕ) : Escrow where
  balance := e.balance + amount
  next := e.next
  held := e.held
  fresh := e.fresh
  covered := Nat.le_add_right_of_le e.covered

/-- Free money leaves. -/
def withdraw (e : Escrow) (amount : ℕ) (h : e.reserved + amount ≤ e.balance) : Escrow where
  balance := e.balance - amount
  next := e.next
  held := e.held
  fresh := e.fresh
  covered := Nat.le_sub_of_add_le h

/-- The next ticket sets free money aside. -/
def reserve (e : Escrow) (amount : ℕ) (h : e.reserved + amount ≤ e.balance) : Escrow where
  balance := e.balance
  next := e.next + 1
  held := Function.update e.held e.next (some amount)
  fresh ticket hticket := by
    rw [Function.update_of_ne (Nat.ne_of_gt hticket), e.fresh ticket (Nat.le_of_succ_le hticket)]
  covered := by
    rw [sum_held_reserve]
    exact h

/-- The next ticket pays free money out at once. -/
def spend (e : Escrow) (amount : ℕ) (h : e.reserved + amount ≤ e.balance) : Escrow where
  balance := e.balance - amount
  next := e.next + 1
  held := e.held
  fresh ticket hticket := e.fresh ticket (Nat.le_of_succ_le hticket)
  covered := by
    rw [sum_range_succ, e.fresh e.next le_rfl, Option.getD_none, Nat.add_zero]
    exact Nat.le_sub_of_add_le h

/-- An open ticket is closed, `paid` of what it set aside leaves and the rest is free again. -/
def settle (e : Escrow) (ticket amount paid : ℕ) (hheld : e.held ticket = some amount)
    (hpaid : paid ≤ amount) : Escrow where
  balance := e.balance - paid
  next := e.next
  held := Function.update e.held ticket none
  fresh t ht := by
    rw [Function.update_of_ne (Nat.ne_of_gt (Nat.lt_of_lt_of_le (lt_next_of_held hheld) ht)),
      e.fresh t ht]
  covered := by
    have hsum := sum_held_settle (lt_next_of_held hheld) hheld
    have hcovered := e.covered
    omega

section Reserved

variable {e : Escrow} {amount : ℕ}

@[simp] theorem reserved_opened (balance : ℕ) : (opened balance).reserved = 0 := by
  simp [reserved, opened]

@[simp] theorem reserved_fund : (e.fund amount).reserved = e.reserved := rfl

@[simp] theorem reserved_withdraw {h : e.reserved + amount ≤ e.balance} :
    (e.withdraw amount h).reserved = e.reserved := rfl

@[simp] theorem reserved_reserve {h : e.reserved + amount ≤ e.balance} :
    (e.reserve amount h).reserved = e.reserved + amount :=
  sum_held_reserve

@[simp] theorem reserved_spend {h : e.reserved + amount ≤ e.balance} :
    (e.spend amount h).reserved = e.reserved :=
  (e.reserved_eq_sum_range (Nat.le_succ e.next)).symm

theorem reserved_settle {ticket paid : ℕ} (hheld : e.held ticket = some amount)
    (hpaid : paid ≤ amount) :
    (e.settle ticket amount paid hheld hpaid).reserved + amount = e.reserved := by
  have hlt := lt_next_of_held hheld
  exact sum_held_settle hlt hheld

end Reserved

/-! ### Steps -/

/-- One operation on an account. -/
inductive Step (e : Escrow) : Escrow → Prop
  | fund (amount : ℕ) : Step e (e.fund amount)
  | withdraw (amount : ℕ) (h) : Step e (e.withdraw amount h)
  | reserve (amount : ℕ) (h) : Step e (e.reserve amount h)
  | spend (amount : ℕ) (h) : Step e (e.spend amount h)
  | settle (ticket amount paid : ℕ) (hheld hpaid) : Step e (e.settle ticket amount paid hheld hpaid)

theorem Step.next_le {e e' : Escrow} (h : Step e e') : e.next ≤ e'.next := by
  cases h with
  | reserve | spend => exact Nat.le_succ _
  | fund | withdraw | settle => exact le_rfl

theorem Step.closed {e e' : Escrow} (h : Step e e') {ticket : ℕ} (hlt : ticket < e.next)
    (hclosed : e.held ticket = none) : e'.held ticket = none := by
  cases h with
  | reserve amount hfree =>
      exact (Function.update_of_ne (Nat.ne_of_lt hlt) _ _).trans hclosed
  | settle t amount paid hheld hpaid =>
      by_cases ht : ticket = t
      · subst ht
        exact Function.update_self _ _ _
      · exact (Function.update_of_ne ht _ _).trans hclosed
  | fund | withdraw | spend => exact hclosed

/-- Along any number of steps, a ticket once taken and closed is never open again. -/
theorem closed_of_steps {e e' : Escrow} (h : Relation.ReflTransGen Step e e') {ticket : ℕ}
    (hlt : ticket < e.next) (hclosed : e.held ticket = none) :
    ticket < e'.next ∧ e'.held ticket = none := by
  induction h with
  | refl => exact ⟨hlt, hclosed⟩
  | tail _ hstep ih => exact ⟨ih.1.trans_le hstep.next_le, hstep.closed ih.1 ih.2⟩

end Escrow
