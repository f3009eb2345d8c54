import DsProxy.Lib.Run
import Mathlib.Data.Set.Lattice
import Mathlib.Order.CompletePartialOrder
import Mathlib.Data.List.Perm.Basic

/-!
# Operations that read and write parts of a store

A store is seen cell by cell. An operation keeps to a set of cells when it changes no cell outside
those it may write, and when what it does depends on no cell outside those it may read. Operations
that do not conflict, as none writes what another reads or writes, can be taken in any order, and
also all at once: every cell then holds what the one operation that writes it makes of the state
that all of them found.
-/

namespace Runs

universe u

variable {σ β γ : Type u} {ι α ε : Type*}

/-- The cells an operation may read, and those of them it may write. -/
structure Access (ι : Type*) where
  reads : Set ι
  writes : Set ι
  writes_subset : writes ⊆ reads

namespace Access

/-- Neither operation writes what the other may read. -/
def Independent (A B : Access ι) : Prop :=
  Disjoint A.writes B.reads ∧ Disjoint B.writes A.reads

theorem Independent.symm {A B : Access ι} (h : A.Independent B) : B.Independent A := ⟨h.2, h.1⟩

end Access

/-- The states agree on the cells. -/
def AgreeOn (view : σ → ι → α) (cells : Set ι) (s t : σ) : Prop :=
  ∀ i ∈ cells, view s i = view t i

theorem AgreeOn.symm {view : σ → ι → α} {cells : Set ι} {s t : σ} (h : AgreeOn view cells s t) :
    AgreeOn view cells t s :=
  fun i hi => (h i hi).symm

/-- The operation keeps to the cells: `frame` for those it may write, `agree` for those it may
read. -/
structure Footprint (view : σ → ι → α) (A : Access ι) (step : σ → σ → Prop) : Prop where
  frame : ∀ {s s'}, step s s' → ∀ i ∉ A.writes, view s' i = view s i
  agree : ∀ {s t s'}, AgreeOn view A.reads s t → step s s' →
    ∃ t', step t t' ∧ AgreeOn view A.reads s' t'

theorem Footprint.mono {view : σ → ι → α} {A B : Access ι} {step : σ → σ → Prop}
    (h : Footprint view A step) (hreads : A.reads ⊆ B.reads) (hwrites : A.writes ⊆ B.writes) :
    Footprint view B step where
  frame hstep i hi := h.frame hstep i fun hmem => hi (hwrites hmem)
  agree {s t s'} hagree hstep := by
    obtain ⟨t', ht, hagree'⟩ := h.agree (fun i hi => hagree i (hreads hi)) hstep
    refine ⟨t', ht, fun i hi => ?_⟩
    by_cases hmem : i ∈ A.reads
    · exact hagree' i hmem
    · -- not written either, so both still hold what they agreed on
      have hnot : i ∉ A.writes := fun h' => hmem (A.writes_subset h')
      rw [h.frame hstep i hnot, h.frame ht i hnot]
      exact hagree i hi

theorem Footprint.congr {view : σ → ι → α} {A : Access ι} {step step' : σ → σ → Prop}
    (h : Footprint view A step) (heq : ∀ s s', step' s s' ↔ step s s') :
    Footprint view A step' where
  frame hstep := h.frame ((heq _ _).mp hstep)
  agree hagree hstep := by
    obtain ⟨t', ht, hagree'⟩ := h.agree hagree ((heq _ _).mp hstep)
    exact ⟨t', (heq _ _).mpr ht, hagree'⟩

/-- What is always refused reads and writes nothing. -/
theorem Footprint.refused {view : σ → ι → α} {A : Access ι} {step : σ → σ → Prop}
    (h : ∀ s s', ¬ step s s') : Footprint view A step where
  frame hstep := absurd hstep (h _ _)
  agree _ hstep := absurd hstep (h _ _)

/-! ### Computations that keep to cells -/

/-- What a computation that may fail does to the state keeps to the cells. -/
abbrev Confined (view : σ → ι → α) (A : Access ι) (f : σ → Except ε σ) : Prop :=
  Footprint view A fun s s' => f s = .ok s'

namespace Confined

variable {view : σ → ι → α} {A : Access ι}

theorem pure {f : σ → σ} (hframe : ∀ s, ∀ i ∉ A.writes, view (f s) i = view s i)
    (hagree : ∀ {s t}, AgreeOn view A.reads s t → AgreeOn view A.reads (f s) (f t)) :
    Confined view A fun s => (Except.ok (f s) : Except ε σ) where
  frame {s s'} h := by
    cases h
    exact hframe s
  agree {s t s'} h hs := by
    cases hs
    exact ⟨f t, rfl, hagree h⟩

theorem ok_of_bind {x : Except ε β} {k : β → Except ε γ} {c : γ} (h : (x >>= k) = .ok c) :
    ∃ b, x = .ok b ∧ k b = .ok c := by
  cases x with
  | error e => cases h
  | ok b => exact ⟨b, rfl, h⟩

theorem bind {f g : σ → Except ε σ} (hf : Confined view A f) (hg : Confined view A g) :
    Confined view A fun s => f s >>= g where
  frame h i hi := by
    obtain ⟨mid, hmid, h⟩ := ok_of_bind h
    exact (hg.frame h i hi).trans (hf.frame hmid i hi)
  agree {s t s'} hagree h := by
    obtain ⟨mid, hmid, h⟩ := ok_of_bind h
    obtain ⟨mid', hmid', hagree'⟩ := hf.agree hagree hmid
    obtain ⟨t', ht', hagree''⟩ := hg.agree hagree' h
    refine ⟨t', ?_, hagree''⟩
    show (f t >>= g) = .ok t'
    rw [hmid']
    exact ht'

/-- Read a value that the cells determine, then go on with it. -/
theorem read {x : σ → Except ε β} {k : β → σ → Except ε σ}
    (hx : ∀ {s t}, AgreeOn view A.reads s t → x s = x t) (hk : ∀ b, Confined view A (k b)) :
    Confined view A fun s => x s >>= fun b => k b s where
  frame h := by
    obtain ⟨b, -, h⟩ := ok_of_bind h
    exact (hk b).frame h
  agree {s t s'} hagree h := by
    obtain ⟨b, hb, h⟩ := ok_of_bind h
    obtain ⟨t', ht', hagree'⟩ := (hk b).agree hagree h
    refine ⟨t', ?_, hagree'⟩
    show (x t >>= fun b => k b t) = .ok t'
    rw [← hx hagree, hb]
    exact ht'

theorem value {x : σ → β} {k : β → σ → Except ε σ}
    (hx : ∀ {s t}, AgreeOn view A.reads s t → x s = x t) (hk : ∀ b, Confined view A (k b)) :
    Confined view A fun s => k (x s) s :=
  read (x := fun s => .ok (x s)) (fun h => congrArg Except.ok (hx h)) hk

/-- What does not look at the state at all. -/
theorem given {x : Except ε β} {k : β → σ → Except ε σ} (hk : ∀ b, Confined view A (k b)) :
    Confined view A fun s => x >>= fun b => k b s :=
  read (fun _ => rfl) hk

theorem ite {c : σ → Prop} [DecidablePred c] {f g : σ → Except ε σ}
    (hc : ∀ {s t}, AgreeOn view A.reads s t → (c s ↔ c t)) (hf : Confined view A f)
    (hg : Confined view A g) : Confined view A fun s => if c s then f s else g s where
  frame {s s'} h := by
    dsimp only at h
    split_ifs at h
    · exact hf.frame h
    · exact hg.frame h
  agree {s t s'} hagree h := by
    dsimp only at h ⊢
    split_ifs at h with hs
    · rw [if_pos ((hc hagree).mp hs)]
      exact hf.agree hagree h
    · rw [if_neg fun ht => hs ((hc hagree).mpr ht)]
      exact hg.agree hagree h

end Confined

/-! ### Operations that do not conflict -/

namespace System

variable {M : System σ β} {view : σ → ι → α} {access : β → Access ι}

section Footprints

variable (hprint : ∀ a, Footprint view (access a) fun s s' => M.step s a = some s')
include hprint

theorem next_frame (s : σ) (a : β) {i : ι} (hi : i ∉ (access a).writes) :
    view (M.next s a) i = view s i := by
  rcases M.step_or_unchanged s a with h | h
  · exact (hprint a).frame h i hi
  · rw [h]

theorem run_frame (s : σ) (ops : List β) {i : ι} (hi : ∀ a ∈ ops, i ∉ (access a).writes) :
    view (M.run s ops) i = view s i := by
  induction ops generalizing s with
  | nil => rfl
  | cons a ops ih =>
      rw [run_cons, ih _ fun b hb => hi b (List.mem_cons_of_mem a hb),
        next_frame hprint s a (hi a List.mem_cons_self)]

theorem next_agree {s t : σ} {a : β} (h : AgreeOn view (access a).reads s t) :
    ((M.step s a).isSome = (M.step t a).isSome) ∧
      AgreeOn view (access a).reads (M.next s a) (M.next t a) := by
  cases hs : M.step s a with
  | some s' =>
      obtain ⟨t', ht, hagree⟩ := (hprint a).agree h hs
      rw [ht, next_of_step hs, next_of_step ht]
      exact ⟨rfl, hagree⟩
  | none =>
      cases ht : M.step t a with
      | some t' =>
          obtain ⟨s', hs', -⟩ := (hprint a).agree h.symm ht
          rw [hs] at hs'
          cases hs'
      | none =>
          rw [next_of_refused hs, next_of_refused ht]
          exact ⟨rfl, h⟩

/-- A run of operations that do not conflict with `a` leaves what `a` may read. -/
theorem agree_run {s : σ} {ops : List β} {a : β}
    (h : ∀ b ∈ ops, (access b).Independent (access a)) :
    AgreeOn view (access a).reads (M.run s ops) s :=
  fun _ hi => run_frame hprint s ops fun b hb hwrites =>
    Set.disjoint_left.mp (h b hb).1 hwrites hi

variable {ops : List β}
  (hops : ops.Pairwise fun a b => (access a).Independent (access b))
include hops

theorem accepted_at_start (s : σ) {before after : List β} {a : β}
    (hsplit : ops = before ++ a :: after) :
    (M.step (M.run s before) a).isSome = (M.step s a).isSome := by
  subst hsplit
  obtain ⟨-, -, hcross⟩ := List.pairwise_append.mp hops
  exact (next_agree hprint (agree_run hprint fun b hb => hcross b hb a List.mem_cons_self)).1

/-- All at once: the cells that an operation writes hold what it alone makes of the start. -/
theorem view_run (s : σ) {a : β} (ha : a ∈ ops) {i : ι} (hi : i ∈ (access a).writes) :
    view (M.run s ops) i = view (M.next s a) i := by
  obtain ⟨before, after, rfl⟩ := List.append_of_mem ha
  obtain ⟨-, hcons, hcross⟩ := List.pairwise_append.mp hops
  obtain ⟨hafter, -⟩ := List.pairwise_cons.mp hcons
  have hbefore : AgreeOn view (access a).reads (M.run s before) s :=
    agree_run hprint fun b hb => hcross b hb a List.mem_cons_self
  have hreads : i ∈ (access a).reads := (access a).writes_subset hi
  rw [run_append, run_cons, ← (next_agree hprint hbefore).2 i hreads]
  exact run_frame hprint _ after fun b hb hwrites =>
    Set.disjoint_left.mp (hafter b hb).2 hwrites hreads

/-- The order makes no difference. -/
theorem run_eq_of_independent (hview : Function.Injective view) (s : σ) {ops' : List β}
    (hperm : ops.Perm ops') : M.run s ops' = M.run s ops := by
  have hops' : ops'.Pairwise fun a b => (access a).Independent (access b) :=
    (hperm.pairwise_iff fun h => h.symm).mp hops
  apply hview
  funext i
  by_cases hwritten : ∃ a ∈ ops, i ∈ (access a).writes
  · obtain ⟨a, ha, hi⟩ := hwritten
    rw [view_run hprint hops' s (hperm.mem_iff.mp ha) hi, view_run hprint hops s ha hi]
  · have hnot : ∀ a ∈ ops, i ∉ (access a).writes := fun a ha hi => hwritten ⟨a, ha, hi⟩
    rw [run_frame hprint s ops hnot,
      run_frame hprint s ops' fun a ha => hnot a (hperm.mem_iff.mpr ha)]

end Footprints

end System

end Runs
