import Mathlib.Data.List.Sort
import Mathlib.Data.List.TakeWhile
import Mathlib.Tactic.Common

/-!
# Questions and answers in an ordered log

Parties add questions and answers to a log, which is read in the order of a key; entries of one key
may be read in any order. What is read is a dialogue when every question is directly followed by the
answer of the same party, but for one at the end whose party is still to answer. An entry keeps it
one exactly when its key comes behind all others and, for a question, no other is open.
-/

namespace Exchange

variable {T M K : Type*} (asks answers : M → Prop)

/-- Exchanges, and at the end at most one question of a party that is `pending`. -/
inductive Dialogue (pending : T → Prop) : List (T × M) → Prop
  | nil : Dialogue pending []
  | question {t : T} {m : M} (hm : asks m) (ht : pending t) : Dialogue pending [(t, m)]
  | exchange {t : T} {q a : M} {rest : List (T × M)} (hq : asks q) (ha : answers a)
      (h : Dialogue pending rest) : Dialogue pending ((t, q) :: (t, a) :: rest)

variable {asks answers} {pending pending' : T → Prop} {l A B : List (T × M)} {t : T} {m q a : M}

theorem Dialogue.mono (h : Dialogue asks answers pending l)
    (hmono : ∀ t m, (t, m) ∈ l → pending t → pending' t) : Dialogue asks answers pending' l := by
  induction h with
  | nil => exact .nil
  | question hm ht => exact .question hm (hmono _ _ List.mem_cons_self ht)
  | exchange hq ha h ih =>
      refine .exchange hq ha (ih fun t m hmem => hmono t m ?_)
      exact List.mem_cons_of_mem _ (List.mem_cons_of_mem _ hmem)

theorem Dialogue.append (h : Dialogue asks answers (fun _ => False) A)
    (hB : Dialogue asks answers pending B) : Dialogue asks answers pending (A ++ B) := by
  induction h with
  | nil => exact hB
  | question hm ht => exact ht.elim
  | exchange hq ha h ih => exact .exchange hq ha ih

theorem Dialogue.single_last (h : Dialogue asks answers pending (A ++ (t, m) :: B))
    (hsingle : ∀ m', (t, m') ∉ A ++ B) :
    B = [] ∧ Dialogue asks answers (fun _ => False) A := by
  generalize hl : A ++ (t, m) :: B = l at h
  induction h generalizing A with
  | nil => simp at hl
  | question hm ht =>
      rcases A with _ | ⟨x, A⟩
      · cases hl
        exact ⟨rfl, .nil⟩
      · simp at hl
  | @exchange t' q a rest hq ha h ih =>
      rcases A with _ | ⟨x, A⟩
      · cases hl
        exact absurd List.mem_cons_self (hsingle a)
      rcases A with _ | ⟨y, A⟩
      · cases hl
        exact absurd List.mem_cons_self (hsingle q)
      · obtain ⟨rfl, rfl, hrest⟩ : x = (t', q) ∧ y = (t', a) ∧ A ++ (t, m) :: B = rest := by
          simpa using hl
        have hsingle' : ∀ m', (t, m') ∉ A ++ B := fun m' hmem =>
          hsingle m' (List.mem_cons_of_mem _ (List.mem_cons_of_mem _ hmem))
        obtain ⟨hB, hA⟩ := ih hsingle' hrest
        exact ⟨hB, .exchange hq ha hA⟩

theorem Dialogue.open_last (h : Dialogue asks answers pending l) (hmem : (t, q) ∈ l)
    (hopen : ∀ a, (t, a) ∈ l → ¬ answers a) :
    ∃ L, l = L ++ [(t, q)] ∧ Dialogue asks answers (fun _ => False) L ∧ asks q ∧ pending t := by
  induction h with
  | nil => cases hmem
  | question hm ht =>
      cases List.mem_singleton.mp hmem
      exact ⟨[], rfl, .nil, hm, ht⟩
  | @exchange t' q' a' rest hq ha h ih =>
      have hother : t' ≠ t := by
        intro heq
        subst heq
        exact hopen a' (List.mem_cons_of_mem _ List.mem_cons_self) ha
      have hrest : (t, q) ∈ rest := by
        rcases List.mem_cons.mp hmem with heq | hmem
        · exact absurd (congrArg Prod.fst heq).symm hother
        · rcases List.mem_cons.mp hmem with heq | hmem
          · exact absurd (congrArg Prod.fst heq).symm hother
          · exact hmem
      obtain ⟨L, rfl, hL, hasks⟩ := ih hrest fun a hmem =>
        hopen a (List.mem_cons_of_mem _ (List.mem_cons_of_mem _ hmem))
      exact ⟨(t', q') :: (t', a') :: L, rfl, .exchange hq ha hL, hasks⟩

/-- An answer directly follows an entry of its party. -/
theorem Dialogue.answer_behind (h : Dialogue asks answers pending (A ++ (t, a) :: B))
    (ha : answers a) (hkinds : ∀ m, asks m → ¬ answers m) : ∃ A' q, A = A' ++ [(t, q)] := by
  generalize hl : A ++ (t, a) :: B = l at h
  induction h generalizing A with
  | nil => simp at hl
  | question hm ht =>
      rcases A with _ | ⟨x, A⟩
      · cases hl
        exact absurd ha (hkinds _ hm)
      · simp at hl
  | @exchange t' q' a' rest hq ha' h ih =>
      rcases A with _ | ⟨x, A⟩
      · cases hl
        exact absurd ha (hkinds _ hq)
      rcases A with _ | ⟨y, A⟩
      · cases hl
        exact ⟨[], q', rfl⟩
      · obtain ⟨rfl, rfl, hrest⟩ : x = (t', q') ∧ y = (t', a') ∧ A ++ (t, a) :: B = rest := by
          simpa using hl
        obtain ⟨A', q, rfl⟩ := ih hrest
        exact ⟨(t', q') :: (t', a') :: A', q, rfl⟩

/-! ### Reading a log by a key -/

variable [LinearOrder K] (key : M → K) {log : List (T × M)} {x : T × M}

/-- One of the orders in which a log may be read. -/
def Reads (log l : List (T × M)) : Prop :=
  l.Perm log ∧ l.Pairwise fun e e' => key e.2 ≤ key e'.2

variable (log) in
theorem exists_reads : ∃ l, Reads key log l := by
  have htotal : Std.Total fun e e' : T × M => key e.2 ≤ key e'.2 :=
    ⟨fun e e' => le_total (key e.2) (key e'.2)⟩
  have htrans : IsTrans (T × M) fun e e' => key e.2 ≤ key e'.2 := ⟨fun _ _ _ => le_trans⟩
  exact ⟨_, List.perm_insertionSort _ log, List.pairwise_insertionSort _ log⟩

variable {key}

/-- What comes behind everything is read last. -/
theorem Reads.last (h : Reads key (x :: log) l) (hlast : ∀ e ∈ log, key e.2 < key x.2) :
    ∃ L, l = L ++ [x] ∧ Reads key log L := by
  obtain ⟨hperm, hsorted⟩ := h
  obtain ⟨A, B, rfl⟩ := List.append_of_mem (hperm.mem_iff.mpr List.mem_cons_self)
  have hrest : (A ++ B).Perm log := (List.perm_middle.symm.trans hperm).cons_inv
  obtain ⟨hA, hB, hAB⟩ := List.pairwise_append.mp hsorted
  cases B with
  | nil => exact ⟨A, rfl, by simpa using hrest, hA⟩
  | cons e B =>
      have hle := (List.pairwise_cons.mp hB).1 e List.mem_cons_self
      have hlt := hlast e (hrest.mem_iff.mp (by simp))
      exact absurd hle (not_le_of_gt hlt)

/-- A new entry may be read behind what it comes behind, and before all else. -/
theorem Reads.insert (h : Reads key log l) (x : T × M) :
    ∃ A B, l = A ++ B ∧ Reads key (x :: log) (A ++ x :: B) ∧ ∀ e ∈ A, key e.2 < key x.2 := by
  have htotal : Std.Total fun e e' : T × M => key e.2 ≤ key e'.2 :=
    ⟨fun e e' => le_total (key e.2) (key e'.2)⟩
  have htrans : IsTrans (T × M) fun e e' => key e.2 ≤ key e'.2 := ⟨fun _ _ _ => le_trans⟩
  have hinsert := List.orderedInsert_eq_take_drop (fun e e' : T × M => key e.2 ≤ key e'.2) x l
  refine ⟨l.takeWhile fun e => ¬ key x.2 ≤ key e.2, l.dropWhile fun e => ¬ key x.2 ≤ key e.2,
    List.takeWhile_append_dropWhile.symm, ⟨?_, ?_⟩, ?_⟩
  · rw [← hinsert]
    exact (List.perm_orderedInsert _ x l).trans (h.1.cons x)
  · rw [← hinsert]
    exact h.2.orderedInsert x l
  · intro e he
    have hbefore := List.mem_takeWhile_imp he
    simpa using hbefore

/-! ### What is added -/

/-- However the log is read, it is a dialogue. -/
def Dialogues (asks answers : M → Prop) (key : M → K) (pending : T → Prop)
    (log : List (T × M)) : Prop :=
  ∀ l, Reads key log l → Dialogue asks answers pending l

/-- A party has asked and not answered. -/
def Open (answers : M → Prop) (log : List (T × M)) (t : T) : Prop :=
  (∃ q, (t, q) ∈ log) ∧ ∀ a, (t, a) ∈ log → ¬ answers a

/-- A new party's question keeps the dialogue when it comes behind everything and none is open. -/
theorem question_iff (hnew : ∀ m', (t, m') ∉ log) (hm : asks m)
    (hopen : ∀ t', pending t' → Open answers log t') (ht : pending' t)
    (h : Dialogues asks answers key pending log) :
    Dialogues asks answers key pending' ((t, m) :: log) ↔
      (∀ e ∈ log, key e.2 < key m) ∧ ∀ t', ¬ pending t' := by
  constructor
  · intro hafter
    obtain ⟨l, hl⟩ := exists_reads key log
    obtain ⟨A, B, rfl, hreads, hbefore⟩ := hl.insert (t, m)
    have hsingle : ∀ m', (t, m') ∉ A ++ B := fun m' hmem => hnew m' (hl.1.mem_iff.mp hmem)
    obtain ⟨rfl, hA⟩ := (hafter _ hreads).single_last hsingle
    rw [List.append_nil] at hl
    refine ⟨fun e he => hbefore e (hl.1.mem_iff.mpr he), fun t' ht' => ?_⟩
    obtain ⟨⟨q, hq⟩, hnone⟩ := hopen t' ht'
    obtain ⟨-, -, -, -, hfalse⟩ := hA.open_last (hl.1.mem_iff.mpr hq) fun a ha =>
      hnone a (hl.1.mem_iff.mp ha)
    exact hfalse
  · intro hclosing l hl
    obtain ⟨hlast, hnone⟩ := hclosing
    obtain ⟨L, rfl, hL⟩ := hl.last hlast
    have hclosed : Dialogue asks answers (fun _ => False) L :=
      (h L hL).mono fun t' _ _ ht' => hnone t' ht'
    exact hclosed.append (.question hm ht)

/-- The answer to the open question keeps the dialogue when it comes behind everything. -/
theorem answer_iff (hopen : Open answers log t) (ha : answers a)
    (hkinds : ∀ m, asks m → ¬ answers m) (h : Dialogues asks answers key pending log) :
    Dialogues asks answers key pending' ((t, a) :: log) ↔ ∀ e ∈ log, key e.2 < key a := by
  obtain ⟨⟨q, hq⟩, hnone⟩ := hopen
  constructor
  · intro hafter
    obtain ⟨l, hl⟩ := exists_reads key log
    obtain ⟨L, hlast, hL, -, -⟩ := (h l hl).open_last (hl.1.mem_iff.mpr hq) fun a ha =>
      hnone a (hl.1.mem_iff.mp ha)
    obtain ⟨A, B, hsplit, hreads, hbefore⟩ := hl.insert (t, a)
    obtain ⟨A', q', rfl⟩ := (hafter _ hreads).answer_behind ha hkinds
    rcases List.eq_nil_or_concat B with rfl | ⟨B', e, rfl⟩
    · rw [List.append_nil] at hsplit
      intro e he
      exact hbefore e (hsplit ▸ hl.1.mem_iff.mpr he)
    · -- the answered question would be closed, and its party has no answer
      have hinner : A' ++ [(t, q')] ++ B' = L := by
        rw [hlast, List.concat_eq_append, ← List.append_assoc] at hsplit
        exact (List.append_inj_left' hsplit rfl).symm
      have hmem : (t, q') ∈ L := by
        rw [← hinner]
        simp
      obtain ⟨-, -, -, -, hfalse⟩ := hL.open_last hmem fun a ha =>
        hnone a (hl.1.mem_iff.mp (hlast ▸ List.mem_append_left _ ha))
      exact hfalse.elim
  · intro hlast l hl
    obtain ⟨L, rfl, hL⟩ := hl.last hlast
    obtain ⟨L', rfl, hL', hasks, -⟩ := (h L hL).open_last (hL.1.mem_iff.mpr hq) fun a ha =>
      hnone a (hL.1.mem_iff.mp ha)
    rw [List.append_assoc]
    exact hL'.append (.exchange hasks ha .nil)

end Exchange
