import Mathlib.Tactic.Common

/-!
# Blocks in a stream

A reader collects what arrives in a buffer and, after each chunk, takes the complete blocks off it
and handles them one by one. A block ends at the first doubled separator. Handling a block may end
the round, which leaves the rest of the buffer for the next chunk, or break off the reading. When a
round ends early at the last block only, the chunks make no difference.
-/

namespace Blocks

section Cut

variable {α : Type} [DecidableEq α] {x : α} {text more block rest line : List α}

variable (x) in
/-- What lies before and behind the first doubled separator. -/
def cut : List α → Option (List α × List α)
  | [] => none
  | [_] => none
  | a :: b :: rest =>
    if a = x ∧ b = x then some ([], rest)
    else (cut (b :: rest)).map fun parts => (a :: parts.1, parts.2)

theorem cut_cons_cons (a b : α) (rest : List α) : cut x (a :: b :: rest) =
    if a = x ∧ b = x then some ([], rest)
    else (cut x (b :: rest)).map fun parts => (a :: parts.1, parts.2) := rfl

theorem cut_append (h : cut x text = some (block, rest)) :
    cut x (text ++ more) = some (block, rest ++ more) := by
  induction text generalizing block with
  | nil => cases h
  | cons a text ih =>
      cases text with
      | nil => cases h
      | cons b text =>
          rw [List.cons_append, List.cons_append, cut_cons_cons]
          rw [cut_cons_cons] at h
          split_ifs at h ⊢ with hblank
          · obtain ⟨rfl, rfl⟩ := Prod.mk.inj (Option.some.inj h)
            rfl
          · obtain ⟨⟨block', rest'⟩, hcut, hparts⟩ := Option.map_eq_some_iff.mp h
            obtain ⟨rfl, rfl⟩ := Prod.mk.inj hparts
            rw [← List.cons_append, ih hcut, Option.map_some]

theorem length_of_cut (h : cut x text = some (block, rest)) : rest.length < text.length := by
  induction text generalizing block with
  | nil => cases h
  | cons a text ih =>
      cases text with
      | nil => cases h
      | cons b text =>
          rw [cut_cons_cons] at h
          split_ifs at h with hblank
          · obtain ⟨rfl, rfl⟩ := Prod.mk.inj (Option.some.inj h)
            simp only [List.length_cons]
            omega
          · obtain ⟨⟨block', rest'⟩, hcut, hparts⟩ := Option.map_eq_some_iff.mp h
            obtain ⟨rfl, rfl⟩ := Prod.mk.inj hparts
            exact Nat.lt_trans (ih hcut) (Nat.lt_succ_self _)

theorem cut_line (h : x ∉ line) : cut x (line ++ text) =
    (cut x text).map fun parts => (line ++ parts.1, parts.2) := by
  induction line with
  | nil => simp
  | cons a line ih =>
      have ha : a ≠ x := fun heq => h (heq ▸ List.mem_cons_self)
      have hline := ih fun hmem => h (List.mem_cons_of_mem a hmem)
      rw [List.cons_append]
      cases htext : line ++ text with
      | nil =>
          obtain ⟨-, rfl⟩ := List.append_eq_nil_iff.mp htext
          rfl
      | cons b rest =>
          rw [cut_cons_cons, if_neg fun hblank => ha hblank.1, ← htext, hline, Option.map_map]
          rfl

theorem cut_line_end {a : α} (ha : a ≠ x) : cut x (x :: a :: text) =
    (cut x (a :: text)).map fun parts => (x :: parts.1, parts.2) :=
  if_neg fun hblank => ha hblank.2

variable (x) in
/-- Set off by a doubled separator, the block is what is cut off. -/
def Complete (block : List α) : Prop :=
  ∀ rest, cut x (block ++ x :: x :: rest) = some (block, rest)

theorem complete_line (h : x ∉ line) : Complete x line := by
  intro rest
  have hblank : cut x (x :: x :: rest) = some ([], rest) := if_pos ⟨rfl, rfl⟩
  rw [cut_line h, hblank, Option.map_some, List.append_nil]

theorem complete_append {a : α} (h : x ∉ line) (ha : a ≠ x) (hblock : Complete x (a :: block)) :
    Complete x (line ++ x :: a :: block) := by
  intro rest
  rw [List.append_assoc, cut_line h, List.cons_append, List.cons_append, cut_line_end ha,
    ← List.cons_append, hblock rest]
  rfl

end Cut

/-- The text of a sequence of blocks. -/
def join {α : Type} (x : α) (blocks : List (List α)) : List α :=
  blocks.flatMap fun block => block ++ [x, x]

theorem join_cons {α : Type} (x : α) (block : List α) (blocks : List (List α)) :
    join x (block :: blocks) = block ++ x :: x :: join x blocks := by
  rw [join, List.flatMap_cons, List.append_assoc]
  rfl

section Reading

variable {α σ : Type} [DecidableEq α] (x : α) (handle : σ → List α → Except σ (σ × Bool))

/-- One round: handling a block may break off with an error, end the round, or go on. -/
def drain (s : σ) (buffer : List α) : Except σ (σ × List α) :=
  match _ : cut x buffer with
  | none => .ok (s, buffer)
  | some (block, rest) =>
    match handle s block with
    | .error s' => .error s'
    | .ok (s', true) => .ok (s', rest)
    | .ok (s', false) => drain s' rest
termination_by buffer.length
decreasing_by exact length_of_cut (by assumption)

/-- A round for each chunk. -/
def feed : σ → List α → List (List α) → Except σ (σ × List α)
  | s, buffer, [] => .ok (s, buffer)
  | s, buffer, chunk :: rest =>
    match drain x handle s (buffer ++ chunk) with
    | .error s' => .error s'
    | .ok (s', buffer') => feed s' buffer' rest

/-- Handling the blocks one after another goes through and ends in `t`; only the last one may end
its round. -/
inductive Handled : σ → List (List α) → σ → Prop
  | nil (s : σ) : Handled s [] s
  | next {s s' t : σ} {block : List α} {blocks : List (List α)} (complete : Complete x block)
      (handled : handle s block = .ok (s', false)) (rest : Handled s' blocks t) :
      Handled s (block :: blocks) t
  | last {s t : σ} {block : List α} (complete : Complete x block)
      (handled : handle s block = .ok (t, true)) : Handled s [block] t

variable {x handle} {s s' t : σ} {block rest buffer later : List α} {blocks : List (List α)}

theorem Complete.cut_join (h : Complete x block) :
    cut x (join x (block :: blocks)) = some (block, join x blocks) := by
  rw [join_cons, h]

theorem drain_none (h : cut x buffer = none) : drain x handle s buffer = .ok (s, buffer) := by
  rw [drain]
  split
  · rfl
  · rename_i hcut
    cases h.symm.trans hcut

theorem drain_some (h : cut x buffer = some (block, rest)) : drain x handle s buffer =
    match handle s block with
    | .error s' => .error s'
    | .ok (s', true) => .ok (s', rest)
    | .ok (s', false) => drain x handle s' rest := by
  rw [drain]
  split
  · rename_i hcut
    cases h.symm.trans hcut
  · rename_i block' rest' hcut
    obtain ⟨rfl, rfl⟩ := Prod.mk.inj (Option.some.inj (hcut.symm.trans h))
    rfl

theorem Complete.of_cut (h : Complete x block) {block' : List α}
    (hcut : cut x buffer = some (block', rest))
    (hsplit : buffer ++ later = join x (block :: blocks)) :
    block' = block ∧ rest ++ later = join x blocks := by
  have hmore : cut x (buffer ++ later) = some (block', rest ++ later) := cut_append hcut
  rw [hsplit, h.cut_join] at hmore
  obtain ⟨rfl, hrest⟩ := Prod.mk.inj (Option.some.inj hmore)
  exact ⟨rfl, hrest.symm⟩

/-- A round handles some of the blocks, and what is left in the buffer is incomplete. -/
theorem Handled.drain (h : Handled x handle s blocks t)
    (hsplit : buffer ++ later = join x blocks) :
    ∃ s' blocks' buffer', Blocks.drain x handle s buffer = .ok (s', buffer') ∧
      Handled x handle s' blocks' t ∧ buffer' ++ later = join x blocks' ∧
      cut x buffer' = none := by
  induction h generalizing buffer with
  | nil s =>
      obtain ⟨rfl, -⟩ := List.append_eq_nil_iff.mp hsplit
      exact ⟨s, [], [], drain_none rfl, .nil s, hsplit, rfl⟩
  | @next s s' t block blocks complete handled rest ih =>
      cases hcut : cut x buffer with
      | none =>
          exact ⟨s, _, buffer, drain_none hcut, .next complete handled rest, hsplit, hcut⟩
      | some parts =>
          obtain ⟨block', rest'⟩ := parts
          obtain ⟨rfl, hrest⟩ := complete.of_cut hcut hsplit
          obtain ⟨s'', blocks', buffer', hdrain, hleft⟩ := ih hrest
          refine ⟨s'', blocks', buffer', ?_, hleft⟩
          rw [drain_some hcut, handled]
          exact hdrain
  | @last s t block complete handled =>
      cases hcut : cut x buffer with
      | none => exact ⟨s, _, buffer, drain_none hcut, .last complete handled, hsplit, hcut⟩
      | some parts =>
          obtain ⟨block', rest'⟩ := parts
          obtain ⟨rfl, hrest⟩ := complete.of_cut hcut hsplit
          obtain ⟨rfl, rfl⟩ := List.append_eq_nil_iff.mp hrest
          refine ⟨t, [], [], ?_, .nil t, rfl, rfl⟩
          rw [drain_some hcut, handled]

theorem Handled.feed_from {chunks : List (List α)} (h : Handled x handle s blocks t)
    (hbuffer : cut x buffer = none) (hchunks : buffer ++ chunks.flatten = join x blocks) :
    feed x handle s buffer chunks = .ok (t, []) := by
  induction chunks generalizing s buffer blocks with
  | nil =>
      rw [List.flatten_nil, List.append_nil] at hchunks
      rw [hchunks] at hbuffer
      cases h with
      | nil s =>
          rw [hchunks]
          rfl
      | next complete handled rest => cases hbuffer.symm.trans complete.cut_join
      | last complete handled => cases hbuffer.symm.trans complete.cut_join
  | cons chunk chunks ih =>
      rw [List.flatten_cons, ← List.append_assoc] at hchunks
      obtain ⟨s', blocks', buffer', hdrain, hrest, hsplit, hnone⟩ := h.drain hchunks
      rw [feed, hdrain]
      exact ih hrest hnone hsplit

/-- However the text of the blocks is cut into chunks, the reader handles block after block. -/
theorem Handled.feed {chunks : List (List α)} (h : Handled x handle s blocks t)
    (hchunks : chunks.flatten = join x blocks) :
    Blocks.feed x handle s [] chunks = .ok (t, []) :=
  h.feed_from rfl hchunks

end Reading

end Blocks
