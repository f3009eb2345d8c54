import DsProxy.App.Services

/-!
# How a message is rendered

`renderChatMessages` cuts a message at `<think>` and `</think>` and shows what is between them, as
thoughts behind the first and as text behind the second. Every message is stretches without a tag in
exactly one way, and these stretches are what is shown.
-/

namespace DsProxy.App

/-- A text that is shown, and whether it is a thought. -/
structure Segment where
  text : List Char
  isThinking : Bool

/-- The current text is pushed unless it is empty. -/
def push (currentText : List Char) (isThinking : Bool) : List Segment :=
  if currentText = [] then [] else [⟨currentText, isThinking⟩]

/-- The loop of `renderChatMessages`, with the characters of a tag that are still skipped. -/
def segments : ℕ → List Char → Bool → List Char → List Segment
  | _, currentText, isThinking, [] => push currentText isThinking
  | skip + 1, currentText, isThinking, _ :: rest => segments skip currentText isThinking rest
  | 0, currentText, isThinking, c :: rest =>
    if startsWith (c :: rest) "<think>" then push currentText isThinking ++ segments 6 [] true rest
    else if startsWith (c :: rest) "</think>" then
      push currentText isThinking ++ segments 7 [] false rest
    else segments 0 (currentText ++ [c]) isThinking rest

/-- What is shown of a content. -/
def renderContent (content : List Char) : List Segment := segments 0 [] false content

/-! ### Stretches -/

def tag : Bool → List Char
  | true => "<think>".toList
  | false => "</think>".toList

/-- The text before the first tag, and each tag with the text behind it. -/
structure Stretches where
  first : List Char
  tagged : List (Bool × List Char)

def NoTag (text : List Char) : Prop := ∀ isThinking, ¬ tag isThinking <:+: text

namespace Stretches

def printTagged (tagged : List (Bool × List Char)) : List Char :=
  tagged.flatMap fun stretch => tag stretch.1 ++ stretch.2

def print (s : Stretches) : List Char := s.first ++ printTagged s.tagged

/-- The stretches that are not empty, the first as text and each other one by its tag. -/
def shown (s : Stretches) : List Segment :=
  push s.first false ++ s.tagged.flatMap fun stretch => push stretch.2 stretch.1

/-- No tag is inside of a stretch. -/
structure Tagless (s : Stretches) : Prop where
  first : NoTag s.first
  tagged : ∀ stretch ∈ s.tagged, NoTag stretch.2

end Stretches

/-! ### Tags in a text -/

section Tags

variable {isThinking : Bool} {text rest : List Char}

theorem tag_eq (isThinking : Bool) : ∃ more, tag isThinking = '<' :: more ∧ '<' ∉ more := by
  cases isThinking with
  | true => exact ⟨"think>".toList, rfl, by decide⟩
  | false => exact ⟨"/think>".toList, rfl, by decide⟩

/-- What follows a stretch is nothing or a tag. -/
def AtTag (rest : List Char) : Prop := rest = [] ∨ ∃ isThinking, tag isThinking <+: rest

theorem noTag_nil : NoTag [] := by
  intro isThinking h
  obtain ⟨more, htag, -⟩ := tag_eq isThinking
  rw [htag, List.infix_nil] at h
  exact List.cons_ne_nil _ _ h

theorem NoTag.tail {c : Char} (h : NoTag (c :: text)) : NoTag text :=
  fun isThinking inside => h isThinking (List.infix_cons inside)

/-- A tag does not start in one stretch and end in what follows it. -/
theorem prefix_of_prefix_append (htext : text ≠ []) (hrest : AtTag rest)
    (h : tag isThinking <+: text ++ rest) : tag isThinking <+: text := by
  rcases List.prefix_or_prefix_of_prefix h (List.prefix_append text rest) with
    inside | ⟨left, hover⟩
  · exact inside
  obtain ⟨more, htag, hmore⟩ := tag_eq isThinking
  obtain ⟨c, text', rfl⟩ := List.exists_cons_of_ne_nil htext
  have hover' : left <+: rest := by
    rw [← hover] at h
    exact (List.prefix_append_right_inj _).mp h
  rcases left with _ | ⟨d, left⟩
  · rw [List.append_nil] at hover
    exact hover ▸ List.prefix_rfl
  -- what is over of the tag would start as `rest` does, with a second `<`
  rcases hrest with rfl | ⟨next, hnext⟩
  · simp at hover'
  · obtain ⟨more', htag', -⟩ := tag_eq next
    obtain ⟨after, rfl⟩ := hnext
    have hd : d = '<' := by
      rw [htag'] at hover'
      exact (List.cons_prefix_cons.mp hover').1
    rw [htag, hd, List.cons_append] at hover
    refine absurd ?_ hmore
    rw [← (List.cons.inj hover).2]
    exact List.mem_append_right _ List.mem_cons_self

theorem stretch_of_starts {text' rest' : List Char} (htext : NoTag text) (hrest : AtTag rest)
    (hrest' : AtTag rest') (hstarts : text' <+: text) (h : text ++ rest = text' ++ rest') :
    text' = text := by
  obtain ⟨more, rfl⟩ := hstarts
  rw [List.append_assoc] at h
  have hmore : more ++ rest = rest' := List.append_cancel_left h
  rcases more with _ | ⟨c, more⟩
  · rw [List.append_nil]
  rcases hrest' with rfl | ⟨isThinking, htag⟩
  · simp at hmore
  · rw [← hmore] at htag
    have hinside := prefix_of_prefix_append (List.cons_ne_nil c more) hrest htag
    exact absurd (hinside.isInfix.trans (List.suffix_append text' _).isInfix) (htext isThinking)

/-- Two cuts of one text into a stretch and what follows it are the same cut. -/
theorem stretch_unique {text' rest' : List Char} (htext : NoTag text) (hrest : AtTag rest)
    (htext' : NoTag text') (hrest' : AtTag rest') (h : text ++ rest = text' ++ rest') :
    text = text' ∧ rest = rest' := by
  have heq : text = text' := by
    rcases List.prefix_or_prefix_of_prefix (List.prefix_append text rest)
      (h ▸ List.prefix_append text' rest') with hstarts | hstarts
    · exact stretch_of_starts htext' hrest' hrest hstarts h.symm
    · exact (stretch_of_starts htext hrest hrest' hstarts h).symm
  subst heq
  exact ⟨rfl, List.append_cancel_left h⟩

end Tags

/-! ### The loop -/

section Loop

variable {isThinking : Bool} {currentText text rest : List Char}

theorem startsWith_iff {content : List Char} {start : String} :
    startsWith content start = true ↔ start.toList <+: content :=
  List.isPrefixOf_iff_prefix

theorem segments_tag (next : Bool) :
    segments 0 currentText isThinking (tag next ++ rest) =
      push currentText isThinking ++ segments 0 [] next rest := by
  cases next with
  | true => rfl
  | false => rfl

theorem segments_stretch (htext : NoTag text) (hrest : AtTag rest) :
    segments 0 currentText isThinking (text ++ rest) =
      segments 0 (currentText ++ text) isThinking rest := by
  induction text generalizing currentText with
  | nil => rw [List.nil_append, List.append_nil]
  | cons c text ih =>
    have hnot (next : Bool) : ¬ tag next <+: c :: (text ++ rest) := fun h =>
      htext next (prefix_of_prefix_append (List.cons_ne_nil c text) hrest h).isInfix
    have hthink : ¬ startsWith (c :: (text ++ rest)) "<think>" = true := fun h =>
      hnot true (startsWith_iff.mp h)
    have hend : ¬ startsWith (c :: (text ++ rest)) "</think>" = true := fun h =>
      hnot false (startsWith_iff.mp h)
    rw [List.cons_append, segments, if_neg hthink, if_neg hend, ih htext.tail,
      List.append_assoc, List.singleton_append]

end Loop

/-! ### The stretches of a content -/

section Content

variable {isThinking : Bool} {currentText text : List Char} {tagged : List (Bool × List Char)}

@[simp] theorem Stretches.printTagged_cons (stretch : Bool × List Char) :
    Stretches.printTagged (stretch :: tagged) =
      tag stretch.1 ++ (stretch.2 ++ Stretches.printTagged tagged) := by
  simp [Stretches.printTagged]

theorem printTagged_ne_nil {stretch : Bool × List Char} :
    Stretches.printTagged (stretch :: tagged) ≠ [] := by
  obtain ⟨more, htag, -⟩ := tag_eq stretch.1
  simp [htag]

theorem atTag_printTagged : AtTag (Stretches.printTagged tagged) := by
  cases tagged with
  | nil => exact .inl rfl
  | cons stretch tagged =>
    rw [Stretches.printTagged_cons]
    exact .inr ⟨stretch.1, List.prefix_append _ _⟩

theorem segments_printTagged (htagless : ∀ stretch ∈ tagged, NoTag stretch.2) :
    segments 0 currentText isThinking (Stretches.printTagged tagged) =
      push currentText isThinking ++ tagged.flatMap fun stretch => push stretch.2 stretch.1 := by
  induction tagged generalizing currentText isThinking with
  | nil => simp [Stretches.printTagged, segments]
  | cons stretch tagged ih =>
    rw [Stretches.printTagged_cons, segments_tag,
      segments_stretch (htagless stretch List.mem_cons_self) atTag_printTagged, List.nil_append,
      ih fun stretch h => htagless stretch (List.mem_cons_of_mem _ h), List.flatMap_cons]

theorem renderContent_print {s : Stretches} (h : s.Tagless) : renderContent s.print = s.shown := by
  have hfirst : segments 0 [] false s.print =
      segments 0 s.first false (Stretches.printTagged s.tagged) :=
    segments_stretch h.first atTag_printTagged
  rw [renderContent, hfirst, segments_printTagged h.tagged, Stretches.shown]

theorem tag_ne {rest rest' : List Char} : tag true ++ rest ≠ tag false ++ rest' := by
  have htrue : tag true = ['<', 't', 'h', 'i', 'n', 'k', '>'] := rfl
  have hfalse : tag false = ['<', '/', 't', 'h', 'i', 'n', 'k', '>'] := rfl
  rw [htrue, hfalse]
  simp

/-- No tag is the start of the other. -/
theorem tag_inj {next next' : Bool} {rest rest' : List Char}
    (h : tag next ++ rest = tag next' ++ rest') : next = next' ∧ rest = rest' := by
  have hnext : next = next' := by
    cases next with
    | true =>
      cases next' with
      | true => rfl
      | false => exact absurd h tag_ne
    | false =>
      cases next' with
      | true => exact absurd h.symm tag_ne
      | false => rfl
  subst hnext
  exact ⟨rfl, List.append_cancel_left h⟩

theorem printTagged_inj {tagged' : List (Bool × List Char)}
    (htagless : ∀ stretch ∈ tagged, NoTag stretch.2)
    (htagless' : ∀ stretch ∈ tagged', NoTag stretch.2)
    (h : Stretches.printTagged tagged = Stretches.printTagged tagged') : tagged = tagged' := by
  induction tagged generalizing tagged' with
  | nil =>
    cases tagged' with
    | nil => rfl
    | cons stretch' _ => exact absurd h.symm printTagged_ne_nil
  | cons stretch tagged ih =>
    cases tagged' with
    | nil => exact absurd h printTagged_ne_nil
    | cons stretch' tagged' =>
      rw [Stretches.printTagged_cons, Stretches.printTagged_cons] at h
      obtain ⟨hnext, hrest⟩ := tag_inj h
      obtain ⟨htext, htagged⟩ := stretch_unique (htagless stretch List.mem_cons_self)
        atTag_printTagged (htagless' stretch' List.mem_cons_self) atTag_printTagged hrest
      rw [Prod.ext hnext htext, ih (fun s hs => htagless s (List.mem_cons_of_mem _ hs))
        (fun s hs => htagless' s (List.mem_cons_of_mem _ hs)) htagged]

theorem print_inj {s s' : Stretches} (h : s.Tagless) (h' : s'.Tagless)
    (hprint : s.print = s'.print) : s = s' := by
  obtain ⟨hfirst, htagged⟩ :=
    stretch_unique h.first atTag_printTagged h'.first atTag_printTagged hprint
  cases s
  cases s'
  simp only [Stretches.mk.injEq]
  exact ⟨hfirst, printTagged_inj h.tagged h'.tagged htagged⟩

theorem exists_stretches (content : List Char) :
    ∃ s : Stretches, s.Tagless ∧ s.print = content := by
  induction hlength : content.length using Nat.strong_induction_on generalizing content with
  | _ length ih =>
    subst hlength
    cases content with
    | nil => exact ⟨⟨[], []⟩, ⟨noTag_nil, by simp⟩, rfl⟩
    | cons c content =>
      by_cases hstart : ∃ next, tag next <+: c :: content
      · -- a tag begins the content: what is behind it gives its stretch
        obtain ⟨next, rest, hrest⟩ := hstart
        have hshorter : rest.length < (c :: content).length := by
          obtain ⟨more, htag, -⟩ := tag_eq next
          rw [← hrest, htag]
          simp only [List.cons_append, List.length_cons, List.length_append]
          omega
        obtain ⟨s, htagless, hprint⟩ := ih rest.length hshorter rest rfl
        refine ⟨⟨[], (next, s.first) :: s.tagged⟩, ⟨noTag_nil, ?_⟩, ?_⟩
        · exact List.forall_mem_cons.mpr ⟨htagless.first, htagless.tagged⟩
        · rw [Stretches.print, Stretches.printTagged_cons, List.nil_append]
          rw [Stretches.print] at hprint
          rw [hprint, hrest]
      · obtain ⟨s, htagless, hprint⟩ := ih content.length (by simp) content rfl
        refine ⟨⟨c :: s.first, s.tagged⟩, ⟨fun next inside => ?_, htagless.tagged⟩, ?_⟩
        · rcases List.infix_cons_iff.mp inside with hstarts | hinside
          · refine hstart ⟨next, hstarts.trans ?_⟩
            rw [← hprint]
            exact List.prefix_append (c :: s.first) _
          · exact htagless.first next hinside
        · rw [← hprint]
          rfl

/-- Every content is stretches without a tag, in one way, and these are what is shown of it. -/
theorem rendered_by_stretches (content : List Char) :
    ∃ s : Stretches, s.Tagless ∧ s.print = content ∧ renderContent content = s.shown ∧
      ∀ s' : Stretches, s'.Tagless → s'.print = content → s' = s := by
  obtain ⟨s, htagless, rfl⟩ := exists_stretches content
  exact ⟨s, htagless, rfl, renderContent_print htagless,
    fun s' h' hprint => print_inj h' htagless hprint⟩

end Content

end DsProxy.App
