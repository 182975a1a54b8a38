/-!
# Texts of lines

A text that is written line by line, each line with a line feed after it, falls back into the same
lines if none of them has a line feed of its own. Where a line begins is seen from its leading spaces,
provided that a name follows them.

## Main definitions

* `OnOneLine`: the text has no line feed
* `isName`: the text is a name of small letters and underscores
* `leadingSpaces`: the spaces before the first other character
* `unlines`: lines as one text

## Main results

* `foldl_eq_append_unlines`: what is written by steps that each write lines
* `split_unlines`, `count_unlines`: the lines of a text, and their number
-/

namespace QueryChain.Text

/-- The text has no line feed. -/
def OnOneLine (s : String) : Prop :=
  '\n' ∉ s.toList

instance (s : String) : Decidable (OnOneLine s) :=
  inferInstanceAs (Decidable ('\n' ∉ s.toList))

/-- Whether the text is a name of small letters and underscores. -/
def isName (s : String) : Bool :=
  !s.toList.isEmpty && s.toList.all fun c => c.isLower || c == '_'

/-- The number of spaces before the first other character. -/
def leadingSpaces (s : String) : Nat :=
  (s.toList.takeWhile (· = ' ')).length

/-- Lines as one text, each with a line feed after it. -/
def unlines (lines : List String) : String :=
  String.join (lines.map (· ++ "\n"))

/-! ## Texts on one line -/

theorem OnOneLine.append {s t : String} (hs : OnOneLine s) (ht : OnOneLine t) :
    OnOneLine (s ++ t) := by
  rw [OnOneLine, String.toList_append, List.mem_append]
  exact not_or.mpr ⟨hs, ht⟩

theorem OnOneLine.intercalate {s : String} (hs : OnOneLine s) {ts : List String}
    (hts : ∀ t ∈ ts, OnOneLine t) : OnOneLine (s.intercalate ts) := by
  induction ts with
  | nil =>
    rw [String.intercalate_nil]
    decide
  | cons t ts ih =>
    obtain ⟨ht, hts⟩ := List.forall_mem_cons.mp hts
    cases ts with
    | nil => rwa [String.intercalate_singleton]
    | cons u us =>
      rw [String.intercalate_cons_cons]
      exact (ht.append hs).append (ih hts)

theorem onOneLine_spaces (n : Nat) : OnOneLine (String.ofList (List.replicate n ' ')) := by
  rw [OnOneLine, String.toList_ofList]
  intro hfeed
  exact absurd (List.eq_of_mem_replicate hfeed) (by decide)

/-! ## Names -/

theorem isName_iff {s : String} :
    isName s ↔ s.toList ≠ [] ∧ ∀ c ∈ s.toList, c.isLower ∨ c = '_' := by
  simp [isName]

theorem onOneLine_of_isName {s : String} (h : isName s) : OnOneLine s := by
  intro hfeed
  exact absurd ((isName_iff.mp h).2 _ hfeed) (by decide)

/-- A name ends the spaces before it. -/
theorem leadingSpaces_of_isName {s : String} (h : isName s) (n : Nat) (t : String) :
    leadingSpaces (String.ofList (List.replicate n ' ') ++ (s ++ t)) = n := by
  obtain ⟨hne, hletters⟩ := isName_iff.mp h
  obtain ⟨c, cs, hs⟩ := List.exists_cons_of_ne_nil hne
  have hc : c ≠ ' ' := by
    rintro rfl
    exact absurd (hletters ' ' (by rw [hs]; exact List.mem_cons_self)) (by decide)
  simp [leadingSpaces, hs, hc]

/-! ## Texts made of lines -/

theorem unlines_nil : unlines [] = "" :=
  rfl

theorem unlines_cons (line : String) (lines : List String) :
    unlines (line :: lines) = line ++ "\n" ++ unlines lines := by
  rw [unlines, List.map_cons, String.join_cons, unlines]

theorem unlines_append (lines lines' : List String) :
    unlines (lines ++ lines') = unlines lines ++ unlines lines' := by
  rw [unlines, List.map_append, String.join_append, unlines, unlines]

/-- **Writing step by step:** if each step writes lines to the end of the text, the steps together
write the lines of all items, in order. -/
theorem foldl_eq_append_unlines {α : Type} {write : String → α → String} {lines : α → List String}
    {items : List α} (h : ∀ item ∈ items, ∀ out, write out item = out ++ unlines (lines item))
    (out : String) : items.foldl write out = out ++ unlines (items.flatMap lines) := by
  induction items generalizing out with
  | nil => rw [List.foldl_nil, List.flatMap_nil, unlines_nil, String.append_empty]
  | cons item items ih =>
    obtain ⟨hitem, hitems⟩ := List.forall_mem_cons.mp h
    rw [List.foldl_cons, hitem, ih hitems, List.flatMap_cons, unlines_append, String.append_assoc]

theorem unlines_eq_intercalate (lines : List String) :
    unlines lines = "\n".intercalate (lines ++ [""]) := by
  induction lines with
  | nil => rfl
  | cons line lines ih =>
    rw [unlines_cons, List.cons_append, String.intercalate_cons_of_ne_nil (by simp), ih]

/-- **The lines of a text:** cut at its line feeds, the text falls into the lines that it was made of,
with nothing after the last line feed. -/
theorem split_unlines {lines : List String} (h : ∀ line ∈ lines, OnOneLine line) :
    ((unlines lines).split '\n').toList.map (·.copy) = lines ++ [""] := by
  -- a line feed after each line is a line feed between the lines and one more, empty, piece
  have hpieces : ∀ piece ∈ lines ++ [""], '\n' ∉ piece.toList := by
    intro piece hpiece
    rcases List.mem_append.mp hpiece with hpiece | hpiece
    · exact h piece hpiece
    · simp [List.mem_singleton.mp hpiece]
  have hsplit := String.toList_split_intercalate hpieces
  rw [if_neg (by simp)] at hsplit
  rw [unlines_eq_intercalate]
  exact hsplit

theorem count_unlines {lines : List String} (h : ∀ line ∈ lines, OnOneLine line) :
    (unlines lines).toList.count '\n' = lines.length := by
  induction lines with
  | nil => rfl
  | cons line lines ih =>
    obtain ⟨hline, hlines⟩ := List.forall_mem_cons.mp h
    have hfeed : "\n".toList.count '\n' = 1 := by decide
    rw [unlines_cons, String.toList_append, String.toList_append, List.count_append,
      List.count_append, List.count_eq_zero.mpr hline, hfeed, ih hlines, List.length_cons]
    omega

end QueryChain.Text
