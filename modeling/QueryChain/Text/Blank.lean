import QueryChain.Text.CodeSet

/-!
# Blanks

The blank characters and the removal of blanks around a text.

## Main definitions

* `blank`: the class of blank characters
* `trim`, `trimEnd`: a text without the blanks around it, and without those after it
-/

namespace QueryChain.Text

/-- Spaces, tabs and line breaks of every script; joiners and word separators of no width are
not blank. -/
def blank : CodeSet := ⟨[
   (0x9, 0xD), (0x20, 0x20), (0x85, 0x85), (0xA0, 0xA0), (0x1680, 0x1680), (0x2000, 0x200A),
   (0x2028, 0x2029), (0x202F, 0x202F), (0x205F, 0x205F), (0x3000, 0x3000)]⟩

/-- The characters without the blanks before them. -/
def dropBlanks (cs : List Char) : List Char :=
  cs.dropWhile blank.contains

/-- The text without the blanks after it. -/
def trimEnd (s : String) : String :=
  String.ofList (dropBlanks s.toList.reverse).reverse

/-- The text without the blanks around it. -/
def trim (s : String) : String :=
  String.ofList (dropBlanks (dropBlanks s.toList).reverse).reverse

end QueryChain.Text
