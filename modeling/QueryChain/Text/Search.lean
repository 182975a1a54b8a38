/-!
# Parts of a text

## Main definitions

* `startsWith`, `endsWith`, `contains`: whether one text is an initial part, a final part or any
  contiguous part of another
-/

namespace QueryChain.Text

/-- Whether the first characters of `s` are those of `part`. -/
def startsWith (s part : String) : Bool :=
  part.toList.isPrefixOf s.toList

/-- Whether the last characters of `s` are those of `part`. -/
def endsWith (s part : String) : Bool :=
  part.toList.isSuffixOf s.toList

/-- Whether `part` starts at some position of the characters. -/
def occursIn (part : List Char) : List Char → Bool
  | [] => part.isEmpty
  | c :: rest => part.isPrefixOf (c :: rest) || occursIn part rest

/-- Whether the characters of `part` stand next to each other somewhere in `s`. -/
def contains (s part : String) : Bool :=
  occursIn part.toList s.toList

end QueryChain.Text
