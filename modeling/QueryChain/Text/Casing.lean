import QueryChain.Text.CaseTable

/-!
# Letter case

Lower and upper case of a text, with mappings to several characters. Lower case depends on the
neighbours in one place: a capital sigma that ends a word becomes the final form.

## Main definitions

* `lowerChar`, `upperChar`: the mapping of one character
* `lower`, `upper`: the mapping of a text
-/

namespace QueryChain.Text

/-- The image of a character: its expansion if it has one, else its run's shift, else itself. -/
def mapCase (expansions : List (Nat × List Nat)) (runs : List CaseRun) (c : Char) : List Char :=
  match expansions.find? (·.1 == c.toNat) with
  | some (_, image) => image.map Char.ofNat
  | none =>
    match runs.find? (·.covers c.toNat) with
    | some run => [Char.ofNat (c.toNat + run.shift).toNat]
    | none => [c]

/-- The lower case of one character, apart from its neighbours. -/
def lowerChar (c : Char) : List Char :=
  mapCase lowerExpansions lowerRuns c

/-- The upper case of one character. -/
def upperChar (c : Char) : List Char :=
  mapCase upperExpansions upperRuns c

/-- Whether a cased letter comes first once the characters that are looked through are dropped. -/
def meetsCased (cs : List Char) : Bool :=
  match cs.dropWhile caseIgnorable.contains with
  | [] => false
  | c :: _ => cased.contains c

/-- Whether a letter with `before` (nearest first) and `after` around it ends a word. -/
def endsWord (before after : List Char) : Bool :=
  meetsCased before && !meetsCased after

/-- Lower case of the characters that follow `before`, which is given nearest first. -/
def lowerAfter : List Char → List Char → List Char
  | _, [] => []
  | before, c :: after =>
    let image := if c = 'Σ' then [if endsWord before after then 'ς' else 'σ'] else lowerChar c
    image ++ lowerAfter (c :: before) after

/-- The text in lower case. -/
def lower (s : String) : String :=
  String.ofList (lowerAfter [] s.toList)

/-- The text in upper case. -/
def upper (s : String) : String :=
  String.ofList (s.toList.flatMap upperChar)

end QueryChain.Text
