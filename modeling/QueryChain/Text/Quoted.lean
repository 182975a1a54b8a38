import QueryChain.Text.HiddenTable

/-!
# Quoted text

A text as it stands in a rendered value: between double quotes, with short escapes for the usual
controls and numeric escapes for hidden code points.

## Main definitions

* `escape`: the written form of one character
* `quoted`: the written form of a text
-/

namespace QueryChain.Text

/-- The numeric escape of a character: its code point in hexadecimal between braces. -/
def numericEscape (c : Char) : List Char :=
  '\\' :: 'u' :: '\x7b' :: (Nat.toDigits 16 c.toNat ++ ['\x7d'])

/-- The written form of one character. A single quote needs no escape. -/
def escape (c : Char) : List Char :=
  if c = '"' then ['\\', '"']
  else if c = '\\' then ['\\', '\\']
  else if c = '\n' then ['\\', 'n']
  else if c = '\r' then ['\\', 'r']
  else if c = '\t' then ['\\', 't']
  else if c.toNat = 0 then ['\\', '0']
  else if ' ' ≤ c ∧ c ≤ '~' then [c]
  else if hidden.contains c then numericEscape c
  else [c]

/-- The text between double quotes, character by character. -/
def quoted (s : String) : String :=
  String.ofList ('"' :: (s.toList.flatMap escape ++ ['"']))

end QueryChain.Text
