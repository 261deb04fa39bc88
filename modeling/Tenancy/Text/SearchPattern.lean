import Tenancy.Text.Basic

/-!
# Tenancy - Search patterns

A search pattern is written with two wildcards, `%` for any stretch of text and
`_` for any one character, and a backslash that makes the next character stand
for itself.  Patterns are compared without regard to case.  The pattern made
from search text escapes every special character of the text.

Whether a value fits is decided without going back: a row says which of the value's
beginnings fit the tokens read so far, and every token turns a row into the next one.

Main definitions:

- `SearchPattern.containing`: the pattern of the values that contain a text.
- `SearchPattern.tokenize`, `SearchPattern.fits`: reading a pattern, and what it means.
- `SearchPattern.accepts`: whether a value fits a pattern, decided row by row.
-/

namespace Tenancy
namespace Text

/-- A pattern with `%` and `_` as wildcards and a backslash as escape. -/
structure SearchPattern where
  text : String
deriving DecidableEq, Repr

namespace SearchPattern

/-- Whether a character has a meaning of its own in patterns. -/
def isSpecial (c : Char) : Bool :=
  c == '\\' || c == '%' || c == '_'

/-- Write a text so that each of its characters stands for itself. -/
def escape : List Char → List Char
  | [] => []
  | c :: rest => if isSpecial c then '\\' :: c :: escape rest else c :: escape rest

/-- The pattern of the values that contain a text. -/
def containing (text : String) : SearchPattern :=
  ⟨String.ofList ('%' :: (escape text.toList ++ ['%']))⟩

/-- What one element of a pattern stands for. -/
inductive Token
  | literal (c : Char)
  | anyOne
  | anyStretch
deriving DecidableEq, Repr

/-- Read a pattern; a backslash at its end stands for itself. -/
def tokenize : List Char → List Token
  | [] => []
  | '\\' :: c :: rest => .literal c :: tokenize rest
  | c :: rest =>
    (if c = '%' then .anyStretch else if c = '_' then .anyOne else .literal c) :: tokenize rest

/-! ## What fits -/

/-- Whether some end part of a text satisfies a test. -/
def anySuffix (test : List Char → Bool) : List Char → Bool
  | [] => test []
  | c :: rest => test (c :: rest) || anySuffix test rest

/-- Whether a text fits a list of tokens from its first to its last character. -/
def fits : List Token → List Char → Bool
  | [], text => text.isEmpty
  | .literal c :: tokens, text =>
    match text with
    | d :: rest => c == d && fits tokens rest
    | [] => false
  | .anyOne :: tokens, text =>
    match text with
    | _ :: rest => fits tokens rest
    | [] => false
  | .anyStretch :: tokens, text => anySuffix (fits tokens) text

/-! ## Deciding what fits -/

/-- The row before the first token: only the empty beginning of a text fits no tokens. -/
def startRow (text : List Char) : List Bool :=
  true :: text.map fun _ => false

/-- Mark everything from the first mark on. -/
def spread (marked : Bool) : List Bool → List Bool
  | [] => []
  | here :: rest => (marked || here) :: spread (marked || here) rest

/-- Move each mark to the next place, if the character between the two passes a test. -/
def shift (passes : Char → Bool) (row : List Bool) (text : List Char) : List Bool :=
  false :: List.zipWith (fun here c => here && passes c) row text

/-- The row after a token. -/
def Token.nextRow (text : List Char) (row : List Bool) : Token → List Bool
  | .literal c => shift (c == ·) row text
  | .anyOne => shift (fun _ => true) row text
  | .anyStretch => spread false row

/-- The row after a list of tokens: which of a text's beginnings fit, the empty one first. -/
def lastRow (tokens : List Token) (text : List Char) : List Bool :=
  tokens.foldl (Token.nextRow text) (startRow text)

/-- Whether a value fits a pattern, both lowercased. -/
def accepts (pattern : SearchPattern) (value : String) : Bool :=
  let text := lowerList value.toList
  (lastRow (tokenize (lowerList pattern.text.toList)) text).getLastD false

end SearchPattern
end Text
end Tenancy
