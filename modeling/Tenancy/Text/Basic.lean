import Tenancy.Text.CaseMap
import Tenancy.Text.CharClass

/-!
# Tenancy - Trimming and lowercasing

Text is handled as a list of characters, with `String` wrappers for callers.
Lowercasing is Unicode's full mapping: capital I with dot above becomes two
scalars, and a capital sigma becomes a final sigma exactly where it ends a word.

Main definitions:

- `trim`: the text without blank characters at its two ends.
- `lowercase`: the full lowercase mapping.
- `endsWord`: the context in which a capital sigma takes its final form.
- `asciiLowercase`, `snakeCase`: names in camel case turned into lowercase ones.
- `length`: the number of characters, which every length limit counts.
-/

namespace Tenancy
namespace Text

/-! ## Trimming -/

/-- Drop the blank characters at both ends. -/
def trimList (s : List Char) : List Char :=
  ((s.dropWhile isBlank).reverse.dropWhile isBlank).reverse

/-- Drop the blank characters at both ends. -/
def trim (s : String) : String :=
  String.ofList (trimList s.toList)

/-- Whether nothing is left after trimming. -/
def isBlankText (s : String) : Bool :=
  trim s == ""

/-! ## Lowercasing -/

/-- Whether a cased letter comes first once case-ignorable characters are skipped. -/
def startsCased (s : List Char) : Bool :=
  match s.dropWhile CharClass.caseIgnorable.contains with
  | c :: _ => CharClass.cased.contains c
  | [] => false

/--
Whether a letter between `before` (nearest character first) and `after` ends a
word: a cased letter precedes it and none follows.
-/
def endsWord (before after : List Char) : Bool :=
  startsCased before && !startsCased after

/-- The lowercase of one character in its context. -/
def lowerInContext (before : List Char) (c : Char) (after : List Char) : List Char :=
  if c = 'Σ' then [if endsWord before after then 'ς' else 'σ']
  else if c = 'İ' then ['i', '\u0307']
  else [lowerChar c]

/-- Lowercase the rest of a text whose earlier characters are `before`, nearest first. -/
def lowerFrom (before : List Char) : List Char → List Char
  | [] => []
  | c :: after => lowerInContext before c after ++ lowerFrom (c :: before) after

/-- The full lowercase of a text. -/
def lowerList (s : List Char) : List Char :=
  lowerFrom [] s

/-- The full lowercase of a text. -/
def lowercase (s : String) : String :=
  String.ofList (lowerList s.toList)

/-! ## Camel case -/

/-- Lowercase the letters from A to Z. -/
def asciiLowercase (s : String) : String :=
  String.ofList (s.toList.map Char.toLower)

/-- Put an underscore before every capital but the first character, and lowercase all letters. -/
def snakeCaseList : List Char → List Char
  | [] => []
  | first :: rest =>
    first.toLower :: rest.flatMap fun c => if c.isUpper then ['_', c.toLower] else [c.toLower]

/-- A camel-case name as lowercase words with underscores between them. -/
def snakeCase (s : String) : String :=
  String.ofList (snakeCaseList s.toList)

/-! ## Measuring and comparing -/

/-- The number of characters of a text. -/
def length (s : String) : Nat :=
  s.toList.length

/-- Keep the elements whose key is neither in `seen` nor that of an earlier element. -/
def keepFirst {α κ : Type} [BEq κ] (key : α → κ) (seen : List κ) : List α → List α
  | [] => []
  | a :: rest =>
    if seen.contains (key a) then keepFirst key seen rest
    else a :: keepFirst key (key a :: seen) rest

/-- The trimmed texts that are not blank. -/
def trimmedTexts (texts : List String) : List String :=
  (texts.map trim).filter (· != "")

/-- The trimmed, non-blank texts, each once, in the order of first appearance. -/
def distinctTrimmed (texts : List String) : List String :=
  keepFirst id [] (trimmedTexts texts)

end Text
end Tenancy
