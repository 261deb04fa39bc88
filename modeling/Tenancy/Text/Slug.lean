import Tenancy.Text.Basic

/-!
# Tenancy - Slugs

A slug is a lowercase token: a letter or digit of ASCII, followed by letters,
digits, hyphens, underscores and dots.  A text is a spelling of a slug when it
equals the slug after trimming and lowercasing.

Main definitions:

- `Slug.normalize`: the slug a text spells, or why it spells none.
- `Slug.Flaw.message`: the wording of each reason.
-/

namespace Tenancy
namespace Text
namespace Slug

/-- Why a text spells no slug. -/
inductive Flaw
  | empty
  | badStart
  | badCharacter (c : Char)
  | tooLong (limit : Nat)
deriving DecidableEq, Repr

/-- The wording of a flaw. -/
def Flaw.message : Flaw → String
  | .empty => "must not be empty"
  | .badStart => "must start with a letter or digit"
  | .badCharacter c =>
    "contains '" ++ c.toString ++ "'; only letters, digits, '-', '_' and '.' are allowed"
  | .tooLong limit => "must be at most " ++ toString limit ++ " characters"

/-- Whether a character may open a slug, once lowercased. -/
def isStart (c : Char) : Bool :=
  c.isAlphanum

/-- Whether a character may follow in a slug, once lowercased. -/
def isPart (c : Char) : Bool :=
  c.isAlphanum || c == '-' || c == '_' || c == '.'

/-- Check a trimmed, lowercased text; the first fault from the left is reported, length last. -/
def check (limit : Nat) : List Char → Except Flaw (List Char)
  | [] => .error .empty
  | first :: rest =>
    if !isStart first then .error .badStart
    else
      match rest.find? (!isPart ·) with
      | some c => .error (.badCharacter c)
      | none =>
        if limit < (first :: rest).length then .error (.tooLong limit) else .ok (first :: rest)

/-- The slug that a text spells. -/
def normalize (limit : Nat) (text : String) : Except Flaw String :=
  (check limit (lowercase (trim text)).toList).map String.ofList

end Slug
end Text
end Tenancy
