import Tenancy.Text.Basic

/-!
# Tenancy - Email addresses

The accepted form of an address is a non-empty local part, one `@`, and a
domain that holds a dot and neither starts nor ends with one.

Main definitions:

- `Email.normalize`: the trimmed, lowercased address under which it is stored.
- `Email.isValid`: the form check, which disregards surrounding blanks.
-/

namespace Tenancy
namespace Text
namespace Email

/-- The form under which an address is stored and compared. -/
def normalize (address : String) : String :=
  lowercase (trim address)

/-- Whether a domain holds a dot and has none at its ends. -/
def isDomain (domain : List Char) : Bool :=
  domain.contains '.' && domain.head? != some '.' && domain.getLast? != some '.'

/-- Whether a text is a local part, one `@` and a domain. -/
def isAddress (text : List Char) : Bool :=
  match text.span (· != '@') with
  | (localPart, _ :: domain) =>
    !localPart.isEmpty && !domain.contains '@' && isDomain domain
  | (_, []) => false

/-- Whether an address has the accepted form, blanks around it apart. -/
def isValid (address : String) : Bool :=
  isAddress (trimList address.toList)

end Email
end Text
end Tenancy
