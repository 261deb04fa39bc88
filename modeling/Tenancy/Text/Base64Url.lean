/-!
# Tenancy - URL-safe base64

Bytes are written six bits at a time over an alphabet of letters, digits,
hyphen and underscore, without padding.

Main definitions:

- `Base64Url.encode`: the text of a list of bytes.
-/

namespace Tenancy
namespace Text
namespace Base64Url

/-- The character for a value below 64. -/
def digit (value : Nat) : Char :=
  if value < 26 then Char.ofNat ('A'.toNat + value)
  else if value < 52 then Char.ofNat ('a'.toNat + (value - 26))
  else if value < 62 then Char.ofNat ('0'.toNat + (value - 52))
  else if value = 62 then '-'
  else '_'

/-- The characters for a list of bytes, three bytes to four characters. -/
def encodeList : List UInt8 → List Char
  | a :: b :: c :: rest =>
    let (a, b, c) := (a.toNat, b.toNat, c.toNat)
    digit (a / 4) :: digit (a % 4 * 16 + b / 16) :: digit (b % 16 * 4 + c / 64) :: digit (c % 64)
      :: encodeList rest
  | [a, b] =>
    let (a, b) := (a.toNat, b.toNat)
    [digit (a / 4), digit (a % 4 * 16 + b / 16), digit (b % 16 * 4)]
  | [a] => [digit (a.toNat / 4), digit (a.toNat % 4 * 16)]
  | [] => []

/-- The text of a list of bytes. -/
def encode (bytes : List UInt8) : String :=
  String.ofList (encodeList bytes)

end Base64Url
end Text
end Tenancy
