/-!
Universally unique identifiers: 128 bits, written as 32 hexadecimal digits in five groups.
-/
namespace RelMap

/-- An identifier of 128 bits; its order is that of the bits as a number. -/
structure Uuid where
  bits : BitVec 128
  deriving DecidableEq

namespace Uuid

def compare (a b : Uuid) : Ordering := Ord.compare a.bits.toNat b.bits.toNat

/-- The sixteen groups of two digits, most significant first. -/
def octets (u : Uuid) : List (List Char) :=
  (List.range 16).map fun i =>
    let octet := u.bits.toNat / Nat.pow 256 (15 - i) % 256
    [Nat.digitChar (octet / 16), Nat.digitChar (octet % 16)]

/-- Groups of 8, 4, 4, 4 and 12 digits. -/
def text (u : Uuid) : String :=
  let part (start count : Nat) := ((u.octets.drop start).take count).flatten
  String.ofList (part 0 4 ++ '-' :: part 4 2 ++ '-' :: part 6 2 ++ '-' :: part 8 2
    ++ '-' :: part 10 6)

def hexDigit? (c : Char) : Option Nat :=
  if '0' ≤ c && c ≤ '9' then some (c.toNat - '0'.toNat)
  else if 'a' ≤ c && c ≤ 'f' then some (c.toNat - 'a'.toNat + 10)
  else if 'A' ≤ c && c ≤ 'F' then some (c.toNat - 'A'.toNat + 10)
  else none

/-- Exactly 32 hexadecimal digits of either case. -/
def ofDigits? (digits : List Char) : Option Uuid := do
  let values ← digits.mapM hexDigit?
  if values.length = 32 then some ⟨BitVec.ofNat 128 (values.foldl (16 * · + ·) 0)⟩ else none

/-- Exactly the five groups. -/
def ofGroups? (text : List Char) : Option Uuid :=
  let groups := text.splitOn '-'
  if groups.map List.length = [8, 4, 4, 4, 12] then ofDigits? groups.flatten else none

/-- The start of an identifier written as a name; letter case is left aside. -/
def namePrefix : List Char := "urn:uuid:".toList

/-- Reads the five groups, bare, in braces or after `urn:uuid:`, or the digits alone. -/
def parse? (text : String) : Option Uuid :=
  match text.toList with
  | '\x7b' :: rest => if rest.getLast? = some '\x7d' then ofGroups? rest.dropLast else none
  | chars =>
    if (chars.take namePrefix.length).map Char.toLower = namePrefix then
      ofGroups? (chars.drop namePrefix.length)
    else if chars.contains '-' then ofGroups? chars
    else ofDigits? chars

end Uuid
end RelMap
