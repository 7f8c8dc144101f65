/-!
# Octets in hexadecimal

Two digits an octet, in lower case when written and of either case when read.
-/

namespace SectionStore.Hex

/-- The value of a hexadecimal digit. -/
def digit? (c : Char) : Option Nat :=
  if '0' ≤ c ∧ c ≤ '9' then some (c.toNat - '0'.toNat)
  else if 'a' ≤ c ∧ c ≤ 'f' then some (c.toNat - 'a'.toNat + 10)
  else if 'A' ≤ c ∧ c ≤ 'F' then some (c.toNat - 'A'.toNat + 10)
  else none

def encodeOctet (octet : UInt8) : List Char :=
  [Nat.digitChar (octet.toNat / 16), Nat.digitChar (octet.toNat % 16)]

/-- The octets as text. -/
def encode (octets : ByteArray) : List Char :=
  octets.toList.flatMap encodeOctet

/-- The octets that the text stands for. -/
def decodeOctets : List Char → Option (List UInt8)
  | [] => some []
  | high :: low :: rest => do
    let octet := 16 * (← digit? high) + (← digit? low)
    return octet.toUInt8 :: (← decodeOctets rest)
  | _ => none

def decode (text : List Char) : Option ByteArray :=
  (decodeOctets text).map fun octets => ⟨octets.toArray⟩

end SectionStore.Hex
