import SectionStore.Json
import SectionStore.Text.Utf8

/-!
# Ciphers

The store never calls a cipher itself: it hands the cipher of a file to the providers of that file,
which may encrypt parts of their own payloads with it. `Cipher.mask` is a cipher without a secret,
for trials.
-/

namespace SectionStore

/-- What encryption yields: the ciphertext and the initialisation vector that it belongs to. -/
structure EncryptedData where
  ciphertext : ByteArray
  iv : ByteArray

/-- The octets in a JSON array of numbers. -/
def octetsOfJson? : Json → Option ByteArray
  | .array items => do
    let octets ← items.mapM fun item =>
      match item with
      | .int n => if 0 ≤ n ∧ n < 256 then some n.toNat.toUInt8 else none
      | _ => none
    return ⟨octets.toArray⟩
  | _ => none

/-- Encrypted data as an object with two members, or as an array of two items. -/
def EncryptedData.ofJson? : Json → Option EncryptedData
  | .object members => do
    let ciphertext ← octetsOfJson? (← Json.member? members "ciphertext")
    let iv ← octetsOfJson? (← Json.member? members "iv")
    return ⟨ciphertext, iv⟩
  | .array [ciphertext, iv] => do
    return ⟨← octetsOfJson? ciphertext, ← octetsOfJson? iv⟩
  | _ => none

/-- A failure that a cipher reports. -/
structure CipherError where
  keyAlias : String
  reason : String
  deriving DecidableEq, Repr

def CipherError.message (e : CipherError) : String :=
  "cipher '" ++ e.keyAlias ++ "' failed: " ++ e.reason

/-- The encryption that belongs to one store file. -/
structure Cipher where
  /-- The alias of the key. -/
  keyAlias : String
  encrypt : ByteArray → Except CipherError EncryptedData
  decrypt : EncryptedData → Except CipherError ByteArray

namespace Cipher

/-- Every octet with the same bits turned over. Applied twice, it gives the octets back. -/
def turnOver (octets : ByteArray) : ByteArray :=
  ⟨octets.data.map (· ^^^ 0x2A)⟩

theorem turnOver_turnOver (octets : ByteArray) : turnOver (turnOver octets) = octets := by
  have h : ∀ b : UInt8, b ^^^ 0x2A ^^^ 0x2A = b := by
    intro b
    rw [UInt8.xor_assoc]
    simp
  simp [turnOver, Function.comp_def, h]

/-- A cipher that turns bits over and takes the key alias for its initialisation vector. -/
def mask (keyAlias : String) : Cipher where
  keyAlias := keyAlias
  encrypt := fun plain => .ok ⟨turnOver plain, keyAlias.toUTF8⟩
  decrypt := fun data =>
    if data.iv = keyAlias.toUTF8 then .ok (turnOver data.ciphertext)
    else .error ⟨keyAlias, "iv mismatch"⟩

theorem decrypt_encrypt_mask (keyAlias : String) (plain : ByteArray) :
    ((mask keyAlias).encrypt plain).bind (mask keyAlias).decrypt = .ok plain := by
  simp [mask, Except.bind, turnOver_turnOver]

end Cipher

end SectionStore
