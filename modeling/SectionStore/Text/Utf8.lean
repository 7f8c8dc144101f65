/-!
# Octets as text

`Utf8.decode` reads octets as a list of characters, or says where they stop being UTF-8. The
reading itself is core's `String.fromUTF8?`; `firstFault` only looks for the place of the error,
one octet at a time: `pending` holds the ranges that the octets still owed to the sequence begun
at `start` must lie in. A fault is the longest run of octets that could have begun a character
(`Fault.invalid`), or a character cut off by the end of the input (`Fault.incomplete`).
-/

namespace SectionStore

/-- Octets are compared as they are, also where a library brings a comparison of its own. -/
instance (priority := high) octetsDecidableEq : DecidableEq ByteArray :=
  ByteArray.decEq

end SectionStore

namespace SectionStore.Utf8

/-- Why octets are not UTF-8. -/
inductive Fault where
  /-- The `size` octets from `index` on begin no character together with what follows them. -/
  | invalid (size index : Nat)
  /-- The input ends inside the character that begins at `index`. -/
  | incomplete (index : Nat)
  deriving DecidableEq, Repr

/-- The text of a fault. -/
def Fault.message : Fault → String
  | .invalid size index => s!"invalid utf-8 sequence of {size} bytes from index {index}"
  | .incomplete index => s!"incomplete utf-8 byte sequence from index {index}"

/-- The range of an octet that continues a character without further restriction. -/
def tail : UInt8 × UInt8 := (0x80, 0xBF)

/-- The ranges that the octets after `lead` must lie in, `none` where `lead` begins no character. -/
def owed (lead : UInt8) : Option (List (UInt8 × UInt8)) :=
  if lead < 0x80 then some []
  else if lead < 0xC2 then none
  else if lead < 0xE0 then some [tail]
  else if lead = 0xE0 then some [(0xA0, 0xBF), tail]
  else if lead = 0xED then some [(0x80, 0x9F), tail]
  else if lead < 0xF0 then some [tail, tail]
  else if lead = 0xF0 then some [(0x90, 0xBF), tail, tail]
  else if lead < 0xF4 then some [tail, tail, tail]
  else if lead = 0xF4 then some [(0x80, 0x8F), tail, tail]
  else none

/-- The first fault of the octets that follow a sequence begun at `start`, of which `size` octets
are read and `pending` are owed. -/
def firstFault : List (UInt8 × UInt8) → Nat → Nat → List UInt8 → Option Fault
  | [], _, _, [] => none
  | _ :: _, start, _, [] => some (.incomplete start)
  | [], start, size, lead :: rest =>
    match owed lead with
    | none => some (.invalid 1 (start + size))
    | some pending => firstFault pending (start + size) 1 rest
  | range :: pending, start, size, octet :: rest =>
    if range.1 ≤ octet ∧ octet ≤ range.2 then firstFault pending start (size + 1) rest
    else some (.invalid size start)

/-- The first fault of octets that are not UTF-8. -/
def fault (octets : ByteArray) : Fault :=
  (firstFault [] 0 0 octets.toList).getD (.incomplete octets.size)

/-- The characters that the octets spell. -/
def decode (octets : ByteArray) : Except Fault (List Char) :=
  match String.fromUTF8? octets with
  | some text => .ok text.toList
  | none => .error (fault octets)

/-- The octets that spell the characters. -/
def encode (text : List Char) : ByteArray :=
  (String.ofList text).toUTF8

/-- The number of octets that spell the characters. -/
def size : List Char → Nat
  | [] => 0
  | c :: text => c.utf8Size + size text

@[simp] theorem size_nil : size [] = 0 := rfl

@[simp] theorem size_cons (c : Char) (text : List Char) :
    size (c :: text) = c.utf8Size + size text := rfl

@[simp] theorem size_append (text more : List Char) : size (text ++ more) = size text + size more := by
  induction text with
  | nil => simp
  | cons c text ih => rw [List.cons_append, size_cons, size_cons, ih, Nat.add_assoc]

theorem encode_append (text more : List Char) : encode (text ++ more) = encode text ++ encode more := by
  simp [encode]

theorem decode_encode (text : List Char) : decode (encode text) = .ok text := by
  have h : String.fromUTF8? (encode text) = some (String.ofList text) := by
    have hv : (encode text).IsValidUTF8 := (String.ofList text).isValidUTF8
    unfold String.fromUTF8?
    rw [dif_pos hv]
    rfl
  simp [decode, h]

theorem eq_encode_of_decode {octets : ByteArray} {text : List Char} (h : decode octets = .ok text) :
    octets = encode text := by
  unfold decode at h
  split at h
  · rename_i s hs
    obtain rfl : s.toList = text := by simpa using h
    unfold String.fromUTF8? at hs
    split at hs
    · rw [← Option.some.inj hs, encode, String.ofList_toList]
      rfl
    · cases hs
  · cases h

theorem decode_eq_ok_iff {octets : ByteArray} {text : List Char} :
    decode octets = .ok text ↔ octets = encode text :=
  ⟨eq_encode_of_decode, fun h => h ▸ decode_encode text⟩

end SectionStore.Utf8
