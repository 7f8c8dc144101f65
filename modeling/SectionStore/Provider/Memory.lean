import SectionStore.Markup.Value
import SectionStore.Provider
import SectionStore.Text.Hex

/-!
# Providers in memory

A provider that holds one payload and remembers what was done to it, for trials and for embedding.
It can be told to fail, to seal its payload with the cipher of its file, and to accept typed values
only. `Memory` is the host of such providers, one for every name.
-/

namespace SectionStore

/-- A payload that a provider was handed, with the version of the document. -/
structure Delivery where
  data : Option ByteArray
  version : Option DataVersion
  deriving DecidableEq

/-- Which deliveries a planned failure concerns. -/
inductive Presence where
  | present
  | absent
  | any
  deriving DecidableEq, Repr

def Presence.covers (presence : Presence) (data : Option ByteArray) : Bool :=
  match presence with
  | .present => data.isSome
  | .absent => data.isNone
  | .any => true

/-- The failures that a provider is told to report. -/
structure FailurePlan where
  serialize : Option ProviderError
  deserialize : Option ProviderError
  concerns : Presence

def FailurePlan.none : FailurePlan :=
  ⟨.none, .none, .any⟩

/-- The failure planned for a delivery. -/
def FailurePlan.onDelivery? (plan : FailurePlan) (data : Option ByteArray) : Option ProviderError :=
  if plan.concerns.covers data then plan.deserialize else .none

/-- A provider that keeps one payload in memory. -/
structure MemoryProvider where
  payload : ByteArray
  /-- Has the payload been set since it was last serialized? -/
  dirty : Bool
  /-- All deliveries, the oldest first. -/
  deliveries : List Delivery
  resets : Nat
  serializes : Nat
  /-- Is the payload sealed by the cipher of the file, if it has one? -/
  sealing : Bool
  /-- Must an unsealed delivery consist of typed values? -/
  typed : Bool
  plan : FailurePlan

namespace MemoryProvider

/-- A provider without data. -/
def new (sealing typed : Bool) : MemoryProvider :=
  ⟨ByteArray.empty, false, [], 0, 0, sealing, typed, .none⟩

/-- Sets the payload. -/
def set (p : MemoryProvider) (payload : ByteArray) : MemoryProvider :=
  { p with payload, dirty := true }

/-- Drops the payload. -/
def reset (p : MemoryProvider) : MemoryProvider :=
  { p with payload := ByteArray.empty, dirty := false, resets := p.resets + 1 }

/-- The provider after it has handed out its payload. -/
def afterSerialize (p : MemoryProvider) : MemoryProvider :=
  { p with dirty := false, serializes := p.serializes + 1 }

/-- The provider after it has taken in a payload; nothing counts as an empty one. -/
def afterDelivery (p : MemoryProvider) (data : Option ByteArray) (version : Option DataVersion) :
    MemoryProvider :=
  { p with payload := data.getD ByteArray.empty, deliveries := p.deliveries ++ [⟨data, version⟩] }

/-- Sealed data as text: initialisation vector and ciphertext, divided by a point. -/
def sealedText (data : EncryptedData) : ByteArray :=
  Utf8.encode (Hex.encode data.iv ++ ['.'] ++ Hex.encode data.ciphertext)

/-- The sealed data that a text stands for. -/
def sealedData? (text : List Char) : Option EncryptedData := do
  let (iv, ciphertext) ← Cut.cutAtChar? '.' text
  return ⟨← Hex.decode ciphertext, ← Hex.decode iv⟩

/-- The payload as it is handed out. -/
def sealPayload (p : MemoryProvider) (cipher : Option Cipher) : Except ProviderError ByteArray :=
  match p.sealing, cipher with
  | true, some cipher => ((cipher.encrypt p.payload).map sealedText).mapError .cipher
  | _, _ => .ok p.payload

/-- A payload as it is taken in. -/
def openPayload (p : MemoryProvider) (cipher : Option Cipher) (data : ByteArray) :
    Except ProviderError ByteArray :=
  match p.sealing, cipher with
  | true, some cipher =>
    match Utf8.decode data with
    | .error fault => .error (.markup (.notText fault))
    | .ok text =>
      match sealedData? text with
      | none => .error (.malformed (String.ofList text))
      | some sealed => (cipher.decrypt sealed).mapError .cipher
  | _, _ =>
    if p.typed then
      match Utf8.decode data with
      | .error fault => .error (.markup (.notText fault))
      | .ok text => ((Markup.valuesOf text).map fun _ => data).mapError fun e => .markup (.markup e)
    else .ok data

/-- Hands out the payload. A planned failure comes before anything else. -/
def serialize (cipher : Option Cipher) : EStateM ProviderError MemoryProvider ByteArray := fun p =>
  match p.plan.serialize with
  | some e => .error e p
  | none =>
    match p.sealPayload cipher with
    | .error e => .error e p.afterSerialize
    | .ok payload => .ok payload p.afterSerialize

/-- Takes in a payload. A planned failure comes before anything else. -/
def deserialize (data : Option ByteArray) (version : Option DataVersion) (cipher : Option Cipher) :
    EStateM ProviderError MemoryProvider Unit := fun p =>
  match p.plan.onDelivery? data with
  | some e => .error e p
  | none =>
    match data.mapM (p.openPayload cipher) with
    | .error e => .error e p
    | .ok opened => .ok () (p.afterDelivery opened version)

end MemoryProvider

/-- The providers in memory, one for every name. -/
structure Memory where
  provider : String → MemoryProvider

namespace Memory

/-- Providers without data under every name. -/
def empty : Memory :=
  ⟨fun _ => MemoryProvider.new false false⟩

/-- The host with one provider replaced. -/
def put (m : Memory) (name : String) (p : MemoryProvider) : Memory :=
  ⟨fun other => if other = name then p else m.provider other⟩

/-- The host with one provider changed. -/
def update (m : Memory) (name : String) (f : MemoryProvider → MemoryProvider) : Memory :=
  m.put name (f (m.provider name))

/-- An operation of one provider as an operation of the host. -/
def within {α : Type} (name : String) (op : EStateM ProviderError MemoryProvider α) :
    EStateM ProviderError Memory α := fun m =>
  match op (m.provider name) with
  | .ok a p => .ok a (m.put name p)
  | .error e p => .error e (m.put name p)

instance : ProviderHost Memory where
  serialize name cipher := within name (MemoryProvider.serialize cipher)
  deserialize name data version cipher := within name (MemoryProvider.deserialize data version cipher)
  reset name m := m.update name MemoryProvider.reset
  hasNewData name m := (m.provider name).dirty

@[simp] theorem provider_put (m : Memory) (name other : String) (p : MemoryProvider) :
    (m.put name p).provider other = if other = name then p else m.provider other :=
  rfl

end Memory

end SectionStore
