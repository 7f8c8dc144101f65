import SectionStore.Envelope.Parser
import SectionStore.Envelope.Writer
import SectionStore.Provider
import SectionStore.Registry

/-!
# Serving a file from its providers and its providers from a file

`Registry.serialize` builds the document of a file: a section for each of its providers, in the
order of registration, in the current version. `Registry.deserialize` goes the other way. It first
reads the whole document and checks that each section has an owner and none comes twice; only then
are hooks called, one for each provider of the file, as `Registry.plan` lists them. If a hook
fails, all providers of the file are reset.
-/

namespace SectionStore

/-- A call of the deserialize hook: the provider, and the section that the file has for it. -/
structure PlannedCall where
  name : String
  content : Option ByteArray
  deriving DecidableEq

namespace Registry

variable {W : Type} [ProviderHost W]

/-- The sections of the named providers. -/
def collect (cipher : Option Cipher) : List String → EStateM RegistryError W (List Section)
  | [] => return []
  | name :: rest => do
    let payload ← fun w =>
      match ProviderHost.serialize name cipher w with
      | .ok payload w' => .ok payload w'
      | .error e w' => .error (.provider name e) w'
    return ⟨name, payload⟩ :: (← collect cipher rest)

/-- The document of a file. -/
def serialize (registry : Registry) (file : FileId) (cipher : Option Cipher) :
    EStateM RegistryError W ByteArray := do
  let sections ← collect cipher (registry.namesOf file)
  match Envelope.encode ⟨.current, sections⟩ with
  | .ok document => return document
  | .error e => throw (.envelope file e)

/-- Drops what the named providers have in memory. -/
def resetNames (names : List String) (w : W) : W :=
  names.foldl (fun w name => ProviderHost.reset name w) w

/-- Drops what the providers of a file have in memory. -/
def reset (registry : Registry) (file : FileId) (w : W) : W :=
  resetNames (registry.namesOf file) w

/-- Does a provider of the file hold data that has not been serialized yet? -/
def hasNewData (registry : Registry) (file : FileId) (w : W) : Bool :=
  (registry.namesOf file).any fun name => ProviderHost.hasNewData name w

/-- Checks that each section has an owner and none comes a second time, in the order of the
sections; `seen` are the names before them. -/
def checkSections (file : FileId) (known : List String) (seen : List String) :
    List Section → Except RegistryError Unit
  | [] => .ok ()
  | s :: rest =>
    if s.name ∉ known then .error (.unknownSection file s.name known)
    else if s.name ∈ seen then .error (.duplicateSection file s.name)
    else checkSections file known (seen ++ [s.name]) rest

/-- The version and the sections of a document whose sections all have an owner. A section without
owner comes before any fault in the document behind it. -/
def parse (registry : Registry) (file : FileId) (document : ByteArray) :
    Except RegistryError Envelope := do
  let p ← (Envelope.Parser.ofBytes document).mapError (.envelope file)
  match Envelope.Parser.readHeader p with
  | .error e _ => throw (.envelope file e)
  | .ok version p' =>
    let (sections, fault) := p'.sections
    checkSections file (registry.namesOf file) [] sections
    match fault with
    | none => return ⟨version, sections⟩
    | some e => throw (.envelope file e)

/-- The provider of a file that has a section. -/
def owner? (registry : Registry) (file : FileId) (s : Section) : Option Registration :=
  registry.entries.find? fun r => r.file = file && r.name = s.name

/-- The hook calls for the sections of a file: their owners are called in the order of the file, then
the other providers of the file, without data. A section without owner calls nobody. -/
def plan (registry : Registry) (file : FileId) (sections : List Section) : List PlannedCall :=
  sections.filterMap (fun s => (registry.owner? file s).map fun r => ⟨r.name, some s.payload⟩) ++
    (registry.entries.filter fun r => r.file = file && r.name ∉ sections.map (·.name)).map
      fun r => ⟨r.name, none⟩

/-- Makes the calls one after the other. The first failure ends the round and resets all providers
of the file. -/
def deliver (registry : Registry) (file : FileId) (version : Option DataVersion)
    (cipher : Option Cipher) : List PlannedCall → EStateM RegistryError W Unit
  | [] => return ()
  | call :: rest => fun w =>
    match ProviderHost.deserialize call.name call.content version cipher w with
    | .ok () w' => deliver registry file version cipher rest w'
    | .error e w' => .error (.provider call.name e) (registry.reset file w')

/-- Hands the content of a file to its providers; without content they learn that there is none. -/
def deserialize (registry : Registry) (content : Option ByteArray) (file : FileId)
    (cipher : Option Cipher) : EStateM RegistryError W Unit :=
  match content with
  | none => registry.deliver file none cipher (registry.plan file [])
  | some document =>
    match registry.parse file document with
    | .error e => throw e
    | .ok envelope =>
      registry.deliver file (some envelope.version) cipher (registry.plan file envelope.sections)

end Registry

end SectionStore
