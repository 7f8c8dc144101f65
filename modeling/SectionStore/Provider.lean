import SectionStore.Provider.Error

/-!
# Providers

A provider is a subsystem that owns one named section of persisted data. The store knows providers
by the names of their sections and never looks into their payloads. All that they keep and do is in
a *host*: a type of states with the four hooks that the store calls. A hook may change the state of
its host in any way, also when it fails; nothing is assumed about it.
-/

namespace SectionStore

/-- A type whose values hold the state of every provider of a store. -/
class ProviderHost (W : Type) where
  /-- Produces the payload of a section, for a file with the given cipher. -/
  serialize : String → Option Cipher → EStateM ProviderError W ByteArray
  /-- Takes in the payload of a section. There is none if the file has no such section, and no
  version if there is no file. -/
  deserialize :
    String → Option ByteArray → Option DataVersion → Option Cipher → EStateM ProviderError W Unit
  /-- Drops what a provider has in memory. -/
  reset : String → W → W
  /-- Does a provider hold data that has not been serialized yet? -/
  hasNewData : String → W → Bool

end SectionStore
