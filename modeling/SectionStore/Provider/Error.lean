import SectionStore.Cipher
import SectionStore.Envelope.Error

/-!
# What a provider can report

The failures of the hooks of a provider.
-/

namespace SectionStore

/-- Why a hook of a provider failed. -/
inductive ProviderError where
  /-- The content of the section means nothing to the provider. -/
  | malformed (content : String)
  /-- The content of the section is no markup. -/
  | markup (error : Envelope.Error)
  /-- The cipher of the file failed. -/
  | cipher (error : CipherError)
  | other (reason : String)
  deriving DecidableEq, Repr

def ProviderError.message : ProviderError → String
  | .malformed content => "malformed data: " ++ content
  | .markup error => error.message
  | .cipher error => error.message
  | .other reason => reason

end SectionStore
