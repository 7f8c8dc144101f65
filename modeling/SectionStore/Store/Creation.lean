import SectionStore.Config
import SectionStore.StoreFile

/-!
# The files of a station

The store files that a configuration asks for, under a base directory.
-/

namespace SectionStore.Store

/-- The ciphers that files get: none unless credentials are encrypted. -/
def ciphersInUse (config : Config) (ciphers : Option (String → Cipher)) :
    Option (String → Cipher) :=
  if config.encryptCredentials then ciphers else none

/-- The shared file of the station. -/
def createShared (base : Path) (config : Config) (ciphers : Option (String → Cipher)) :
    EStateM FileError Disk StoreFile :=
  StoreFile.create base config.directory config.station.sharedFile config.table
    (ciphersInUse config ciphers)

/-- The given files, one after the other. -/
def createAll (base : Path) (config : Config) (ciphers : Option (String → Cipher)) :
    List FileId → EStateM FileError Disk (List StoreFile)
  | [] => return []
  | id :: rest => do
    let file ← StoreFile.create base config.directory id config.table (ciphersInUse config ciphers)
    return file :: (← createAll base config ciphers rest)

/-- The user files of the station, without those that are not in use. -/
def createUsers (base : Path) (config : Config) (ciphers : Option (String → Cipher)) :
    EStateM FileError Disk (List StoreFile) :=
  createAll base config ciphers (config.station.userFiles.filter config.table.contains)

end SectionStore.Store
