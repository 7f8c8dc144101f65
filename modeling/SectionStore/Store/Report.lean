import SectionStore.Store

/-!
# Reports on a store

`dump` is for people who operate a store, `report` for those who develop with it.
-/

namespace SectionStore.Store

variable {W A : Type}

private def shownFlag (b : Bool) : String :=
  if b then "true" else "false"

/-- The state of a store in lines. -/
def dump (s : Store W A) : String :=
  let file (f : StoreFile) :=
    "  " ++ f.id.name ++ ": " ++ f.path.text ++ " (credentials encrypted: " ++
      shownFlag f.cipher.isSome ++ ")\n"
  let provider (r : Registration) :=
    "  " ++ r.name ++ " -> " ++ r.file.name ++ " (" ++ (s.config.table.name? r.file).getD "?" ++ ")\n"
  "Dump of ConfigStore\n" ++
    "Station: " ++ s.config.station.name ++ "\n" ++
    "Verbose logging: " ++ shownFlag s.verbose ++ "\n" ++
    "Buffered write pending: " ++ shownFlag s.isWaiting ++ "\n" ++
    "Store files:\n" ++ String.join (s.files.map file) ++
    "Store data:\n" ++ String.join (s.registry.entries.map provider)

/-- The state report of a store. -/
def report (s : Store W A) : String :=
  let users := match s.users with
    | none => "None"
    | some files => "Some([" ++ ", ".intercalate (files.map (·.report)) ++ "])"
  let armed := match s.armed with
    | none => "None"
    | some id => "Some(AlarmHandle(" ++ toString id ++ "))"
  "ConfigStore \x7b sta_id: " ++ s.config.station.title ++ ", shared_store: " ++ s.shared.report ++
    ", user_stores: " ++ users ++ ", registry: " ++ s.registry.report ++
    ", pending_alarm: " ++ armed ++ " \x7d"

end SectionStore.Store
