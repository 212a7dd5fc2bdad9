import RenderLoop.Settings.Validation
import RenderLoop.Data.Toml

/-!
# Settings files

The settings of a project are looked for in its directory and then in those
above. A settings file of this program wins over a section of a shared one in
the same directory; a shared file without the section is passed over.
-/

namespace RenderLoop

namespace Settings

/-- Reads a settings file. -/
def readFile (fs : FileSystem) (file : Path) :
    Except SettingsError (Table Value) :=
  match (fs.file? file).bind fun f => String.fromUTF8? f.bytes with
  | none => .error (.undecodable file)
  | some text =>
    match Toml.parse? text with
    | none => .error (.unparsable file)
    | some entries => .ok entries

/-- The section of this program in a shared settings file. -/
def section? (file : Path) (data : Table Value) :
    Except SettingsError (Option (Table Value)) :=
  match data.get? "tool" with
  | none => .ok none
  | some (.table tools) =>
    match Table.get? tools sectionName with
    | none => .ok none
    | some (.table entries) => .ok (some entries)
    | some _ => .error (.sectionNotTable file)
  | some _ => .error (.toolsNotTable file)

/-- The settings that come from a file, if they are valid. -/
def ofEntries (file : Path) (entries : Table Value) :
    Except SettingsError Settings := do
  return {
    root := file.parent
    entries := ← validate file.text entries
    source := some file }

/-- The settings in a directory. -/
def inDirectory? (fs : FileSystem) (directory : Path) :
    Except SettingsError (Option Settings) := do
  let own := directory.child fileName
  let shared := directory.child sharedFileName
  if ← (fs.isFile own).mapError .badPath then
    some <$> ofEntries own (← readFile fs own)
  else if ← (fs.isFile shared).mapError .badPath then
    match ← section? shared (← readFile fs shared) with
    | some entries => some <$> ofEntries shared entries
    | none => return none
  else return none

/-- The settings that hold for a path: those of the nearest directory that has
any. -/
def load (fs : FileSystem) (start : Path) : Except SettingsError Settings := do
  let start ← (fs.resolve start).mapError .badPath
  let here ← (fs.directoryOf start).mapError .badPath
  match ← here.andAbove.findSomeM? (inDirectory? fs) with
  | some s => return s
  | none => return { root := here }

end Settings

end RenderLoop
