/-
Where settings are kept, and loading them from there.

A path that is asked for has to lead to a file.  Where none is asked for, settings
are kept at a place of their own, and a desk without a file there has the default
settings.
-/
import JobGate.Settings.Reader

namespace JobGate
namespace Settings

/-- What the environment says about the place of settings. -/
structure Environment where
  /-- A path that takes the place of the usual one, unless it is empty. -/
  path : Option String := none
  home : Option String := none
deriving DecidableEq, Repr

def joinPath (base name : String) : String :=
  if base.isEmpty || base.toList.getLast? = some '/' then base ++ name else base ++ "/" ++ name

/-- The usual path; there is none without a home directory. -/
def usualPath? (e : Environment) : Option String :=
  match e.path.filter (!·.isEmpty) with
  | some path => some path
  | none => e.home.map fun home => joinPath (joinPath home ".runbridge") "config.yaml"

/-- What is found at a path. -/
inductive Found
  | nothing
  | unreadable
  | text (content : String)
deriving DecidableEq, Repr

/-- Why settings could not be loaded. -/
inductive LoadFault
  | noHome
  | unreadable (path : String)
  | notSettings (path : String)
  | unusable (fault : SettingsFault)
deriving DecidableEq, Repr

/-- The wording of a fault, as far as it does not come from the reader of
files. -/
def LoadFault.message : LoadFault → String
  | noHome => "failed to resolve home directory for global config path"
  | unreadable path => "failed to read file " ++ path
  | notSettings path => "invalid yaml in " ++ path
  | unusable fault => "settings validation failed: " ++ fault.message

def checked (s : Settings) : Except LoadFault Settings :=
  match s.fault? with
  | some fault => .error (.unusable fault)
  | none => .ok s

/-- Settings in a file, whether they can be used or not. -/
def ofFile (path : String) : Found → Except LoadFault Settings
  | .nothing | .unreadable => .error (.unreadable path)
  | .text content =>
    match parse? content with
    | some s => .ok s
    | none => .error (.notSettings path)

/-- Loads settings from a path that is asked for, or else from the usual place. -/
def load (e : Environment) (asked : Option String) (find : String → Found) :
    Except LoadFault Settings :=
  match asked with
  | some path => (ofFile path (find path)).bind checked
  | none =>
    match usualPath? e with
    | none => .error .noHome
    | some path =>
      match find path with
      | .nothing => checked {}
      | found => (ofFile path found).bind checked

end Settings
end JobGate
