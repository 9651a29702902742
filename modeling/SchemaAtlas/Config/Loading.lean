import SchemaAtlas.Config.Validation
import SchemaAtlas.Files.Basic
import SchemaAtlas.Markup.Meaning
import SchemaAtlas.Report.Trace

/-!
# Loading a configuration

A configuration is read from the file that is asked for, or else from the one that a variable of the
environment names, or else from a file with a fixed name. If there is none of these, every setting
has its default. A configuration that is loaded reports what is in effect.
-/

namespace SchemaAtlas

/-- Why no configuration can be loaded from a file. -/
inductive LoadFailure where
  | missing (path : Path)
  | unreadable (problem : FileSystem.ReadProblem)
  | malformed
  | empty (path : Path)
  | invalid (path : Path) (problems : List ConfigProblem)
  deriving DecidableEq, Repr

/-- The report of a failure; that of a malformed text depends on its place and is left open. -/
def LoadFailure.message? : LoadFailure → Option Text
  | .missing path => some ("Config file not found: " ++ path.toText)
  | .unreadable problem => some problem.message
  | .malformed => none
  | .empty path => some ("Empty configuration file: " ++ path.toText)
  | .invalid path _ => some ("Invalid configuration in " ++ path.toText)

namespace Config

def variableName : Text := "DRIZZLE_ENTITIES_CONFIG"

/-- The file that is read when nothing else is asked for. -/
def defaultPath : Path := ⟨.relative, ["config", "drizzle-entities.yaml"]⟩

def ofText (path : Path) (t : Text) : Except LoadFailure Config :=
  match Markup.valueOfText? t with
  | none => .error .malformed
  | some value =>
    if value.isVoid then .error (.empty path)
    else match ofValue value with
      | .valid config => .ok config
      | .invalid problems => .error (.invalid path problems)

def ofFile (system : FileSystem) (path : Path) : Except LoadFailure Config :=
  if !system.contains path then .error (.missing path)
  else match system.readText path with
    | .error problem => .error (.unreadable problem)
    | .ok text => ofText path text

/-- The file that a configuration is read from, if there is one. -/
def chosenPath? (system : FileSystem) (asked fromVariable : Option Text) : Option Path :=
  match asked, fromVariable with
  | some (c :: rest), _ => some (.ofText (c :: rest))
  | _, some (c :: rest) => some (.ofText (c :: rest))
  | _, _ => if system.contains defaultPath then some defaultPath else none

def reportEffective (config : Config) : Trace Unit := do
  Trace.emit .configurationInEffect
  Trace.emit (.optionsInEffect config.options)
  Trace.emit (.dialectsInEffect config.declarations.dialectMarkers)
  Trace.emit (.junctionMarkersInEffect config.heuristics.junctionMarkers)

def load (system : FileSystem) (asked fromVariable : Option Text) :
    Trace (Except LoadFailure Config) := do
  let found ← match chosenPath? system asked fromVariable with
    | some path => pure (ofFile system path)
    | none => do
      Trace.emit (.defaultsInEffect variableName)
      pure (.ok {})
  match found with
  | .error failure => return .error failure
  | .ok config => do
    config.reportEffective
    return .ok config

end Config
end SchemaAtlas
