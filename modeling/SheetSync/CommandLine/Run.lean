import SheetSync.CommandLine.Help
import SheetSync.Simulation.Basic
/-!
Carrying out what the command line asks for, on a tree of files.
-/
namespace SheetSync.CommandLine

/-- What a run leaves: its exit code, what it printed, and the files. -/
structure Outcome where
  code : Nat
  output : String
  files : FileTree

/-- The settings of a simulation, from the file named if one is named. -/
def config (o : SimulateOptions) (files : FileTree) : Except SyncError Config :=
  match o.config with
  | some path => Config.ofFile files path
  | none => .ok {}

/-- The directory of a simulation that is given none, in a tree of its own. -/
def scratchDirectory : String := "scratch"

def scenario (o : SimulateOptions) (config : Config) : Scenario where
  seed := o.seed
  operations := o.operations
  directory := o.directory.getD scratchDirectory
  stopsAtViolation := o.stopsAtViolation
  config := config

def heading (o : SimulateOptions) : String :=
  s!"Running wbsync simulator...\nOperations: {o.operations}\nSeed: {o.seed}\n\n"

/-- Runs a simulation and prints its report. -/
def simulate (o : SimulateOptions) (files : FileTree) : Outcome :=
  match config o files with
  | .error _ => ⟨1, "", files⟩
  | .ok config =>
    let reachable := if o.directory.isSome then files else {}
    let left (reached : FileTree) : FileTree := if o.directory.isSome then reached else files
    let (started, reached) := (Simulation.start (scenario o config)).run reachable
    match started.toOption.bind Simulation.finish? with
    | none => ⟨1, heading o, left reached⟩
    | some m =>
      let code := if m.report.passed then 0 else 1
      ⟨code, heading o ++ m.report.text ++ "\n", left m.session.store.files⟩

/-- Prints the signature of a workbook with a path. -/
def signature (path : String) (files : FileTree) : Outcome :=
  let d : Descriptor := ⟨some path, none, []⟩
  match (Store.signature d ({} : TokenSource).token).perform { files } with
  | (.ok s, _) => ⟨0, s.text ++ "\n", files⟩
  | (.error _, _) => ⟨1, "", files⟩

namespace Command

def run (c : Command) (files : FileTree) : Outcome :=
  match c with
  | .overview => ⟨0, helpText .program ++ "\n", files⟩
  | .version => ⟨0, versionText, files⟩
  | .help topic => ⟨0, helpText topic, files⟩
  | .simulate options => CommandLine.simulate options files
  | .signature path => CommandLine.signature path files

end Command

/-- Runs the program on its arguments. -/
def run (args : List String) (files : FileTree) : Outcome :=
  match command? args with
  | some c => c.run files
  | none => ⟨2, "", files⟩

end SheetSync.CommandLine
