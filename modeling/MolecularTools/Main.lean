import MolecularTools.Archive.Extract
import MolecularTools.Cli.InstallScafacos
import MolecularTools.Cli.TabulateAngle
import MolecularTools.Http.Client
import MolecularTools.Machine.Shell
import MolecularTools.Machine.Unpack
import MolecularTools.Table.Calendar

/-! The command line. The paths that a program names are loaded into a machine, the program runs
there, and what it changed is stored. Links are the one thing that cannot be stored; they are
reported. -/
namespace MolecularTools.Main

/-- A machine with the places on disk that its entries came from. -/
structure Loaded where
  files : FileTree := {}
  places : List (Location × String) := []

/-- The number of the error that tells a directory. -/
def directoryError : UInt32 := 21

/-- What stands at a path on disk. -/
def look (p : String) : IO (Option Node) := do
  try
    return some (.file { bytes := ← IO.FS.readBinFile p })
  catch
    | .noFileOrDirectory .. => return none
    | .inappropriateType _ n _ =>
      return if n = directoryError then some (.directory directoryMode) else none
    | .permissionDenied .. => return some (.file { mode := 0 })
    | e => throw e

/-- Loads what stands at a path. -/
def load (d : Loaded) (p : String) : IO Loaded := do
  let l := Path.names p
  match ← look p with
  | none => return d
  | some n =>
    return ⟨if l.isEmpty then d.files else d.files.put l n, (l, p) :: d.places⟩

/-- Loads paths and all directories above them. -/
def loadAll (ps : List String) : IO Loaded :=
  (ps.flatMap fun p => (p :: Path.above p).reverse).foldlM load {}

/-- Where an entry belongs on disk: below the nearest place that was loaded. -/
def placeOf (d : Loaded) (l : Location) : String :=
  let near := d.places.filter fun e => e.1.isPrefixOf l
  match near.mergeSort fun a b => b.1.length ≤ a.1.length with
  | (k, p) :: _ => (l.drop k.length).foldl Path.join p
  | [] => "/".intercalate l

/-- Stores an entry that is new or was changed. -/
def store (d : Loaded) (l : Location) (n : Node) : IO Bool := do
  if d.files.node? l = some n then return true
  match n with
  | .directory _ =>
    IO.FS.createDirAll (placeOf d l)
    return true
  | .file f =>
    IO.FS.writeBinFile (placeOf d l) f.bytes
    return true
  | .link target =>
    IO.eprintln ("cannot store the link " ++ placeOf d l ++ " to " ++ target)
    return false

/-- Runs a program and returns its exit code. -/
def run (d : Loaded) (program : Task Machine Cli.Exit) : IO UInt32 := do
  let (r, m) := program { files := d.files }
  (← IO.getStdout).write m.output
  for w in m.warnings do IO.eprintln w
  let stored ← m.files.nodes.toList.mapM fun e => store d e.1 e.2
  match r with
  | .ok e =>
    IO.eprint e.errors
    return if stored.all id then e.code.toUInt32 else 1
  | .error f =>
    IO.eprint (Cli.report f)
    return 1

/-- The first number of a line that begins with a name, or of any line. -/
def counter? (name text : String) : Option Nat := do
  let line ← (Text.pieces '\n' text.toList).find? fun l => name.toList.isPrefixOf l
  Text.number? 10 ((line.drop name.length).takeWhile Char.isDigit)

/-- The present day, from the time of the system's start and the seconds since then. -/
def today : IO Date := do
  let start := counter? "btime " (← IO.FS.readFile "/proc/stat")
  let running := counter? "" (← IO.FS.readFile "/proc/uptime")
  return Date.ofSeconds (start.getD 0 + running.getD 0 : Nat)

def tabulateAngle (args : List String) : IO UInt32 := do
  let names := match Cli.read Cli.TabulateAngle.switches {} args with
    | .ok g => [g.settings.file]
    | .error _ => []
  let h := Machine.host { command := fun _ => Machine.shell }
  run (← loadAll names) (Cli.TabulateAngle.main h (← today).text args)

/-- The paths that a request makes the installer look at. -/
def looked (r : Install.Request) : List String :=
  let roots := r.path.toList
  r.config.toList ++ r.workDir.toList ++
    roots ++ roots.flatMap fun p => ["include", "lib64", "lib"].map (Path.join p)

def installScafacos (args : List String) : IO UInt32 := do
  let environment ← IO.getEnv "SCAFACOS_LIB_DIR"
  let names := match Cli.InstallScafacos.request environment args with
    | .ok r => looked r
    | .error _ => []
  let h := Machine.host { command := fun _ => Machine.shell }
  let tools : Install.Tools Machine :=
    ⟨h, Http.downloader Http.unreachable, Archive.extractor h Machine.unpack⟩
  run (← loadAll names) (Cli.InstallScafacos.main tools environment args)

end MolecularTools.Main

/-- The first argument names the program. -/
def main : List String → IO UInt32
  | "tabulate-angle" :: args => MolecularTools.Main.tabulateAngle args
  | "install-scafacos" :: args => MolecularTools.Main.installScafacos args
  | _ => do
    IO.eprintln "Usage: (tabulate-angle | install-scafacos) [OPTIONS]"
    return 2
