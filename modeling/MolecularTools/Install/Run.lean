import MolecularTools.Config.Load
import MolecularTools.Install.Directive
import MolecularTools.Install.Stages

/-! Installations from a request to the two links. -/
namespace MolecularTools.Install

variable {σ : Type}

/-- Carries out a directive and leaves the two links in the working directory. -/
def run (t : Tools σ) (c : Config) (d : Directive) (version workDir : String) :
    Task σ LinkTargets := do
  let targets ← match d with
    | .existing root => resolveExisting t.host c root
    | .build => do
      let p := InstallPaths.ofVersion c workDir version
      fetch t c p version
      unpack t c p
      build t.host c p
  t.host.say ("Creating links to " ++ c.library ++ " include and lib files")
  relink t.host workDir c.linkNames targets
  return targets

/-- What was asked for on a command line. -/
structure Request where
  build : Bool := false
  path : Option String := none
  version : Option String := none
  workDir : Option String := none
  config : Option String := none
deriving DecidableEq, Repr

/-- The working directory of a request, made if it is not there. -/
def workDirectory (h : Host σ) : Option String → Task σ String
  | some p => do
    h.makeDirectories p
    h.canonical p
  | none => h.currentDirectory

/-- Answers a request. Flags and configuration are judged before anything is changed. -/
def serve (t : Tools σ) (r : Request) : Task σ LinkTargets := do
  match Directive.ofFlags r.build r.path with
  | .error e => .fail (.ofInstall e)
  | .ok d =>
    let c ← match r.config with
      | some p => Config.load t.host p
      | none => pure Config.standard
    let workDir ← workDirectory t.host r.workDir
    run t c d (r.version.getD c.defaultVersion) workDir

end MolecularTools.Install
