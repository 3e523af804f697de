import MolecularTools.Cli.Exit
import MolecularTools.Install.Run

/-! The program `install-scafacos`: installs the library and sets the links to it. -/
namespace MolecularTools.Cli.InstallScafacos

/-- A path as a value; no path is empty. -/
def path (set : String → Install.Request → Install.Request) : Effect Install.Request :=
  .value fun v => if v = "" then none else some (set v)

def switches : List (Switch Install.Request) :=
  [⟨"build", some 'b', .flag fun r => { r with build := true }⟩,
    ⟨"path", some 'p', path fun p r => { r with path := some p }⟩,
    ⟨"version", some 'v', .value fun v => some fun r => { r with version := some v }⟩,
    ⟨"dir", some 'd', path fun p r => { r with workDir := some p }⟩,
    ⟨"config", some 'c', path fun p r => { r with config := some p }⟩,
    ⟨"help", some 'h', .answer⟩]

/-- Completes a request by the working directory that the environment names. -/
def complete (environment : Option String) (r : Install.Request) : Except Stop Install.Request :=
  if r.build && r.path.isSome then .error .usage
  else match r.workDir, environment with
    | none, some "" => .error .usage
    | none, some p => .ok { r with workDir := some p }
    | _, _ => .ok r

def request (environment : Option String) (args : List String) : Except Stop Install.Request := do
  complete environment (← read switches {} args).settings

def help : String :=
  "\nSyntax: install-scafacos -b\n" ++
  "    or: install-scafacos -p /usr/local/scafacos\n\n" ++
  "Example:\n\n" ++
  "install-scafacos -b                  " ++
  "# download/build in ./scafacos-<version>, install into ./build\n" ++
  "install-scafacos -p $HOME/scafacos   " ++
  "# use existing ScaFaCoS installation in $HOME\n"

variable {σ : Type}

/-- Answers a request; one that asks for nothing gets the help. -/
def run (t : Install.Tools σ) (r : Install.Request) : Task σ Unit := do
  if !r.build && r.path.isNone then
    t.host.say help
    .fail (.ofInstall (.configuration help))
  else
    let _ ← Install.serve t r

def main (t : Install.Tools σ) (environment : Option String) (args : List String) :
    Task σ Exit := do
  match request environment args with
  | .error .usage => return Exit.usage
  | .error .answered =>
    t.host.say help
    return ⟨0, ""⟩
  | .ok r => return Exit.ofOutcome (← (run t r).outcome)

end MolecularTools.Cli.InstallScafacos
