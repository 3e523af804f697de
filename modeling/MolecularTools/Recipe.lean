import MolecularTools.Files.Path
import MolecularTools.Host.Basic

/-! Build recipes: steps that are run one after the other in one directory. -/
namespace MolecularTools

structure BuildStep where
  name : String
  program : String
  args : List String
deriving DecidableEq, Repr

namespace BuildStep

/-- The step as it would be typed, nothing quoted. -/
def commandLine (s : BuildStep) : String := " ".intercalate (s.program :: s.args)

def command (s : BuildStep) (directory : String) : Command := ⟨s.program, s.args, directory⟩

end BuildStep

/-- Configures, builds with several jobs, and installs below a directory. -/
def autotoolsSteps (sourceDir installDir : String) (configureArgs : List String)
    (makeProgram : String) (jobs : Nat) : List BuildStep :=
  [{ name := "configure", program := Path.join sourceDir "configure",
     args := ("--prefix=" ++ installDir) :: configureArgs },
   { name := "make", program := makeProgram, args := ["-j" ++ toString (max jobs 1)] },
   { name := "make install", program := makeProgram, args := ["install"] }]

/-- Runs steps up to the first that fails. The transcript goes on from `before`. -/
def runSteps {σ : Type} (h : Host σ) (directory before : String) : List BuildStep → Task σ String
  | [] => pure before
  | step :: rest => do
    let result ← h.run (step.command directory)
    let transcript := before ++ result.output
    if result.success then runSteps h directory transcript rest
    else .fail (.ofInstall (.build step.name transcript))

/-- Runs all steps and returns what they wrote. -/
def runBuild {σ : Type} (h : Host σ) (steps : List BuildStep) (directory : String) :
    Task σ String :=
  runSteps h directory "" steps

end MolecularTools
