import MolecularTools.Task

/-! Falling back on other sources: an operation is tried on one source after the other until it
succeeds. No source is tried twice. -/
namespace MolecularTools

structure Fallback where
  sources : List String
  maxAttempts : Nat := 2
deriving DecidableEq, Repr

namespace Fallback

/-- The sources that are tried, in order. -/
def tried (f : Fallback) : List String := f.sources.take f.maxAttempts

def warning (operation source next : String) (e : Failure) : String :=
  operation ++ ": " ++ source ++ " failed (" ++ e.chain ++ "). Trying fallback URL " ++ next

variable {σ α : Type}

/-- Tries each source until one succeeds, and warns where a failed one has a successor. -/
def tryEach (warn : String → Task σ Unit) (operation : String) (attempt : String → Task σ α) :
    List String → Task σ α
  | [] => .fail (.ofMessage (operation ++ ": no sources to try"))
  | [source] => attempt source
  | source :: next :: rest => do
    match ← (attempt source).outcome with
    | .ok a => return a
    | .error e =>
      warn (warning operation source next e)
      tryEach warn operation attempt (next :: rest)

/-- The first success, or else the failure of the last source. -/
def run (f : Fallback) (warn : String → Task σ Unit) (operation : String)
    (attempt : String → Task σ α) : Task σ α :=
  tryEach warn operation attempt f.tried

end Fallback

end MolecularTools
