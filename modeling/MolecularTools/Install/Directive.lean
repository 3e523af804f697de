import MolecularTools.Failure

/-! What an installation is asked to do. -/
namespace MolecularTools

inductive Directive where
  /-- Download a version and build it. -/
  | build
  /-- Use what is installed below a directory. -/
  | existing (root : String)
deriving DecidableEq, Repr

/-- Exactly one of the two has to be asked for. -/
def Directive.ofFlags (build : Bool) (root : Option String) : Except InstallError Directive :=
  match build, root with
  | true, none => .ok .build
  | false, some root => .ok (.existing root)
  | true, some _ => .error (.configuration "--build and --path are mutually exclusive")
  | false, none => .error (.configuration "either --build or --path must be given")

end MolecularTools
