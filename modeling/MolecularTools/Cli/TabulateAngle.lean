import MolecularTools.Cli.Exit
import MolecularTools.Decimal.Parse
import MolecularTools.Table.File
import MolecularTools.Text.Number

/-! The program `tabulate-angle`: a harmonic angle written as a table. -/
namespace MolecularTools.Cli.TabulateAngle

structure Settings where
  sampling : Sampling := {}
  file : String := "-"
  units : Units := Units.standard
  label : String := "HARM"
  comment : String := Heading.standardComment
  k : Float := 50.0
  center : Float := 120.0

def switches : List (Switch Settings) :=
  [⟨"num-points", some 'n', .value fun v => (Text.number? 10 v.toList).map fun points s =>
      { s with sampling := { s.sampling with points } }⟩,
    ⟨"filename", some 'f', .value fun file => some fun s => { s with file }⟩,
    ⟨"diff-num", some 'd', .flag fun s =>
      { s with sampling := { s.sampling with numericForce := true } }⟩,
    ⟨"eshift", some 'e', .flag fun s =>
      { s with sampling := { s.sampling with shift := true } }⟩,
    ⟨"units", some 'u', .value fun v => (Units.ofName? v false).map fun units s =>
      { s with units }⟩,
    ⟨"label", some 'l', .value fun label => some fun s => { s with label }⟩,
    ⟨"comment", some 'c', .value fun comment => some fun s => { s with comment }⟩,
    ⟨"k", none, .value fun v => (Decimal.parse? v).map fun k s => { s with k }⟩,
    ⟨"theta0", none, .value fun v => (Decimal.parse? v).map fun center s => { s with center }⟩,
    ⟨"help", some 'h', .answer⟩,
    ⟨"version", some 'V', .answer⟩]

/-- The table that the settings ask for. -/
def table (s : Settings) : Except TableError (AngleTable Float) :=
  s.sampling.tabulate differenceStep (Potential.harmonicAngle s.k s.center) s.label s.units

variable {σ : Type}

/-- Computes the table and writes it. Without a table no file is touched. -/
def run (h : Host σ) (today : List Char) (s : Settings) : Task σ Unit := do
  match table s with
  | .error e => .fail (.ofMessage e.text)
  | .ok t =>
    let out ← openTableFile h s.file
    t.write { date := today, comment := s.comment } out

def help : String := "Usage: tabulate-angle [OPTIONS]"

def main (h : Host σ) (today : List Char) (args : List String) : Task σ Exit := do
  match read switches {} args with
  | .error .usage => return Exit.usage
  | .error .answered =>
    h.say help
    return ⟨0, ""⟩
  | .ok g => return Exit.ofOutcome (← (run h today g.settings).outcome)

end MolecularTools.Cli.TabulateAngle
