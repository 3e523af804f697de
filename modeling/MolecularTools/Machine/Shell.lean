import MolecularTools.Machine.Basic
import MolecularTools.Shell.Script
import MolecularTools.Text.Lossy

/-! A machine on which a small shell runs the programs. -/
namespace MolecularTools.Machine

/-- What a program leaves, as its caller sees it. -/
def commandEffect (code : Option Int) (output errors : ByteArray) (files : FileTree) :
    CommandEffect :=
  (.ok ⟨code, Text.lossy output ++ Text.lossy errors⟩, files)

def runScript (files : FileTree) (directory script : String) : CommandEffect :=
  match Shell.run { files, directory } script with
  | (.status n, s) => commandEffect (some n) s.output s.errors s.files
  | (.signal, s) => commandEffect none s.output s.errors s.files

/-- The script of a file that begins with the mark of one. -/
def script? (bytes : ByteArray) : Option String := do
  let text ← String.fromUTF8? bytes
  if "#!".toList.isPrefixOf text.toList then some text else none

/-- Runs the file at a path. -/
def runFile (files : FileTree) (directory p : String) : Except IoError CommandEffect := do
  match ← files.lookup p with
  | (_, .file f) =>
    if !isExecutable f.mode then throw .permission
    match script? f.bytes with
    | some script => return runScript files directory script
    | none => throw .execFormat
  | _ => throw .permission

/-- Runs a program by its name, or the file at a path. -/
def runProgram (files : FileTree) (directory : String) (c : Command) :
    Except IoError CommandEffect :=
  if c.program.toList.any (· = '/') then
    runFile files directory (Path.join directory c.program)
  else match c.program, c.args with
    | "sh", "-c" :: script :: _ => .ok (runScript files directory script)
    | "sh", p :: _ => do
      .ok (runScript files directory (← files.readText (Path.join directory p)))
    | name, args => match Shell.program? name args directory files with
      | some e => .ok (commandEffect (some e.status) e.output e.errors e.files)
      | none => .error .noEntry

/-- Runs a command in its directory. -/
def shell (c : Command) (files : FileTree) : CommandEffect :=
  let r : Except IoError CommandEffect := do
    match ← files.lookup c.directory with
    | (l, .directory _) => runProgram files (Path.absolute l) c
    | _ => .error .notDirectory
  match r with
  | .ok effect => effect
  | .error e =>
    (.error ((Failure.ofIo e).within
      ("Failed to run " ++ c.program ++ " in " ++ Text.quoted c.directory)), files)

end MolecularTools.Machine
