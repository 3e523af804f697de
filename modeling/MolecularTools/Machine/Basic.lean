import MolecularTools.Files.Operations
import MolecularTools.Host.Basic
import MolecularTools.Text.Quoted

/-! A machine: its files, and what the programs that ran on it wrote. What other programs do is
given from outside, as functions of what they can see. -/
namespace MolecularTools

structure Machine where
  files : FileTree := {}
  /-- How many programs were run. -/
  commandsRun : Nat := 0
  /-- The addresses that were asked for, in order. -/
  requests : List String := []
  warnings : List String := []
  output : ByteArray := .empty

/-- How a program ends, with the files it leaves. -/
abbrev CommandEffect := Except Failure CommandResult × FileTree

/-- What a machine cannot know by itself. -/
structure Surroundings where
  processors : Nat := 4
  /-- What a program does; the number counts the programs run before it. -/
  command : Nat → Command → FileTree → CommandEffect

namespace Machine

variable {α : Type}

/-- An operation that succeeds as a whole or changes nothing. -/
def atOnce (f : FileTree → Except IoError (α × FileTree)) : Task Machine α := fun m =>
  match f m.files with
  | .ok (a, files) => (.ok a, { m with files })
  | .error e => (.error (.ofIo e), m)

/-- An operation that changes no files. -/
def reading (f : FileTree → Except IoError α) : Task Machine α :=
  atOnce fun t => (f t).map (·, t)

/-- An operation that only changes files. -/
def changing (f : FileTree → Except IoError FileTree) : Task Machine Unit :=
  atOnce fun t => (f t).map ((), ·)

/-- An operation that can fail halfway. -/
def stepwise (f : FileTree → Except IoError α × FileTree) : Task Machine α := fun m =>
  match f m.files with
  | (.ok a, files) => (.ok a, { m with files })
  | (.error e, files) => (.error (.ofIo e), { m with files })

def fileWriter (l : Location) : Writer Machine where
  write bytes := .act fun m => { m with files := m.files.append l bytes }
  flush := pure ()

def outputWriter : Writer Machine where
  write bytes := .act fun m => { m with output := m.output ++ bytes }
  flush := pure ()

def run (w : Surroundings) (c : Command) : Task Machine CommandResult := fun m =>
  let (r, files) := w.command m.commandsRun c m.files
  (r, { m with files, commandsRun := m.commandsRun + 1 })

/-- The machine as the host of a program. Its root is the current directory of every program, so
a relative path means what it means from there. -/
def host (w : Surroundings) : Host Machine where
  currentDirectory := pure "/"
  processors _ := w.processors
  pathExists p m := m.files.pathExists p
  isDirectory p m := m.files.isDirectory p
  isFile p m := m.files.isFile p
  isLink p m := m.files.isLink p
  canonical p := (reading (·.canonical p)).within ("Failed to canonicalize " ++ Text.quoted p)
  readText p := (reading (·.readText p)).within "Failed to read file to string"
  openFile p := (reading (·.openToRead p)).within "Failed to open file"
  createFile p := fileWriter <$> (atOnce (·.createFile p)).within "Failed to create file"
  appendFile p := fileWriter <$> atOnce (·.openToWrite p)
  makeDirectories p := (stepwise (·.makeDirectories p)).within "Failed to create directory"
  removeFile p := (changing (·.removeFile p)).within "Failed to remove file"
  removeTree p :=
    (stepwise (·.removeTree p)).within "Failed to remove directory and its contents"
  removeLink p := (changing (·.removeFile p)).within "Failed to remove symlink"
  makeLink target p := (changing (·.makeLink target p)).within "Failed to create symlink"
  run c := run w c
  warn text := .act fun m => { m with warnings := m.warnings ++ [text] }
  output := outputWriter

end Machine

end MolecularTools
