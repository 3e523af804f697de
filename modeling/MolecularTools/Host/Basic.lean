import MolecularTools.Stream
import MolecularTools.Writer

/-! What the programs of this library need from the machine they run on. Every operation is a
task on the machine's state, so a program can be run on any machine that can be described, and
what holds for all of them can be said. -/
namespace MolecularTools

/-- A program to run, its arguments, and the directory to run it in. -/
structure Command where
  program : String
  args : List String
  directory : String
deriving DecidableEq, Repr

/-- How a program ended. -/
structure CommandResult where
  /-- The exit code; none if a signal ended the program. -/
  code : Option Int
  /-- What it wrote, errors last. -/
  output : String
deriving DecidableEq, Repr

def CommandResult.success (r : CommandResult) : Bool := r.code = some 0

structure Host (σ : Type) where
  currentDirectory : Task σ String
  processors : σ → Nat
  pathExists : String → σ → Bool
  isDirectory : String → σ → Bool
  isFile : String → σ → Bool
  isLink : String → σ → Bool
  canonical : String → Task σ String
  readText : String → Task σ String
  openFile : String → Task σ Stream
  /-- Makes a file or empties the one that is there. -/
  createFile : String → Task σ (Writer σ)
  /-- Writes behind what a file holds; makes the file if there is none. -/
  appendFile : String → Task σ (Writer σ)
  /-- Makes a directory and all above it. -/
  makeDirectories : String → Task σ Unit
  removeFile : String → Task σ Unit
  /-- Removes a directory and everything below it. -/
  removeTree : String → Task σ Unit
  removeLink : String → Task σ Unit
  /-- Makes a link to the first path at the second. -/
  makeLink : String → String → Task σ Unit
  run : Command → Task σ CommandResult
  warn : String → Task σ Unit
  output : Writer σ

/-- Writes a line to the output. -/
def Host.say {σ : Type} (h : Host σ) (text : String) : Task σ Unit :=
  h.output.write (text ++ "\n").toUTF8

/-- Delivers what an address stands for to a writer and tells how many bytes it was. -/
abbrev Downloader (σ : Type) := String → Writer σ → Task σ Nat

/-- Reads archives. -/
structure Extractor (σ : Type) where
  isArchive : String → Task σ Bool
  /-- Puts the content of the first path below the second. -/
  extract : String → String → Task σ Unit

variable {τ σ α : Type}

/-- The task on the second part of a state. -/
def Task.below (t : Task σ α) : Task (τ × σ) α := fun s =>
  let (r, inner) := t s.2
  (r, (s.1, inner))

def Writer.below (w : Writer σ) : Writer (τ × σ) where
  write bytes := (w.write bytes).below
  flush := w.flush.below

/-- The same host with more in its state. -/
def Host.below (h : Host σ) : Host (τ × σ) where
  currentDirectory := h.currentDirectory.below
  processors s := h.processors s.2
  pathExists p s := h.pathExists p s.2
  isDirectory p s := h.isDirectory p s.2
  isFile p s := h.isFile p s.2
  isLink p s := h.isLink p s.2
  canonical p := (h.canonical p).below
  readText p := (h.readText p).below
  openFile p := (h.openFile p).below
  createFile p := Writer.below <$> (h.createFile p).below
  appendFile p := Writer.below <$> (h.appendFile p).below
  makeDirectories p := (h.makeDirectories p).below
  removeFile p := (h.removeFile p).below
  removeTree p := (h.removeTree p).below
  removeLink p := (h.removeLink p).below
  makeLink target p := (h.makeLink target p).below
  run c := (h.run c).below
  warn text := (h.warn text).below
  output := h.output.below

end MolecularTools
