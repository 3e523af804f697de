import MolecularTools.Config.Basic
import MolecularTools.Json.Decoder
import MolecularTools.Json.Printer

/-! Fields of a configuration: their names in a document, and how the value of each is read
and printed. -/
namespace MolecularTools

namespace ChecksumTable

/-- A checksum is a string in a document; the reason why one is refused is its fault. -/
def readChecksum (j : Json) : Except JsonFault Checksum := do
  match Checksum.parse (← j.text) with
  | .ok c => .ok c
  | .error e => .error (.shape e.text)

/-- Reads entries in their order, so the last of several for one version counts. -/
def readEntries (t : ChecksumTable) : List (String × Json) → Except JsonFault ChecksumTable
  | [] => .ok t
  | (version, j) :: rest => do readEntries (t.insert version (← readChecksum j)) rest

def ofJson : Json → Except JsonFault ChecksumTable
  | .object members ending => do Json.ended ending (← readEntries ∅ members)
  | j => j.unexpected "a map"

/-- A document that holds nothing but a table. -/
def ofDocument (d : JsonDocument) : Except JsonFault ChecksumTable := do
  Json.ended d.ending (← ofJson d.root)

def print (t : ChecksumTable) : List Char :=
  Json.printObject (t.toList.map fun e => (e.1, Json.printString e.2.text))

end ChecksumTable

namespace Config

inductive Field where
  | library | package | defaultVersion | urlTemplate | fallbackBase | checksums | configureArgs
  | makeProgram | prefixDir | includeLink | libLink | maxAttempts | jobs
deriving DecidableEq, Repr

namespace Field

/-- All fields in the order of a printed configuration. -/
def all : List Field :=
  [library, package, defaultVersion, urlTemplate, fallbackBase, checksums, configureArgs,
    makeProgram, prefixDir, includeLink, libLink, maxAttempts, jobs]

def name : Field → String
  | library => "library"
  | package => "package"
  | defaultVersion => "default_version"
  | urlTemplate => "url_template"
  | fallbackBase => "fallback_base_url"
  | checksums => "checksums"
  | configureArgs => "configure_args"
  | makeProgram => "make_program"
  | prefixDir => "prefix_dir"
  | includeLink => "include_link"
  | libLink => "lib_link"
  | maxAttempts => "max_attempts"
  | jobs => "jobs"

def ofName? (name : String) : Option Field := all.find? (·.name = name)

/-- The configuration with this field read from a document. -/
def read (c : Config) (j : Json) : Field → Except JsonFault Config
  | library => do return { c with library := ← j.text }
  | package => do return { c with package := ← j.text }
  | defaultVersion => do return { c with defaultVersion := ← j.text }
  | urlTemplate => do return { c with urlTemplate := ← j.text }
  | fallbackBase => do return { c with fallbackBase := ← j.text }
  | checksums => do return { c with checksums := ← ChecksumTable.ofJson j }
  | configureArgs => do return { c with configureArgs := ← j.texts }
  | makeProgram => do return { c with makeProgram := ← j.text }
  | prefixDir => do return { c with prefixDir := ← j.text }
  | includeLink => do return { c with includeLink := ← j.text }
  | libLink => do return { c with libLink := ← j.text }
  | maxAttempts => do return { c with maxAttempts := ← j.natural }
  | jobs => do return { c with jobs := ← j.naturalOrNull }

def print (c : Config) : Field → List Char
  | library => Json.printString c.library
  | package => Json.printString c.package
  | defaultVersion => Json.printString c.defaultVersion
  | urlTemplate => Json.printString c.urlTemplate
  | fallbackBase => Json.printString c.fallbackBase
  | checksums => c.checksums.print
  | configureArgs => Json.printArray (c.configureArgs.map Json.printString)
  | makeProgram => Json.printString c.makeProgram
  | prefixDir => Json.printString c.prefixDir
  | includeLink => Json.printString c.includeLink
  | libLink => Json.printString c.libLink
  | maxAttempts => Json.printNat c.maxAttempts
  | jobs => match c.jobs with
    | some n => Json.printNat n
    | none => ['n', 'u', 'l', 'l']

end Field

end Config

end MolecularTools
