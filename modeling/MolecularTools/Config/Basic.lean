import MolecularTools.Checksum.Table
import MolecularTools.Links.Names

/-! Installer configuration: what is installed, where it comes from, and how it is built. The
addresses and file names of a version are computed from it. -/
namespace MolecularTools

structure Config where
  /-- The library's name in messages. -/
  library : String
  /-- Stem of archive and source directory. -/
  package : String
  defaultVersion : String
  /-- Address of the archive; the version is put in for each placeholder. -/
  urlTemplate : String
  /-- Where copies of all archives lie. -/
  fallbackBase : String
  checksums : ChecksumTable
  configureArgs : List String
  makeProgram : String
  /-- Installation directory below the working directory. -/
  prefixDir : String
  includeLink : String
  libLink : String
  /-- How many sources are tried at most. -/
  maxAttempts : Nat
  /-- Parallel build jobs, or as many as there are processors. -/
  jobs : Option Nat
deriving DecidableEq

inductive ConfigError where
  | noPlaceholder | noAttempts | emptyLink | equalLinks
deriving DecidableEq, Repr

def ConfigError.text : ConfigError → String
  | .noPlaceholder => "url_template must contain a \x7bversion\x7d placeholder"
  | .noAttempts => "max_attempts must be at least 1"
  | .emptyLink => "link names must not be empty"
  | .equalLinks => "include_link and lib_link must differ"

/-- Puts `version` in for each placeholder, from left to right; what was put in is not
looked at again. -/
def fillTemplate (version : List Char) : List Char → List Char
  | [] => []
  | '\x7b' :: 'v' :: 'e' :: 'r' :: 's' :: 'i' :: 'o' :: 'n' :: '\x7d' :: rest =>
    version ++ fillTemplate version rest
  | c :: rest => c :: fillTemplate version rest

def hasPlaceholder : List Char → Bool
  | [] => false
  | '\x7b' :: 'v' :: 'e' :: 'r' :: 's' :: 'i' :: 'o' :: 'n' :: '\x7d' :: _ => true
  | _ :: rest => hasPlaceholder rest

/-- What stands behind the last slash, or everything if there is none. -/
def lastSegment (cs : List Char) : List Char :=
  (cs.reverse.takeWhile (· ≠ '/')).reverse

namespace Config

/-- The configuration for ScaFaCoS. -/
def standard : Config where
  library := "ScaFaCoS"
  package := "scafacos"
  defaultVersion := "1.0.4"
  urlTemplate := "https://github.com/scafacos/scafacos/releases/download/v\x7bversion\x7d/" ++
    "scafacos-\x7bversion\x7d.tar.gz"
  fallbackBase := "https://download.lammps.org/thirdparty"
  checksums := ChecksumTable.ofList
    [("1.0.1", ⟨.md5, "bd46d74e3296bd8a444d731bb10c1738"⟩),
      ("1.0.4", ⟨.md5, "23867540ec32e63ce71d6ecc105278d2"⟩)]
  configureArgs := ["--disable-doc", "--enable-fcs-solvers=fmm,p2nfft,direct,ewald,p3m",
    "--with-internal-fftw", "--with-internal-pfft", "--with-internal-pnfft", "CC=mpicc",
    "FC=mpif90", "CXX=mpicxx", "F77="]
  makeProgram := "make"
  prefixDir := "build"
  includeLink := LinkNames.standard.headers
  libLink := LinkNames.standard.libraries
  maxAttempts := 2
  jobs := none

/-- Whether an installation can start from this configuration. -/
def validate (c : Config) : Except ConfigError Unit :=
  if !hasPlaceholder c.urlTemplate.toList then .error .noPlaceholder
  else if c.maxAttempts = 0 then .error .noAttempts
  else if c.includeLink = "" ∨ c.libLink = "" then .error .emptyLink
  else if c.includeLink = c.libLink then .error .equalLinks
  else .ok ()

def primaryUrl (c : Config) (version : String) : String :=
  String.ofList (fillTemplate version.toList c.urlTemplate.toList)

/-- The primary address's file name under the fallback base. -/
def fallbackUrl (c : Config) (version : String) : String :=
  let base := (c.fallbackBase.toList.reverse.dropWhile (· = '/')).reverse
  String.ofList (base ++ '/' :: lastSegment (c.primaryUrl version).toList)

def sourceDirName (c : Config) (version : String) : String := c.package ++ "-" ++ version

def archiveName (c : Config) (version : String) : String :=
  c.sourceDirName version ++ ".tar.gz"

def linkNames (c : Config) : LinkNames := ⟨c.includeLink, c.libLink⟩

end Config

end MolecularTools
