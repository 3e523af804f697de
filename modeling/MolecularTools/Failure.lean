/-! Failures. A failure has a cause and the contexts it passed through on its way up; its
texts are read from the outermost context down to the cause. -/
namespace MolecularTools

/-- Input and output errors: those a POSIX system numbers, and the few it does not. -/
inductive IoError where
  | notPermitted | noEntry | io | execFormat | permission | busy | alreadyExists | notDirectory
  | isDirectory | invalid | noSpace | nameTooLong | notEmpty | linkLoop | unreachable
  /-- A file that should hold text does not. -/
  | notText
  /-- A name holds the character that ends names. -/
  | nulInName
  /-- Data that its format does not allow. -/
  | malformed (detail : String)
deriving DecidableEq, Repr

namespace IoError

/-- Number and wording of the numbered errors. -/
def numbered : IoError → Option (Nat × String)
  | .notPermitted => some (1, "Operation not permitted")
  | .noEntry => some (2, "No such file or directory")
  | .io => some (5, "Input/output error")
  | .execFormat => some (8, "Exec format error")
  | .permission => some (13, "Permission denied")
  | .busy => some (16, "Device or resource busy")
  | .alreadyExists => some (17, "File exists")
  | .notDirectory => some (20, "Not a directory")
  | .isDirectory => some (21, "Is a directory")
  | .invalid => some (22, "Invalid argument")
  | .noSpace => some (28, "No space left on device")
  | .nameTooLong => some (36, "File name too long")
  | .notEmpty => some (39, "Directory not empty")
  | .linkLoop => some (40, "Too many levels of symbolic links")
  | .unreachable => some (101, "Network is unreachable")
  | _ => none

def text (e : IoError) : String :=
  match e.numbered with
  | some (n, words) => words ++ " (os error " ++ toString n ++ ")"
  | none => match e with
    | .notText => "stream did not contain valid UTF-8"
    | .nulInName => "file name contained an unexpected NUL byte"
    | .malformed detail => detail
    | _ => ""

end IoError

/-- Why a text is not the JSON document that was asked for. -/
inductive JsonFault where
  /-- The text breaks the grammar. -/
  | grammar
  /-- The text ends too early. -/
  | ended
  /-- The document is not of the wanted shape. -/
  | shape (message : String)
deriving DecidableEq, Repr

def JsonFault.text : JsonFault → String
  | .grammar => "invalid JSON"
  | .ended => "unexpected end of JSON"
  | .shape message => message

/-- What stops an installation. -/
inductive InstallError where
  /-- The request or a setting is unusable. -/
  | configuration (message : String)
  /-- An existing installation lacks a part. -/
  | path (what root : String)
  /-- No source could be downloaded. -/
  | network (message : String)
  /-- No source had the expected checksum. -/
  | integrity (library version : String)
  /-- The downloaded file is no archive. -/
  | archive (file : String)
  /-- A build step failed. -/
  | build (step output : String)
deriving DecidableEq, Repr

def InstallError.text : InstallError → String
  | .configuration message => message
  | .path what root => what ++ " path for " ++ root ++ " does not exist"
  | .network message => "Download failed: " ++ message
  | .integrity library version =>
    "Checksum for " ++ library ++ " library version " ++ version ++
      " does not match for fallback, too."
  | .archive file => "File " ++ file ++ " is not a supported archive"
  | .build step output => "Make failed in step '" ++ step ++ "' with:\n " ++ output

/-- Classes of HTTP answers that are not a success. -/
inductive StatusError where
  | notFound (url : String)
  | forbidden (url : String)
  | rateLimited (url : String)
  | client (code : Nat) (url : String)
  | server (code : Nat) (url : String)
deriving DecidableEq, Repr

def StatusError.text : StatusError → String
  | .notFound url => "Not found: " ++ url
  | .forbidden url => "Access forbidden: " ++ url
  | .rateLimited url => "Too many requests: " ++ url ++ ". Try again later."
  | .client code url => "Request error: HTTP " ++ toString code ++ " for " ++ url
  | .server code url => "Server error: HTTP " ++ toString code ++ " for " ++ url

inductive Cause where
  | install (e : InstallError)
  | status (e : StatusError)
  | io (e : IoError)
  | json (e : JsonFault)
  /-- A request got no answer, or its answer broke off. -/
  | transfer (detail : String)
  | message (text : String)
deriving DecidableEq, Repr

def Cause.text : Cause → String
  | .install e => e.text
  | .status e => e.text
  | .io e => e.text
  | .json e => e.text
  | .transfer detail => detail
  | .message text => text

/-- A cause under its contexts, outermost first. -/
structure Failure where
  contexts : List String := []
  cause : Cause
deriving DecidableEq, Repr

namespace Failure

def ofMessage (text : String) : Failure := { cause := .message text }

def ofIo (e : IoError) : Failure := { cause := .io e }

def ofInstall (e : InstallError) : Failure := { cause := .install e }

/-- The failure seen from one level further out. -/
def within (f : Failure) (context : String) : Failure :=
  { f with contexts := context :: f.contexts }

/-- Contexts and cause, outermost first. -/
def texts (f : Failure) : List String := f.contexts ++ [f.cause.text]

/-- All texts in one line. -/
def chain (f : Failure) : String := ": ".intercalate f.texts

end Failure

end MolecularTools
