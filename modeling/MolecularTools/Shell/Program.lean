import MolecularTools.Files.Operations

/-! Programs that a small shell finds on every machine. -/
namespace MolecularTools.Shell

/-- What a program leaves when it ends. -/
structure Effect where
  status : Nat := 0
  output : ByteArray := .empty
  errors : ByteArray := .empty
  files : FileTree

namespace Effect

def ofOutput (files : FileTree) (text : String) : Effect := { output := text.toUTF8, files }

/-- Something went wrong with a file. -/
def complaint (files : FileTree) (program p : String) (e : IoError) : Effect :=
  let words := (e.numbered.map (·.2)).getD e.text
  { status := 1, errors := (program ++ ": " ++ p ++ ": " ++ words ++ "\n").toUTF8, files }

end Effect

/-- The value of up to `n` octal digits, and the text behind them. -/
def octal : Nat → Nat → List Char → Nat × List Char
  | 0, v, cs => (v, cs)
  | _ + 1, v, [] => (v, [])
  | n + 1, v, c :: cs =>
    if '0' ≤ c && c ≤ '7' then octal n (8 * v + (c.toNat - 48)) cs else (v, c :: cs)

/-- Reads a format of at most `fuel` characters with the arguments for its places. -/
def formatted : Nat → List String → List Char → ByteArray
  | 0, _, _ => .empty
  | _, _, [] => .empty
  | fuel + 1, args, '\\' :: c :: cs =>
    if '0' ≤ c && c ≤ '7' then
      let (v, cs) := octal 3 0 (c :: cs)
      ⟨#[v.toUInt8]⟩ ++ formatted fuel args cs
    else
      let text := match c with
        | 'n' => "\n"
        | 't' => "\t"
        | 'r' => "\r"
        | '\\' => "\\"
        | c => String.ofList ['\\', c]
      text.toUTF8 ++ formatted fuel args cs
  | fuel + 1, args, '%' :: '%' :: cs => "%".toUTF8 ++ formatted fuel args cs
  | fuel + 1, args, '%' :: 's' :: cs => (args.headD "").toUTF8 ++ formatted fuel args.tail cs
  | fuel + 1, args, c :: cs => (String.ofList [c]).toUTF8 ++ formatted fuel args cs

/-- Does something with each file of a directory until one fails. -/
def eachFile (program directory : String)
    (f : FileTree → String → Except IoError (ByteArray × FileTree)) (e : Effect) :
    List String → Effect
  | [] => e
  | p :: ps => match f e.files (Path.join directory p) with
    | .ok (bytes, files) =>
      eachFile program directory f { e with output := e.output ++ bytes, files } ps
    | .error error =>
      let c := Effect.complaint e.files program p error
      eachFile program directory f { e with status := c.status, errors := e.errors ++ c.errors } ps

def concatenate (t : FileTree) (p : String) : Except IoError (ByteArray × FileTree) := do
  .ok (← (← t.openToRead p).readAll, t)

def touch (t : FileTree) (p : String) : Except IoError (ByteArray × FileTree) := do
  let (_, t) ← t.openToWrite p
  .ok (.empty, t)

def makeOne (t : FileTree) (p : String) : Except IoError (ByteArray × FileTree) :=
  (t.makeDirectory p).map (.empty, ·)

def makeAll (t : FileTree) (p : String) : Except IoError (ByteArray × FileTree) :=
  match t.makeDirectories p with
  | (.ok (), t) => .ok (.empty, t)
  | (.error e, _) => .error e

/-- Runs a program by its name, if there is one. -/
def program? (name : String) (args : List String) (directory : String) (files : FileTree) :
    Option Effect :=
  let start : Effect := { files }
  match name, args with
  | "true", _ => some start
  | ":", _ => some start
  | "false", _ => some { start with status := 1 }
  | "echo", "-n" :: args => some (.ofOutput files (" ".intercalate args))
  | "echo", args => some (.ofOutput files (" ".intercalate args ++ "\n"))
  | "printf", format :: args =>
    some { start with output := formatted format.length args format.toList }
  | "pwd", _ => some (.ofOutput files (directory ++ "\n"))
  | "cat", args => some (eachFile name directory concatenate start args)
  | "touch", args => some (eachFile name directory touch start args)
  | "mkdir", "-p" :: args => some (eachFile name directory makeAll start args)
  | "mkdir", args => some (eachFile name directory makeOne start args)
  | _, _ => none

end MolecularTools.Shell
