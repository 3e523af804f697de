import MolecularTools.Shell.Program
import MolecularTools.Shell.Token
import MolecularTools.Text.Number

/-! Scripts of a small shell: commands one after the other, some of them only after the success
or the failure of the one before. -/
namespace MolecularTools.Shell

/-- When a command is run. -/
inductive Condition where
  | always | success | failure
deriving DecidableEq, Repr

/-- Where bytes go. -/
inductive Target where
  | output | errors
  | file (p : String) (append : Bool)
deriving DecidableEq, Repr

structure Simple where
  condition : Condition := .always
  words : List String := []
  output : Target := .output
  errors : Target := .errors
deriving DecidableEq, Repr

/-- Reads commands; `c` is the one that is being read. -/
def commands (c : Simple) : List Token → Option (List Simple)
  | [] => some [c]
  | .word cs :: ts => commands { c with words := c.words ++ [String.ofList cs] } ts
  | .next :: ts => (commands {} ts).map (c :: ·)
  | .onSuccess :: ts => (commands { condition := .success } ts).map (c :: ·)
  | .onFailure :: ts => (commands { condition := .failure } ts).map (c :: ·)
  | .copy 1 2 :: ts => commands { c with output := c.errors } ts
  | .copy 2 1 :: ts => commands { c with errors := c.output } ts
  | .copy _ _ :: _ => none
  | .into append :: .word cs :: ts =>
    commands { c with output := .file (String.ofList cs) append } ts
  | .into _ :: _ => none

structure State where
  files : FileTree
  directory : String
  status : Nat := 0
  output : ByteArray := .empty
  errors : ByteArray := .empty

/-- How a script ended: with a status, or by a signal. -/
inductive Ending where
  | status (n : Nat)
  | signal
deriving DecidableEq, Repr

namespace State

def send (s : State) (bytes : ByteArray) : Target → State
  | .output => { s with output := s.output ++ bytes }
  | .errors => { s with errors := s.errors ++ bytes }
  | .file p append =>
    let p := Path.join s.directory p
    match if append then s.files.openToWrite p else s.files.createFile p with
    | .ok (l, files) => { s with files := files.append l bytes }
    | .error e =>
      { s with
        status := 2
        errors := s.errors ++ ("sh: 1: cannot create " ++ p ++ ": " ++ e.text ++ "\n").toUTF8 }

/-- Takes over what a program left. -/
def after (s : State) (c : Simple) (e : Effect) : State :=
  ({ s with files := e.files, status := e.status }.send e.errors c.errors).send e.output c.output

def notFound (s : State) (c : Simple) (name : String) : State :=
  { s with status := 127 }.send ("sh: 1: " ++ name ++ ": not found\n").toUTF8 c.errors

end State

def due (s : State) : Condition → Bool
  | .always => true
  | .success => s.status = 0
  | .failure => s.status ≠ 0

/-- A status as a process can have it. -/
def statusOf (s : State) : List String → Nat
  | [] => s.status
  | v :: _ => ((Text.number? 10 v.toList).getD 2) % 256

/-- Runs one command: the script ends, or goes on in a new state. -/
def step (s : State) (c : Simple) : Ending × State ⊕ State :=
  match c.words with
  | [] => .inr s
  | "exit" :: args => .inl (.status (statusOf s args), s)
  | "kill" :: args =>
    if args.getLast? = some (toString ownNumber) then .inl (.signal, s)
    else .inr { s with status := 1 }
  | "cd" :: p :: _ =>
    match s.files.lookup (Path.join s.directory p) with
    | .ok (l, .directory _) => .inr { s with directory := Path.absolute l, status := 0 }
    | _ =>
      .inr ({ s with status := 2 }.send ("sh: 1: cd: can't cd to " ++ p ++ "\n").toUTF8 c.errors)
  | name :: args => match program? name args s.directory s.files with
    | some e => .inr (s.after c e)
    | none => .inr (s.notFound c name)

def runEach (s : State) : List Simple → Ending × State
  | [] => (.status s.status, s)
  | c :: cs =>
    if due s c.condition then
      match step s c with
      | .inl r => r
      | .inr s => runEach s cs
    else runEach s cs

/-- Runs a script. One that cannot be read fails as a whole. -/
def run (s : State) (script : String) : Ending × State :=
  match (tokens .plain none script.toList).bind (commands {}) with
  | some cs => runEach s cs
  | none => (.status 2, s.send "sh: 1: Syntax error\n".toUTF8 .errors)

end MolecularTools.Shell
