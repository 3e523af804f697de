/-! Arguments of a command line. Options have a long name and often a letter; letters can stand
together behind one dash. An option that takes a value takes it from the same argument or from the
next one, which must not look like an option. Everything else is refused. -/
namespace MolecularTools.Cli

/-- What an option does to settings of type `α`. -/
inductive Effect (α : Type) where
  | flag (set : α → α)
  /-- Takes a value; some values may be refused. -/
  | value (set : String → Option (α → α))
  /-- Is answered at once, whatever comes behind it. -/
  | answer

structure Switch (α : Type) where
  long : String
  letter : Option Char
  effect : Effect α

/-- Settings after some arguments, with the options that were given. -/
structure Given (α : Type) where
  settings : α
  names : List String := []

/-- Why arguments are not read to their end. -/
inductive Stop where
  | usage | answered
deriving DecidableEq, Repr

variable {α : Type}

namespace Given

def has (g : Given α) (s : Switch α) : Bool := s.long ∈ g.names

/-- Settings are changed once by each option. -/
def change (g : Given α) (s : Switch α) (f : α → α) : Except Stop (Given α) :=
  if g.has s then .error .usage else .ok ⟨f g.settings, s.long :: g.names⟩

def accept (g : Given α) (s : Switch α) (set : String → Option (α → α)) (value : String) :
    Except Stop (Given α) :=
  match set value with
  | some f => g.change s f
  | none => .error .usage

end Given

/-- An option whose value stands in the next argument. -/
structure Waiting (α : Type) where
  switch : Switch α
  set : String → Option (α → α)

/-- An argument `--name` or `--name=value` without its dashes. -/
def readLong (all : List (Switch α)) (g : Given α) (cs : List Char) :
    Except Stop (Given α × Option (Waiting α)) :=
  let (name, attached) := match cs.span (· ≠ '=') with
    | (name, _ :: value) => (String.ofList name, some (String.ofList value))
    | (name, []) => (String.ofList name, none)
  match all.find? (·.long = name) with
  | none => .error .usage
  | some s => match s.effect, attached with
    | .answer, none => .error .answered
    | .flag f, none => (g.change s f).map (·, none)
    | .value set, some v => (g.accept s set v).map (·, none)
    | .value set, none => .ok (g, some ⟨s, set⟩)
    | _, some _ => .error .usage

/-- Letters behind one dash. What follows a letter that takes a value is its value. -/
def readLetters (all : List (Switch α)) (g : Given α) :
    List Char → Except Stop (Given α × Option (Waiting α))
  | [] => .ok (g, none)
  | c :: cs => match all.find? (·.letter = some c) with
    | none => .error .usage
    | some s => match s.effect, cs with
      | .answer, _ => .error .answered
      | .flag f, cs => do readLetters all (← g.change s f) cs
      | .value set, [] => .ok (g, some ⟨s, set⟩)
      | .value set, '=' :: v => (g.accept s set (String.ofList v)).map (·, none)
      | .value set, v => (g.accept s set (String.ofList v)).map (·, none)

/-- Whether an argument cannot be the value of the one before it. -/
def looksLikeOption (cs : List Char) : Bool := cs.head? = some '-' && cs.length ≠ 1

/-- Reads one argument that is no value. -/
def readArgument (all : List (Switch α)) (g : Given α) (cs : List Char) :
    Except Stop (Given α × Option (Waiting α)) :=
  match cs with
  | '-' :: '-' :: cs => readLong all g cs
  | '-' :: c :: cs => readLetters all g (c :: cs)
  | _ => .error .usage

/-- Reads arguments, the first of them as a value if one is awaited. -/
def readAll (all : List (Switch α)) (g : Given α) : Option (Waiting α) → List (List Char) →
    Except Stop (Given α)
  | none, [] => .ok g
  | some _, [] => .error .usage
  | some w, cs :: rest =>
    if looksLikeOption cs then .error .usage
    else do readAll all (← g.accept w.switch w.set (String.ofList cs)) none rest
  | none, cs :: rest =>
    if cs = ['-', '-'] then if rest.isEmpty then .ok g else .error .usage
    else do
      let (g, w) ← readArgument all g cs
      readAll all g w rest

/-- Reads a command line into settings that start as `settings`. -/
def read (all : List (Switch α)) (settings : α) (args : List String) : Except Stop (Given α) :=
  readAll all { settings } none (args.map String.toList)

end MolecularTools.Cli
