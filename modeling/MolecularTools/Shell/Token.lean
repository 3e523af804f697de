/-! Words and operators of a small shell. Quotes and backslashes keep characters from being
read as anything else. -/
namespace MolecularTools.Shell

inductive Token where
  | word (cs : List Char)
  /-- The end of a command. -/
  | next
  /-- Go on only after success, and only after failure. -/
  | onSuccess
  | onFailure
  /-- What goes to the first descriptor goes to the second. -/
  | copy (source target : Nat)
  /-- Output goes to the file that the next word names. -/
  | into (append : Bool)
deriving DecidableEq, Repr

inductive Mode where
  | plain | single | double | comment
deriving DecidableEq, Repr

def singleQuote : Char := Char.ofNat 39

/-- The number of the shell's own process. -/
def ownNumber : Nat := 2

def ownDigits : List Char := Nat.toDigits 10 ownNumber

/-- Puts the word read so far before further tokens. -/
def finish (w : Option (List Char)) (ts : List Token) : List Token :=
  match w with
  | some cs => .word cs :: ts
  | none => ts

def extend (w : Option (List Char)) (cs : List Char) : Option (List Char) := some (w.getD [] ++ cs)

/-- What a backslash between double quotes keeps from being special. -/
def isSpecial (c : Char) : Bool := c = '\\' || c = '"' || c = '$' || c = '\x60'

def descriptor? (c : Char) : Option Nat := if c.isDigit then some (c.toNat - 48) else none

/-- Reads tokens; `w` is the word that is being read. None if a quote stays open or an operator
is not known. -/
def tokens (m : Mode) (w : Option (List Char)) : List Char → Option (List Token)
  | [] => if m = .single || m = .double then none else some (finish w [])
  | c :: rest => match m with
    | .comment => if c = '\n' then (tokens .plain none rest).map (.next :: ·)
      else tokens .comment none rest
    | .single => if c = singleQuote then tokens .plain w rest else tokens .single (extend w [c]) rest
    | .double =>
      if c = '"' then tokens .plain w rest
      else match c, rest with
        | '\\', d :: rest =>
          tokens .double (extend w (if isSpecial d then [d] else ['\\', d])) rest
        | '$', '$' :: rest => tokens .double (extend w ownDigits) rest
        | c, rest => tokens .double (extend w [c]) rest
    | .plain =>
      if c = singleQuote then tokens .single (extend w []) rest
      else if c = '"' then tokens .double (extend w []) rest
      else if c = ' ' || c = '\t' then (tokens .plain none rest).map (finish w)
      else if c = ';' || c = '\n' then (tokens .plain none rest).map fun ts => finish w (.next :: ts)
      else if c = '#' && w.isNone then tokens .comment none rest
      else match c, rest with
        | '\\', d :: rest => tokens .plain (extend w [d]) rest
        | '$', '$' :: rest => tokens .plain (extend w ownDigits) rest
        | '&', '&' :: rest => (tokens .plain none rest).map fun ts => finish w (.onSuccess :: ts)
        | '|', '|' :: rest => (tokens .plain none rest).map fun ts => finish w (.onFailure :: ts)
        | '>', '&' :: d :: rest => match descriptor? d with
          | some n => (tokens .plain none rest).map fun ts => finish w (.copy 1 n :: ts)
          | none => none
        | '>', '>' :: rest => (tokens .plain none rest).map fun ts => finish w (.into true :: ts)
        | '>', rest => (tokens .plain none rest).map fun ts => finish w (.into false :: ts)
        | c, '>' :: '&' :: d :: rest => match w, descriptor? c, descriptor? d with
          | none, some k, some n => (tokens .plain none rest).map (.copy k n :: ·)
          | _, _, _ => none
        | c, rest =>
          if c = '&' || c = '|' || c = '<' || c = '(' || c = ')' || c = '\x60' then none
          else tokens .plain (extend w [c]) rest

end MolecularTools.Shell
