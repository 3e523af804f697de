import MolecularTools.Json.Number
import MolecularTools.Text.Hex

/-! Reading JSON text. Every reader returns what it read and the text behind it; behind a fault
there is no text to go on with. -/
namespace MolecularTools.Json

/-- The four characters that JSON allows between its tokens. -/
def isSpace (c : Char) : Bool := c = ' ' || c = '\n' || c = '\t' || c = '\r'

def skipSpace (cs : List Char) : List Char := cs.dropWhile isSpace

/-- The value of four hexadecimal digits. -/
def fourDigits? : List Char → Option Nat
  | [a, b, c, d] => do
    let a ← Text.hexValue? a
    let b ← Text.hexValue? b
    let c ← Text.hexValue? c
    let d ← Text.hexValue? d
    return 4096 * a + 256 * b + 16 * c + d
  | _ => none

/-- Four hexadecimal digits. The text has ended when fewer than four bytes are left. -/
def readFour (cs : List Char) : Except JsonFault (Nat × List Char) :=
  if (cs.take 4).foldl (fun n c => n + c.utf8Size) 0 < 4 then .error .ended
  else match fourDigits? (cs.take 4) with
    | some n => .ok (n, cs.drop 4)
    | none => .error .grammar

def isLeading (n : Nat) : Bool := 0xD800 ≤ n && n ≤ 0xDBFF
def isTrailing (n : Nat) : Bool := 0xDC00 ≤ n && n ≤ 0xDFFF

/-- The character of an escaped code unit. A leading surrogate needs an escaped trailing one
behind it, and a trailing one cannot stand alone. -/
def readUnit (cs : List Char) : Except JsonFault (Char × List Char) := do
  let (n, rest) ← readFour cs
  if isTrailing n then .error .grammar
  else if !isLeading n then .ok (Char.ofNat n, rest)
  else match rest with
    | [] => .error .ended
    | ['\\'] => .error .ended
    | '\\' :: 'u' :: rest => do
      let (m, rest) ← readFour rest
      if isTrailing m then
        .ok (Char.ofNat (0x10000 + (n - 0xD800) * 0x400 + (m - 0xDC00)), rest)
      else .error .grammar
    | _ => .error .grammar

/-- The character of an escape that is one letter. -/
def simpleEscape? : Char → Option Char
  | '"' => some '"'
  | '\\' => some '\\'
  | '/' => some '/'
  | 'b' => some '\x08'
  | 'f' => some '\x0c'
  | 'n' => some '\n'
  | 'r' => some '\r'
  | 't' => some '\t'
  | _ => none

/-- The next character of a string, or the end of it. -/
def readChar : List Char → Except JsonFault (Option Char × List Char)
  | [] => .error .ended
  | '"' :: rest => .ok (none, rest)
  | ['\\'] => .error .ended
  | '\\' :: 'u' :: rest => do
    let (c, rest) ← readUnit rest
    .ok (some c, rest)
  | '\\' :: c :: rest => match simpleEscape? c with
    | some c => .ok (some c, rest)
    | none => .error .grammar
  | c :: rest => if c.toNat < 0x20 then .error .grammar else .ok (some c, rest)

/-- Reads at most `fuel` characters of a string behind its quote. -/
def readStringWithin : Nat → List Char → List Char → Except JsonFault (List Char × List Char)
  | 0, _, _ => .error .ended
  | fuel + 1, done, cs => do
    match ← readChar cs with
    | (none, rest) => .ok (done.reverse, rest)
    | (some c, rest) => readStringWithin fuel (c :: done) rest

/-- Reads a string behind its quote; it has no more characters than the text. -/
def readString (cs : List Char) : Except JsonFault (String × List Char) :=
  (readStringWithin (cs.length + 1) [] cs).map fun (s, rest) => (String.ofList s, rest)

/-- A value with the text behind it. -/
abbrev Reading := Json × Option (List Char)

def faulty (f : JsonFault) : Reading := (.fault f, none)

/-- The rest of a word whose first letter was read. -/
def readWord (word : List Char) (value : Json) (cs : List Char) : Reading :=
  match word, cs with
  | [], cs => (value, some cs)
  | _ :: _, [] => faulty .ended
  | w :: word, c :: cs => if w = c then readWord word value cs else faulty .grammar

def ofNumber : Except JsonFault (JsonNumber × List Char) → Reading
  | .ok (n, rest) => (.number n, some rest)
  | .error f => faulty f

mutual

/-- Reads one value. -/
def readValue : Nat → List Char → Reading
  | 0, _ => faulty .ended
  | fuel + 1, cs => match skipSpace cs with
    | [] => faulty .ended
    | 'n' :: r => readWord ['u', 'l', 'l'] .null r
    | 't' :: r => readWord ['r', 'u', 'e'] (.bool true) r
    | 'f' :: r => readWord ['a', 'l', 's', 'e'] (.bool false) r
    | '-' :: r => ofNumber (readNumber true r)
    | '"' :: r => match readString r with
      | .ok (s, rest) => (.string s, some rest)
      | .error f => faulty f
    | '[' :: r =>
      let (items, ending, rest) := readItems fuel true r
      (.array items ending, rest)
    | '\x7b' :: r =>
      let (members, ending, rest) := readMembers fuel true r
      (.object members ending, rest)
    | c :: r => if c.isDigit then ofNumber (readNumber false (c :: r)) else faulty .grammar

/-- Reads the items of an array up to its end; `first` when none stands before. -/
def readItems : Nat → Bool → List Char → List Json × Option JsonFault × Option (List Char)
  | 0, _, _ => ([], some .ended, none)
  | fuel + 1, first, cs =>
    let item (cs : List Char) : List Json × Option JsonFault × Option (List Char) :=
      match readValue fuel cs with
      | (v, none) => ([v], none, none)
      | (v, some rest) =>
        let (items, ending, rest) := readItems fuel false rest
        (v :: items, ending, rest)
    match skipSpace cs with
    | [] => ([], some .ended, none)
    | ']' :: r => ([], none, some r)
    | c :: r =>
      if first then item (c :: r)
      else if c = ',' then item r
      else ([], some .grammar, none)

/-- Reads the members of an object up to its end; `first` when none stands before. -/
def readMembers : Nat → Bool → List Char →
    List (String × Json) × Option JsonFault × Option (List Char)
  | 0, _, _ => ([], some .ended, none)
  | fuel + 1, first, cs =>
    let member (cs : List Char) :
        List (String × Json) × Option JsonFault × Option (List Char) :=
      match skipSpace cs with
      | [] => ([], some .ended, none)
      | '"' :: r => match readString r with
        | .error f => ([], some f, none)
        | .ok (key, rest) => match skipSpace rest with
          | [] => ([(key, .fault .ended)], none, none)
          | ':' :: rest => match readValue fuel rest with
            | (v, none) => ([(key, v)], none, none)
            | (v, some rest) =>
              let (members, ending, rest) := readMembers fuel false rest
              ((key, v) :: members, ending, rest)
          | _ => ([(key, .fault .grammar)], none, none)
      | _ => ([], some .grammar, none)
    match skipSpace cs with
    | [] => ([], some .ended, none)
    | '\x7d' :: r => ([], none, some r)
    | c :: r =>
      if first then member (c :: r)
      else if c = ',' then member r
      else ([], some .grammar, none)

end

/-- Reads a document. A value begins with a character of its own, and between two values at
most one more step is taken, so twice the length of the text bounds the steps. -/
def parse (text : String) : JsonDocument :=
  let cs := text.toList
  match readValue (2 * cs.length + 2) cs with
  | (root, none) => { root, ending := none }
  | (root, some rest) =>
    { root, ending := if (skipSpace rest).isEmpty then none else some .grammar }

end MolecularTools.Json
