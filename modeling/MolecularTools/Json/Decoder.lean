import MolecularTools.Json.Basic
import MolecularTools.Text.Quoted
import MolecularTools.Decimal.Shortest

/-! Typed reading of JSON documents, in the order of the text. A value of the wrong kind is
named in the fault together with what was expected in its place. -/
namespace MolecularTools.Json

def ticked (s : String) : String := "\x60" ++ s ++ "\x60"

/-- What a value is called in a fault. -/
def kind : Json → String
  | .null => "null"
  | .bool b => "boolean " ++ ticked (if b then "true" else "false")
  | .number (.natural n) => "integer " ++ ticked (toString n)
  | .number (.negative n) => "integer " ++ ticked ("-" ++ toString n)
  | .number (.float x) => "floating point " ++ ticked (Decimal.shortestText x)
  | .string s => "string " ++ Text.quoted s
  | .array _ _ => "sequence"
  | .object _ _ => "map"
  | .fault f => f.text

/-- A value where another kind was wanted; a fault of the text stays what it is. -/
def unexpected {α : Type} (wanted : String) : Json → Except JsonFault α
  | .fault f => .error f
  | j => .error (.shape ("invalid type: " ++ j.kind ++ ", expected " ++ wanted))

def text : Json → Except JsonFault String
  | .string s => .ok s
  | j => unexpected "a string" j

/-- A natural number below `2 ^ 64`. -/
def natural : Json → Except JsonFault Nat
  | .number (.natural n) => .ok n
  | .number (.negative n) =>
    .error (.shape ("invalid value: integer " ++ ticked ("-" ++ toString n) ++
      ", expected usize"))
  | j => unexpected "usize" j

def naturalOrNull : Json → Except JsonFault (Option Nat)
  | .null => .ok none
  | j => (natural j).map some

/-- What a list or a map of the text ended with. -/
def ended {α : Type} (ending : Option JsonFault) (a : α) : Except JsonFault α :=
  match ending with
  | some f => .error f
  | none => .ok a

def texts : Json → Except JsonFault (List String)
  | .array items ending => do ended ending (← items.mapM text)
  | j => unexpected "a sequence" j

end MolecularTools.Json
