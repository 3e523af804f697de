import MolecularTools.Config.Field
import MolecularTools.Json.Reader

/-! Configurations as JSON documents. A document lays any of the fields over the standard
configuration: as an object, each at most once and none that is unknown, or as an array of
the first fields. Faults count in the order of the text. -/
namespace MolecularTools.Config

def unknownField (name : String) : JsonFault :=
  .shape ("unknown field " ++ Json.ticked name ++ ", expected one of " ++
    ", ".intercalate (Field.all.map fun f => Json.ticked f.name))

def duplicateField (f : Field) : JsonFault := .shape ("duplicate field " ++ Json.ticked f.name)

/-- Lays members over `c`. A name is judged before its value is looked at. -/
def readMembers (c : Config) (seen : List Field) :
    List (String × Json) → Except JsonFault Config
  | [] => .ok c
  | (name, j) :: rest => match Field.ofName? name with
    | none => .error (unknownField name)
    | some f =>
      if f ∈ seen then .error (duplicateField f)
      else do readMembers (← f.read c j) (f :: seen) rest

/-- Lays items over the fields in their order. -/
def readItems (c : Config) : List Field → List Json → Except JsonFault Config
  | _, [] => .ok c
  | [], _ :: _ => .error .grammar
  | f :: fs, j :: js => do readItems (← f.read c j) fs js

def ofJson : Json → Except JsonFault Config
  | .object members ending => do Json.ended ending (← readMembers standard [] members)
  | .array items ending => do Json.ended ending (← readItems standard Field.all items)
  | j => j.unexpected "struct InstallerConfig"

def ofDocument (d : JsonDocument) : Except JsonFault Config := do
  Json.ended d.ending (← ofJson d.root)

/-- Reads a configuration. -/
def parse (text : String) : Except JsonFault Config := ofDocument (Json.parse text)

/-- Prints all fields as an object. -/
def print (c : Config) : String :=
  String.ofList (Json.printObject (Field.all.map fun f => (f.name, f.print c)))

end MolecularTools.Config
