import MolecularTools.Failure

/-! JSON documents as far as they can be read. A fault stands in a document where reading
stopped, so that a decoder which walks a document in order meets the faults of its text and the
faults of its shape in one order. -/
namespace MolecularTools

/-- A number keeps apart the two ranges of integers that have their own representation and
everything that is held in binary64. -/
inductive JsonNumber where
  /-- Below `2 ^ 64`, written without sign, fraction and exponent. -/
  | natural (n : Nat)
  /-- The negative of a positive number up to `2 ^ 63`. -/
  | negative (n : Nat)
  | float (x : Float)

inductive Json where
  | null
  | bool (b : Bool)
  | number (n : JsonNumber)
  | string (s : String)
  | array (items : List Json) (ending : Option JsonFault)
  | object (members : List (String × Json)) (ending : Option JsonFault)
  /-- Nothing could be read here. -/
  | fault (f : JsonFault)

/-- A document and what follows it. -/
structure JsonDocument where
  root : Json
  /-- The fault of a text that goes on behind its document. -/
  ending : Option JsonFault

end MolecularTools
