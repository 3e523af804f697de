/-! Unit systems named in the header of a table. -/
namespace MolecularTools

inductive Units where
  | lj | real | metal | si | cgs | electron | micro | nano
deriving DecidableEq, Repr, Inhabited

namespace Units

def all : List Units := [lj, real, metal, si, cgs, electron, micro, nano]

def name : Units → String
  | lj => "lj"
  | real => "real"
  | metal => "metal"
  | si => "si"
  | cgs => "cgs"
  | electron => "electron"
  | micro => "micro"
  | nano => "nano"

def standard : Units := real

/-- The unit system of a name; only ASCII letters have a case that can be ignored. -/
def ofName? (s : String) (ignoreCase : Bool) : Option Units :=
  let fold (t : String) := if ignoreCase then t.toList.map Char.toLower else t.toList
  all.find? fun u => fold u.name = fold s

end Units

end MolecularTools
