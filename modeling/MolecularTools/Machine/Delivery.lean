import MolecularTools.Http.Status
import MolecularTools.Machine.Basic

/-! Downloads whose outcome is given for every address and every history of requests. -/
namespace MolecularTools

/-- How one request ends: it may be refused, and it may break off behind the bytes that did
arrive. -/
structure Delivery where
  status : Option Nat := none
  body : ByteArray := .empty
  error : Option String := none

/-- The addresses asked for before and the one asked for now decide. -/
abbrev Supply := List String → String → Delivery

/-- Hands a delivery over. -/
def Delivery.handOver {σ : Type} (d : Delivery) (url : String) (out : Writer σ) : Task σ Nat := do
  match d.status with
  | some code => match Http.checkStatus code url with
    | .error e => .fail { cause := .status e }
    | .ok () => pure ()
  | none => pure ()
  out.write d.body
  match d.error with
  | some text => .fail (.ofMessage text)
  | none => return d.body.size

/-- The next delivery for an address; the request is counted. -/
def Machine.request (s : Supply) (url : String) : Task Machine Delivery := fun m =>
  (.ok (s m.requests url), { m with requests := m.requests ++ [url] })

/-- Downloads by handing over what `request` answers. -/
def Delivery.downloader {σ : Type} (request : String → Task σ Delivery) : Downloader σ :=
  fun url out => do (← request url).handOver url out

end MolecularTools
