import MolecularTools.Failure

/-! Classes of HTTP status codes. -/
namespace MolecularTools.Http

/-- Refuses every status that is no success. Redirects were followed before. -/
def checkStatus (code : Nat) (url : String) : Except StatusError Unit :=
  if 200 ≤ code ∧ code < 300 then .ok ()
  else if code = 404 then .error (.notFound url)
  else if code = 401 ∨ code = 403 then .error (.forbidden url)
  else if code = 429 then .error (.rateLimited url)
  else if 500 ≤ code ∧ code < 600 then .error (.server code url)
  else .error (.client code url)

end MolecularTools.Http
