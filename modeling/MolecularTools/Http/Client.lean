import MolecularTools.Host.Basic
import MolecularTools.Http.Status

/-! Fetching over HTTP. The body of an answer goes to a writer chunk by chunk as it arrives. -/
namespace MolecularTools.Http

/-- What becomes of a request, redirects followed. -/
inductive Exchange where
  /-- No answer came. -/
  | unanswered (detail : String)
  /-- The body as it arrives, and why it broke off if it did. -/
  | answered (status : Nat) (chunks : List ByteArray) (broken : Option String)

/-- Says what becomes of a request for an address. -/
abbrev Network := String → Exchange

/-- A network on which no machine can be reached. -/
def unreachable : Network := fun url =>
  .unanswered ("error sending request for url (" ++ url ++
    "): client error (Connect): tcp connect error: " ++ IoError.text .unreachable)

variable {σ : Type}

/-- Writes chunks in order and counts their bytes. -/
def writeChunks (out : Writer σ) (count : Nat) : List ByteArray → Task σ Nat
  | [] => pure count
  | c :: cs => do
    (out.write c).within "Failed to write chunk to file"
    writeChunks out (count + c.size) cs

/-- Fetches the body behind an address. The writer is made once the status is known to be a
success. -/
def fetch (network : Network) (url : String) (makeWriter : Task σ (Writer σ)) : Task σ Nat :=
  match network url with
  | .unanswered detail =>
    .fail (Failure.within { cause := .transfer detail }
      ("Failed to start download request for " ++ url))
  | .answered status chunks broken => do
    match checkStatus status url with
    | .error e => .fail { cause := .status e }
    | .ok () =>
      let out ← makeWriter
      let count ← writeChunks out 0 chunks
      match broken with
      | some detail =>
        .fail (Failure.within { cause := .transfer detail }
          "Failed to read chunk from download stream")
      | none =>
        out.flush.within "Failed to flush downloaded file"
        return count

def downloader (network : Network) : Downloader σ := fun url out => fetch network url (pure out)

end MolecularTools.Http
