import MolecularTools.Machine.Delivery
import MolecularTools.Proofs.Host.Watch

/-! Deliveries: a refused one writes nothing, any other one writes its body and then succeeds or
breaks off. -/
namespace MolecularTools

variable {σ τ : Type}

namespace Delivery

def refusal (delivery : Delivery) (url : String) : Option StatusError :=
  delivery.status.bind fun code => match Http.checkStatus code url with
    | .error e => some e
    | .ok () => none

def conclusion (delivery : Delivery) : Task σ Nat :=
  match delivery.error with
  | some text => .fail (.ofMessage text)
  | none => pure delivery.body.size

theorem handOver_eq (delivery : Delivery) (url : String) (out : Writer σ) :
    delivery.handOver url out = match delivery.refusal url with
      | some e => .fail { cause := .status e }
      | none => out.write delivery.body >>= fun _ => delivery.conclusion := by
  unfold handOver refusal conclusion
  cases delivery.status with
  | none => rfl
  | some code =>
    simp only [Option.bind_some]
    cases Http.checkStatus code url with
    | error e => rfl
    | ok _ => rfl

theorem handOver_keeps (delivery : Delivery) (url : String) {out : Writer (τ × σ)}
    (quiet : out.Keeps) : (delivery.handOver url out).Keeps := by
  rw [handOver_eq]
  split
  · exact Task.fail_preserves _
  · refine (quiet.write delivery.body).bind fun _ => ?_
    unfold conclusion
    split
    · exact Task.fail_preserves _
    · exact Task.pure_preserves _

end Delivery

/-- Deliveries are handed over without a look at the log. -/
def DiscreetDownloader.ofDeliveries (request : String → Task σ Delivery) :
    DiscreetDownloader τ σ where
  download := Delivery.downloader fun url => (request url).below
  keeps url _ quiet := (Task.below_keeps (request url)).bind fun delivery =>
    delivery.handOver_keeps url quiet

end MolecularTools
