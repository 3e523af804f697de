import MolecularTools.Host.Events
import MolecularTools.Proofs.Task

/-! Hosts under watch. Each call that changes something is entered in a log once it is done,
with the state in which it began and with whether it succeeded. -/
namespace MolecularTools

/-- What a log tells of: one call, or an extraction as a whole. -/
inductive Effect where
  | call (e : Event)
  | extraction (archive directory : String)
deriving DecidableEq, Repr

structure Entry (σ : Type) where
  effect : Effect
  /-- The state in which the effect began. -/
  before : σ
  succeeded : Bool

abbrev Log (σ : Type) := List (Entry σ)

variable {σ τ ρ α β : Type}

namespace Task

/-- Enters `t` in the log when it is done. It succeeded if its result is as wanted. -/
def watched (e : Effect) (wanted : α → Bool) (t : Task (Log σ × σ) α) : Task (Log σ × σ) α :=
  fun s =>
    let (r, after) := t s
    (r, (after.1 ++ [⟨e, s.2, r.toOption.any wanted⟩], after.2))

@[simp] theorem watched_apply (e : Effect) (wanted : α → Bool) (t : Task (Log σ × σ) α)
    (s : Log σ × σ) : t.watched e wanted s =
      ((t s).1, (t s).2.1 ++ [⟨e, s.2, (t s).1.toOption.any wanted⟩], (t s).2.2) := rfl

theorem map_watched (g : α → β) (e : Effect) (t : Task (Log σ × σ) α) :
    g <$> t.watched e (fun _ => true) = (g <$> t).watched e fun _ => true := by
  funext s
  simp only [map_eq_pure_bind, bind_apply, watched_apply]
  rcases t s with ⟨_ | _, after⟩ <;> rfl

theorem recast_watched (f : Failure → Failure) (e : Effect) (wanted : α → Bool)
    (t : Task (Log σ × σ) α) : (t.watched e wanted).recast f = (t.recast f).watched e wanted := by
  funext s
  simp only [recast, watched_apply]
  cases (t s).1 with
  | ok a => rfl
  | error e => rfl

abbrev Keeps (t : Task (τ × σ) α) : Prop := t.Preserves Prod.fst

theorem below_keeps (t : Task σ α) : (t.below : Task (τ × σ) α).Keeps := fun _ => rfl

end Task

structure Writer.Keeps (w : Writer (τ × σ)) : Prop where
  write : ∀ bytes, (w.write bytes).Keeps
  flush : w.flush.Keeps

theorem Writer.below_keeps (w : Writer σ) : (w.below : Writer (τ × σ)).Keeps :=
  ⟨fun _ => Task.below_keeps _, Task.below_keeps _⟩

/-- A downloader that leaves the first part of the state alone if its writers do. -/
structure DiscreetDownloader (τ σ : Type) where
  download : Downloader (τ × σ)
  keeps : ∀ url out, out.Keeps → (download url out).Keeps

namespace Host

def watched (h : Host σ) : Host (Log σ × σ) :=
  let whole (e : Event) (t : Task (Log σ × σ) Unit) := t.watched (.call e) fun _ => true
  { h.below with
    createFile := fun p => (h.below.createFile p).watched (.call (.createFile p)) fun _ => true
    makeDirectories := fun p => whole (.makeDirectories p) (h.below.makeDirectories p)
    removeFile := fun p => whole (.removeFile p) (h.below.removeFile p)
    removeTree := fun p => whole (.removeTree p) (h.below.removeTree p)
    removeLink := fun p => whole (.removeLink p) (h.below.removeLink p)
    makeLink := fun target p => whole (.makeLink target p) (h.below.makeLink target p)
    run := fun c => (h.below.run c).watched (.call (.run c)) fun r => r.code = some 0 }

theorem createFile_keeps (h : Host σ) (p : String) :
    (h.below.createFile p : Task (τ × σ) (Writer (τ × σ))).Keeps := by
  simp only [below, map_eq_pure_bind]
  exact (Task.below_keeps _).bind fun _ => Task.pure_preserves _

theorem writer_keeps {h : Host σ} {s : τ × σ} (made : (h.below.createFile p s).1 = .ok out) :
    out.Keeps := by
  simp only [below, map_eq_pure_bind, Task.bind_apply, Task.below_apply] at made
  split at made
  · obtain rfl := Except.ok.inj made
    exact Writer.below_keeps _
  · contradiction

end Host

end MolecularTools
