import MolecularTools.Machine.Basic
import MolecularTools.Proofs.Task

/-! What the operations of a machine do to its files. -/
namespace MolecularTools.Machine

theorem reading_apply (f : FileTree → Except IoError α) (m : Machine) :
    reading f m = ((f m.files).mapError .ofIo, m) := by
  simp only [reading, atOnce]
  cases f m.files with
  | ok a => rfl
  | error e => rfl

theorem stepwise_apply (f : FileTree → Except IoError α × FileTree) (m : Machine) :
    stepwise f m = ((f m.files).1.mapError .ofIo, { m with files := (f m.files).2 }) := by
  simp only [stepwise]
  rcases f m.files with ⟨_ | _, files⟩ <;> rfl

theorem changing_apply (f : FileTree → Except IoError FileTree) (m : Machine) :
    changing f m = match f m.files with
      | .ok files => (.ok (), { m with files })
      | .error e => (.error (.ofIo e), m) := by
  simp only [changing, atOnce]
  cases f m.files with
  | ok files => rfl
  | error e => rfl

theorem changing_ok {f : FileTree → Except IoError FileTree} (ok : (changing f m).1 = .ok a) :
    f m.files = .ok (changing f m).2.files := by
  rw [changing_apply] at ok ⊢
  cases done : f m.files with
  | ok files => rfl
  | error e =>
    rw [done] at ok
    contradiction

theorem openFile_ok (w : Surroundings) {m : Machine} :
    ((host w).openFile p m).1 = .ok s ↔ m.files.openToRead p = .ok s := by
  simp only [host, Task.within_apply, reading_apply]
  cases m.files.openToRead p with
  | ok a => simp
  | error e => simp

theorem openFile_preserves (w : Surroundings) (p : String) :
    ((host w).openFile p).Preserves id := by
  intro m
  simp only [host, Task.within_apply, reading_apply]

theorem removeTree_files (w : Surroundings) (p : String) (m : Machine) :
    ((host w).removeTree p m).2.files = (m.files.removeTree p).2 := by
  simp only [host, Task.within_apply, stepwise_apply]

end MolecularTools.Machine
