import MolecularTools.Proofs.Files.Leads
import MolecularTools.Proofs.Files.Nodes

/-! Trees from which entries were taken away. A walk that still finds a file or a link finds
the one it found before: taking entries away can end a path but never turn it elsewhere. -/
namespace MolecularTools

/-- Every entry of the first tree stands unchanged in the second. -/
structure Pruned (rest whole : FileTree) : Prop where
  kept : ∀ l n, rest.node? l = some n → whole.node? l = some n

namespace Pruned

open FileTree

variable {rest whole : FileTree}

theorem refl (t : FileTree) : Pruned t t := ⟨fun _ _ found => found⟩

theorem trans (first : Pruned a b) (second : Pruned b c) : Pruned a c :=
  ⟨fun l n found => second.kept l n (first.kept l n found)⟩

theorem erase (t : FileTree) (l : Location) : Pruned (t.erase l) t := by
  refine ⟨fun k n found => ?_⟩
  by_cases root : l = []
  · simpa only [root, node?_erase_root] using found
  · rw [node?_erase _ root] at found
    split at found
    · contradiction
    · exact found

theorem directoryMode? (pruned : Pruned rest whole) (stands : rest.directoryMode? l = some m) :
    whole.directoryMode? l = some m :=
  directoryMode?_eq_some.mpr (pruned.kept _ _ (directoryMode?_eq_some.mp stands))

theorem searchable (pruned : Pruned rest whole) (search : rest.searchable l = true) :
    whole.searchable l = true := by
  obtain ⟨m, mode, may⟩ := (Option.any_eq_true _ _).mp search
  exact (Option.any_eq_true _ _).mpr ⟨m, pruned.directoryMode? mode, may⟩

/-- The way to what was found is still the same, and so is what was found unless it is a
directory. -/
theorem leads_place (pruned : Pruned rest whole)
    (leads : Leads rest aim links last l slash names spot) (found : spot.place = .found k n) :
    ∃ m, Leads whole aim links last l slash names ⟨.found k m, spot.slash, spot.dots⟩ ∧
      (m = n ∨ ∃ a b, m = .directory a ∧ n = .directory b) := by
  induction leads with
  | stop =>
    obtain ⟨rfl, rfl⟩ := Place.found.inj found
    exact ⟨_, .stop, .inr ⟨_, _, rfl, rfl⟩⟩
  | here search _ ih =>
    obtain ⟨m, whole, same⟩ := ih found
    exact ⟨m, .here (pruned.searchable search) whole, same⟩
  | up search _ ih =>
    obtain ⟨m, whole, same⟩ := ih found
    exact ⟨m, .up (pruned.searchable search) whole, same⟩
  | vacant => contradiction
  | entry search sought ends stands itself =>
    obtain ⟨rfl, rfl⟩ := Place.found.inj found
    exact ⟨_, .entry (pruned.searchable search) sought ends (pruned.kept _ _ stands) itself,
      .inl rfl⟩
  | into search sought further stands _ ih =>
    obtain ⟨m, whole, same⟩ := ih found
    exact ⟨m, .into (pruned.searchable search) sought further (pruned.kept _ _ stands) whole, same⟩
  | follow search sought ends stands _ ih =>
    obtain ⟨m, whole, same⟩ := ih found
    exact ⟨m, .follow (pruned.searchable search) sought ends (pruned.kept _ _ stands) whole, same⟩

/-- A path names the place it named before. -/
theorem walk_place (pruned : Pruned rest whole)
    (walked : rest.walk aim p = .ok ⟨.found k n, s, o⟩) :
    ∃ m, whole.walk aim p = .ok ⟨.found k m, s, o⟩ ∧
      (m = n ∨ ∃ a b, m = .directory a ∧ n = .directory b) := by
  obtain ⟨passable, leads⟩ := walk_ok_iff.mp walked
  obtain ⟨m, leads, same⟩ := pruned.leads_place leads rfl
  exact ⟨m, walk_ok_iff.mpr ⟨passable, leads⟩, same⟩

theorem walk (pruned : Pruned rest whole) (solid : n.isDirectory = false)
    (walked : rest.walk aim p = .ok ⟨.found k n, s, o⟩) :
    whole.walk aim p = .ok ⟨.found k n, s, o⟩ := by
  obtain ⟨m, still, rfl | ⟨a, b, -, rfl⟩⟩ := pruned.walk_place walked
  · exact still
  · contradiction

theorem lookup (pruned : Pruned rest whole) (solid : n.isDirectory = false)
    (found : rest.lookup p = .ok (l, n)) : whole.lookup p = .ok (l, n) := by
  obtain ⟨slash, dots, walked, fits⟩ := lookup_ok_iff.mp found
  exact lookup_ok_iff.mpr ⟨slash, dots, pruned.walk solid walked, fits⟩

/-- What can be read after taking entries away was read from the same path before. -/
theorem openToRead (pruned : Pruned rest whole)
    (opened : rest.openToRead p = .ok (.whole bytes)) :
    whole.openToRead p = .ok (.whole bytes) := by
  obtain ⟨⟨l, node⟩, found, here⟩ := bind_eq_ok_iff.mp opened
  refine bind_eq_ok_iff.mpr ⟨(l, node), ?_, here⟩
  cases node with
  | file f => exact pruned.lookup rfl found
  | link target => simp only [reduceCtorEq] at here
  | directory mode =>
    dsimp only at here
    split at here
    · simp [Stream.failing, Stream.whole] at here
    · contradiction

end Pruned

end MolecularTools
