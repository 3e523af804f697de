import MolecularTools.Files.Operations

/-! What stands at a location after one entry of a tree was put, taken away or changed. -/
namespace MolecularTools.FileTree

@[simp] theorem node?_root (t : FileTree) : t.node? [] = some (.directory directoryMode) := rfl

theorem node?_of_ne {t : FileTree} (inner : l ≠ []) : t.node? l = t.nodes[l]? := if_neg inner

theorem node?_put (t : FileTree) (inner : l ≠ []) (n : Node) (k : Location) :
    (t.put l n).node? k = if l = k then some n else t.node? k := by
  by_cases root : k = []
  · subst root
    simp [inner]
  · simp [node?_of_ne root, put, Std.ExtTreeMap.getElem?_insert]

theorem put_put (t : FileTree) (l : Location) (a b : Node) : (t.put l a).put l b = t.put l b := by
  have same : (t.nodes.insert l a).insert l b = t.nodes.insert l b := by
    apply Std.ExtTreeMap.ext_getElem?
    intro k
    simp only [Std.ExtTreeMap.getElem?_insert]
    split
    · rfl
    · rfl
  exact congrArg FileTree.mk same

theorem node?_erase (t : FileTree) (inner : l ≠ []) (k : Location) :
    (t.erase l).node? k = if l = k then none else t.node? k := by
  by_cases root : k = []
  · subst root
    simp [inner]
  · simp [node?_of_ne root, erase, Std.ExtTreeMap.getElem?_erase]

@[simp] theorem node?_erase_root (t : FileTree) (k : Location) :
    (t.erase []).node? k = t.node? k := by
  by_cases root : k = []
  · subst root
    rfl
  · simp [node?_of_ne root, erase, Std.ExtTreeMap.getElem?_erase, Ne.symm root]

theorem directoryMode?_eq_some {t : FileTree} :
    t.directoryMode? l = some m ↔ t.node? l = some (.directory m) := by
  unfold directoryMode?
  split
  · rename_i mode here
    simp [here]
  · rename_i other
    simpa using other m

theorem searchable_directory {t : FileTree} (search : t.searchable l = true) :
    ∃ mode, t.node? l = some (.directory mode) ∧ maySearch mode = true := by
  obtain ⟨mode, stands, may⟩ := (Option.any_eq_true _ _).mp search
  exact ⟨mode, directoryMode?_eq_some.mp stands, may⟩

theorem searchable_of_alterable {t : FileTree} (alterable : t.alterable l = true) :
    t.searchable l = true := by
  obtain ⟨mode, found, may⟩ := (Option.any_eq_true _ _).mp alterable
  exact (Option.any_eq_true _ _).mpr ⟨mode, found, (Bool.and_eq_true_iff.mp may).2⟩

def writable (t : FileTree) (l : Location) : Bool := (t.directoryMode? l).any mayWrite

theorem alterable_of_writable {t : FileTree} (writable : t.writable l = true)
    (search : t.searchable l = true) : t.alterable l = true := by
  obtain ⟨mode, found, may⟩ := (Option.any_eq_true _ _).mp writable
  rw [searchable, found, Option.any_some] at search
  rw [alterable, found, Option.any_some, may, search]
  rfl

theorem writable_congr {t u : FileTree} (same : u.node? l = t.node? l) :
    u.writable l = t.writable l := by
  rw [writable, writable, directoryMode?, directoryMode?, same]

theorem searchable_congr {t u : FileTree} (same : u.node? l = t.node? l) :
    u.searchable l = t.searchable l := by
  rw [searchable, searchable, directoryMode?, directoryMode?, same]

theorem alterable_congr {t u : FileTree} (same : u.node? l = t.node? l) :
    u.alterable l = t.alterable l := by
  rw [alterable, alterable, directoryMode?, directoryMode?, same]

/-- Every entry stands in a directory. -/
def Rooted (t : FileTree) : Prop := ∀ l name n, t.node? (l ++ [name]) = some n →
  ∃ mode, t.node? l = some (.directory mode)

theorem rooted_iff {t : FileTree} : t.Rooted ↔ ∀ e ∈ t.nodes.toList,
    e.1 = [] ∨ (t.directoryMode? e.1.dropLast).isSome = true := by
  constructor
  · intro rooted e member
    have stands := Std.ExtTreeMap.mem_toList_iff_getElem?_eq_some.mp member
    rcases List.eq_nil_or_concat e.1 with root | ⟨upper, name, split⟩
    · exact .inl root
    · rw [List.concat_eq_append] at split
      rw [split, ← node?_of_ne (by simp)] at stands
      obtain ⟨mode, directory⟩ := rooted upper name _ stands
      rw [split, List.dropLast_concat, directoryMode?_eq_some.mpr directory]
      exact .inr rfl
  · intro upper l name n stands
    rw [node?_of_ne (by simp)] at stands
    rcases upper _ (Std.ExtTreeMap.mem_toList_iff_getElem?_eq_some.mpr stands) with root | directory
    · simp at root
    · rw [List.dropLast_concat] at directory
      obtain ⟨mode, found⟩ := Option.isSome_iff_exists.mp directory
      exact ⟨mode, directoryMode?_eq_some.mp found⟩

instance (t : FileTree) : Decidable t.Rooted := decidable_of_iff _ rooted_iff.symm

namespace Rooted

variable {t : FileTree}

theorem above (rooted : t.Rooted) (below : names ≠ []) (stands : t.node? (l ++ names) = some n) :
    ∃ mode, t.node? l = some (.directory mode) := by
  induction names generalizing l n with
  | nil => contradiction
  | cons name names ih =>
    cases names with
    | nil => exact rooted l name n stands
    | cons next rest =>
      have inner : t.node? ((l ++ [name]) ++ (next :: rest)) = some n := by
        rw [List.append_assoc]
        exact stands
      obtain ⟨mode, directory⟩ := ih (List.cons_ne_nil next rest) inner
      exact rooted l name _ directory

theorem nothing_below (rooted : t.Rooted) (below : names ≠ [])
    (other : ∀ mode, t.node? l ≠ some (.directory mode)) : t.node? (l ++ names) = none := by
  cases stands : t.node? (l ++ names) with
  | none => rfl
  | some n =>
    obtain ⟨mode, directory⟩ := rooted.above below stands
    exact absurd directory (other mode)

/-- What is put into a directory, and not over one, stands in a directory. -/
theorem put (rooted : t.Rooted) (directory : t.node? l = some (.directory mode))
    (bare : ∀ mode, t.node? (l ++ [x]) ≠ some (.directory mode)) (n : Node) :
    (t.put (l ++ [x]) n).Rooted := by
  have some : l ++ [x] ≠ [] := by simp
  have stays : ∀ k mode, t.node? k = .some (.directory mode) →
      (t.put (l ++ [x]) n).node? k = .some (.directory mode) := by
    intro k mode stands
    rw [node?_put t some, if_neg, stands]
    rintro rfl
    exact bare mode stands
  intro k name m stands
  rw [node?_put t some] at stands
  split at stands
  · rename_i same
    obtain ⟨rfl, -⟩ := List.append_inj' same rfl
    exact ⟨_, stays l _ directory⟩
  · obtain ⟨mode, above⟩ := rooted k name m stands
    exact ⟨mode, stays k mode above⟩

theorem dropLast (rooted : t.Rooted) (stands : t.node? l = some (.directory mode)) :
    ∃ mode, t.node? l.dropLast = some (.directory mode) := by
  rcases List.eq_nil_or_concat l with rfl | ⟨upper, name, rfl⟩
  · exact ⟨mode, stands⟩
  · rw [List.concat_eq_append] at stands ⊢
    rw [List.dropLast_concat]
    exact rooted upper name _ stands

end Rooted

def isChanged (l : Location) (f : File) (k : Location) (g : File) : Bool :=
  k = l || f.shared.isSome && g.shared = f.shared

/-- Changing a file changes files alone: the one that is meant, and those that are one with it. -/
theorem node?_changeFile {t : FileTree} (stands : t.node? l = some (.file f)) (change : File → File)
    (k : Location) : (t.changeFile l change).node? k = match t.node? k with
      | some (.file g) => some (.file (if isChanged l f k g then change g else g))
      | other => other := by
  have inner : l ≠ [] := by
    rintro rfl
    simp at stands
  simp only [changeFile, stands]
  cases shared : f.shared with
  | none =>
    simp only [node?_put t inner, isChanged, shared]
    by_cases same : l = k
    · subst same
      simp [stands]
    · rw [if_neg same]
      cases t.node? k with
      | none => rfl
      | some n =>
        cases n with
        | file g => simp [Ne.symm same]
        | directory mode => rfl
        | link target => rfl
  | some number =>
    simp only [isChanged, shared]
    by_cases root : k = []
    · subst root
      simp
    · simp only [node?_of_ne root, Std.ExtTreeMap.getElem?_map]
      cases here : t.nodes[k]? with
      | none => rfl
      | some n =>
        cases n with
        | file g =>
          by_cases same : k = l
          · subst same
            rw [node?_of_ne root, here] at stands
            obtain rfl : g = f := by simpa using stands
            simp [shared]
          · by_cases one : g.shared = some number
            · simp [one, same]
            · simp [one, same]
        | directory mode => rfl
        | link target => rfl

end MolecularTools.FileTree
