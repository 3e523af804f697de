import MolecularTools.Proofs.Files.Removal
import MolecularTools.Proofs.Files.Without

/-! Directories whose owner may clear all directories below them can be removed with all they
hold. -/
namespace MolecularTools.FileTree

/-- Every directory from `l` downwards can be read, and changed and searched unless it is
empty. -/
def Open (t : FileTree) (l : Location) : Prop := ∀ k mode, l <+: k →
  t.node? k = some (.directory mode) →
    mayRead mode ∧ (t.entries k ≠ [] → mayWrite mode ∧ maySearch mode)

theorem open_iff {t : FileTree} : t.Open l ↔ ∀ e ∈ t.nodes.toList, l <+: e.1 → e.1 ≠ [] →
    ∀ mode ∈ t.directoryMode? e.1,
      mayRead mode ∧ (t.entries e.1 ≠ [] → mayWrite mode ∧ maySearch mode) := by
  constructor
  · intro accessible e _ lower _ mode found
    exact accessible e.1 mode lower (directoryMode?_eq_some.mp found)
  · intro accessible k mode lower stands
    by_cases root : k = []
    · rw [root, node?_root] at stands
      obtain rfl : directoryMode = mode := by simpa using stands
      exact ⟨by decide, fun _ => by decide⟩
    · have found := directoryMode?_eq_some.mpr stands
      rw [node?_of_ne root] at stands
      have member := Std.ExtTreeMap.mem_toList_iff_getElem?_eq_some.mpr stands
      exact accessible _ member lower root mode found

instance (t : FileTree) (l : Location) : Decidable (t.Open l) := decidable_of_iff _ open_iff.symm

/-- A directory that can be cleared, and whose entries go at most `depth` levels deep. -/
structure Clearable (t : FileTree) (l : Location) (depth : Nat) : Prop where
  rooted : t.Rooted
  stands : ∃ mode, t.node? l = some (.directory mode)
  accessible : t.Open l
  shallow : ∀ names n, t.node? (l ++ names) = some n → names.length ≤ depth

namespace Clearable

variable {t rest : FileTree} {l : Location} {depth : Nat}

theorem readable (clearable : Clearable t l depth) : (t.directoryMode? l).any mayRead = true := by
  obtain ⟨mode, stands⟩ := clearable.stands
  have may := clearable.accessible l mode List.prefix_rfl stands
  rw [directoryMode?_eq_some.mpr stands, Option.any_some]
  exact may.1

theorem alterable (clearable : Clearable t l depth) (some : t.entries l ≠ []) :
    t.alterable l = true := by
  obtain ⟨mode, stands⟩ := clearable.stands
  obtain ⟨write, search⟩ := (clearable.accessible l mode List.prefix_rfl stands).2 some
  rw [FileTree.alterable, directoryMode?_eq_some.mpr stands, Option.any_some, write, search]
  rfl

theorem without (clearable : Clearable t l depth) (taken : Without out t rest) (stays : ¬out l)
    (closed : ∀ k name, out k → out (k ++ [name])) : Clearable rest l depth := by
  constructor
  · exact taken.rooted clearable.rooted closed
  · obtain ⟨mode, stands⟩ := clearable.stands
    exact ⟨mode, by rw [taken.node?_kept stays, stands]⟩
  · intro k mode lower stands
    obtain ⟨read, change⟩ := clearable.accessible k mode lower (taken.stood stands)
    exact ⟨read, fun some => change (taken.entries_ne_nil some)⟩
  · intro names n stands
    exact clearable.shallow names n (taken.stood stands)

theorem child (clearable : Clearable t l (depth + 1))
    (stands : t.node? (l ++ [name]) = some (.directory mode)) :
    Clearable t (l ++ [name]) depth := by
  constructor
  · exact clearable.rooted
  · exact ⟨mode, stands⟩
  · intro k other lower directory
    exact clearable.accessible k other ((List.prefix_append l [name]).trans lower) directory
  · intro names n below
    rw [List.append_assoc] at below
    have bound := clearable.shallow _ n below
    simp only [List.length_append, List.length_singleton] at bound
    omega

end Clearable

/-- Entries that can each be taken away with everything below them are all taken away. -/
theorem untilFailure_clears {f : FileTree → Location → Except IoError Unit × FileTree}
    {P : FileTree → Prop} (ks : List Location)
    (each : ∀ t, P t → ∀ k ∈ ks, ∃ rest, f t k = (.ok (), rest) ∧ Without (k <+: ·) t rest ∧ P rest)
    (t : FileTree) (start : P t) :
    ∃ rest, untilFailure f t ks = (.ok (), rest) ∧
      Without (fun x => ∃ k ∈ ks, k <+: x) t rest := by
  induction ks generalizing t with
  | nil =>
    refine ⟨t, rfl, (Without.refl t).congr ?_⟩
    simp
  | cons k ks ih =>
    obtain ⟨middle, first, taken, goes⟩ := each t start k List.mem_cons_self
    obtain ⟨rest, others, takenRest⟩ :=
      ih (fun t holds j member => each t holds j (List.mem_cons_of_mem k member)) middle goes
    refine ⟨rest, ?_, (taken.trans takenRest).congr ?_⟩
    · rw [untilFailure, first]
      exact others
    · simp

theorem erase_below {t : FileTree} {k : Location} (inner : k ≠ [])
    (bare : ∀ names, names ≠ [] → t.node? (k ++ names) = none) :
    Without (k <+: ·) t (t.erase k) := by
  refine (Without.erase t k).congr ?_
  intro x n stands
  constructor
  · rintro rfl
    exact List.prefix_rfl
  · rintro ⟨names, rfl⟩
    cases names with
    | nil => simp
    | cons name names =>
      have free := bare _ (List.cons_ne_nil name names)
      rw [node?_of_ne (by simp), stands] at free
      contradiction

theorem removeEntry_takes {depth : Nat}
    (inner : ∀ {t l}, Clearable t l depth → ∃ rest, t.clearWithin depth l = (.ok (), rest) ∧
      Without (fun k => l <+: k ∧ k ≠ l) t rest)
    (clearable : Clearable t l (depth + 1)) (alterable : t.alterable l = true) (name : String) :
    ∃ rest, removeEntry depth l t (l ++ [name]) = (.ok (), rest) ∧
      Without (l ++ [name] <+: ·) t rest := by
  have some : l ++ [name] ≠ [] := by simp
  by_cases directory : ∃ mode, t.node? (l ++ [name]) = .some (.directory mode)
  · obtain ⟨mode, stands⟩ := directory
    obtain ⟨middle, cleared, taken⟩ := inner (clearable.child stands)
    have stays : ¬(l ++ [name] <+: l ∧ l ≠ l ++ [name]) := by
      rintro ⟨lower, -⟩
      exact child_not_above l name lower
    have still : middle.alterable l = true := by
      rw [taken.alterable stays]
      exact alterable
    refine ⟨middle.erase (l ++ [name]), ?_, (taken.trans (Without.erase middle _)).congr ?_⟩
    · simp [removeEntry, stands, searchable_of_alterable alterable, cleared, still]
    · intro x n _
      constructor
      · rintro (⟨lower, -⟩ | rfl)
        · exact lower
        · exact List.prefix_rfl
      · intro lower
        by_cases same : x = l ++ [name]
        · exact .inr same
        · exact .inl ⟨lower, same⟩
  · have bare : ∀ names, names ≠ [] → t.node? ((l ++ [name]) ++ names) = none := by
      intro names below
      exact clearable.rooted.nothing_below below fun mode stands => directory ⟨mode, stands⟩
    refine ⟨t.erase (l ++ [name]), ?_, erase_below some bare⟩
    rw [removeEntry]
    split
    · rename_i mode stands
      exact absurd ⟨mode, stands⟩ directory
    · rw [if_pos alterable]

/-- Clearing a directory takes away what is below it, and nothing else. -/
theorem clearWithin_clears (depth : Nat) {t : FileTree} {l : Location}
    (clearable : Clearable t l depth) :
    ∃ rest, t.clearWithin depth l = (.ok (), rest) ∧ Without (fun k => l <+: k ∧ k ≠ l) t rest := by
  induction depth generalizing t l with
  | zero =>
    refine ⟨t, rfl, (Without.refl t).congr ?_⟩
    intro k n stands
    refine ⟨False.elim, ?_⟩
    rintro ⟨⟨names, rfl⟩, below⟩
    have some : names ≠ [] := by
      rintro rfl
      exact below (List.append_nil l)
    rw [← node?_of_ne (by simp [some])] at stands
    have bound := clearable.shallow names n stands
    exact some (List.length_eq_zero_iff.mp (Nat.le_zero.mp bound))
  | succ depth ih =>
    have step : ∀ u, Clearable u l (depth + 1) ∧ (t.entries l ≠ [] → u.alterable l = true) →
        ∀ k ∈ t.entries l, ∃ rest, removeEntry depth l u k = (.ok (), rest) ∧
          Without (k <+: ·) u rest ∧
            Clearable rest l (depth + 1) ∧ (t.entries l ≠ [] → rest.alterable l = true) := by
      rintro u ⟨holds, change⟩ k member
      have alterable := change (List.ne_nil_of_mem member)
      obtain ⟨name, _, rfl, _⟩ := mem_entries.mp member
      obtain ⟨rest, removed, taken⟩ := removeEntry_takes ih holds alterable name
      have stays : ¬(l ++ [name] <+: l) := child_not_above l name
      refine ⟨rest, removed, taken, holds.without taken stays ?_, fun _ => ?_⟩
      · intro k x upper
        exact upper.trans (List.prefix_append k [x])
      · rw [taken.alterable stays]
        exact alterable
    obtain ⟨rest, cleared, taken⟩ :=
      untilFailure_clears (t.entries l) step t ⟨clearable, clearable.alterable⟩
    refine ⟨rest, ?_, taken.congr ?_⟩
    · rw [clearWithin_succ, clearable.readable]
      exact cleared
    · intro x n stands
      constructor
      · rintro ⟨k, member, lower⟩
        obtain ⟨name, _, rfl, _⟩ := mem_entries.mp member
        refine ⟨(List.prefix_append l [name]).trans lower, ?_⟩
        rintro rfl
        exact child_not_above x name lower
      · rintro ⟨⟨names, rfl⟩, below⟩
        cases names with
        | nil => simp at below
        | cons name names =>
          have prefixed : l ++ [name] <+: l ++ name :: names := ⟨names, by simp⟩
          rw [← node?_of_ne (by simp)] at stands
          refine ⟨l ++ [name], mem_entries.mpr ?_, prefixed⟩
          cases names with
          | nil => exact ⟨name, n, rfl, stands⟩
          | cons next rest =>
            have split : l ++ name :: next :: rest = (l ++ [name]) ++ (next :: rest) := by simp
            rw [split] at stands
            obtain ⟨mode, directory⟩ := clearable.rooted.above (List.cons_ne_nil next rest) stands
            exact ⟨name, _, rfl, directory⟩

/-- No location is longer than the tree is large: its beginnings are entries as well. -/
theorem length_le_size {t : FileTree} (rooted : t.Rooted) (stands : t.node? l = some n) :
    l.length ≤ t.nodes.size := by
  have beginnings : ((List.range l.length).map fun i => l.take (i + 1)).Nodup := by
    rw [List.Nodup, List.pairwise_map]
    refine List.pairwise_lt_range.imp_of_mem ?_
    intro i j inner outer before same
    have lengths := congrArg List.length same
    rw [List.length_take, List.length_take] at lengths
    have outer := List.mem_range.mp outer
    omega
  have entries : ((List.range l.length).map fun i => l.take (i + 1)) ⊆ t.nodes.keys := by
    intro k member
    obtain ⟨i, below, rfl⟩ := List.mem_map.mp member
    have below := List.mem_range.mp below
    have length : (l.take (i + 1)).length = i + 1 := List.length_take_of_le below
    have inner : l.take (i + 1) ≠ [] := by
      intro empty
      rw [empty, List.length_nil] at length
      omega
    have whole := List.take_append_drop (i + 1) l
    obtain ⟨m, there⟩ : ∃ m, t.node? (l.take (i + 1)) = some m := by
      by_cases last : l.drop (i + 1) = []
      · rw [last, List.append_nil] at whole
        exact ⟨n, by rw [whole, stands]⟩
      · rw [← whole] at stands
        obtain ⟨mode, directory⟩ := rooted.above last stands
        exact ⟨_, directory⟩
    rw [node?_of_ne inner] at there
    rw [Std.ExtTreeMap.mem_keys, Std.ExtTreeMap.mem_iff_isSome_getElem?, there]
    rfl
  have bound := beginnings.length_le_of_subset entries
  simpa [Std.ExtTreeMap.length_keys] using bound

/-- A directory that its owner may clear and take from the one above it is removed with all it
holds, whatever that is. -/
theorem removeTree_takes {t : FileTree} (rooted : t.Rooted) (reached : t.Reached l)
    (alterable : t.alterable l = true) (proper : Path.Proper name)
    (sound : childFault l name = none) (stands : t.node? (l ++ [name]) = some (.directory mode))
    (accessible : t.Open (l ++ [name])) :
    ∃ rest, t.removeTree (Path.absolute (l ++ [name])) = (.ok (), rest) ∧
      Without (l ++ [name] <+: ·) t rest := by
  have some : l ++ [name] ≠ [] := by simp
  have search : t.searchable l = true := searchable_of_alterable alterable
  have clearable : Clearable t (l ++ [name]) (t.nodes.size + 1) := by
    refine ⟨rooted, ⟨mode, stands⟩, accessible, ?_⟩
    intro names n below
    have bound := length_le_size rooted below
    rw [List.length_append] at bound
    omega
  obtain ⟨middle, cleared, taken⟩ := clearWithin_clears _ clearable
  have apart : ∀ k, k <+: l → ¬(l ++ [name] <+: k ∧ k ≠ l ++ [name]) := by
    rintro k upper ⟨lower, -⟩
    exact child_not_above l name (lower.trans upper)
  have stays : ¬(l ++ [name] <+: l ++ [name] ∧ l ++ [name] ≠ l ++ [name]) := fun away => away.2 rfl
  have found : t.lookupEntry (Path.absolute (l ++ [name])) = .ok (l ++ [name], .directory mode) := by
    have walked := reached.walk_found .entry search proper sound stands (by simp)
    rw [lookupEntry, Path.endsInSlash_child l proper, walked]
    rfl
  have removed : middle.removeDirectory (Path.absolute (l ++ [name])) =
      .ok (middle.erase (l ++ [name])) := by
    have reachedStill := taken.reached reached apart
    have alterableStill : middle.alterable l = true := by
      rw [taken.alterable (apart l List.prefix_rfl)]
      exact alterable
    have standsStill : middle.node? (l ++ [name]) = .some (.directory mode) := by
      rw [taken.node?_kept stays]
      exact stands
    have walked := reachedStill.walk_found .entry
      (searchable_of_alterable alterableStill) proper sound standsStill (by simp)
    have bare : middle.hasEntries (l ++ [name]) = false := by
      apply hasEntries_eq_false
      intro x
      apply taken.node?_gone (by simp)
      exact ⟨List.prefix_append _ _, by simp⟩
    rw [removeDirectory, walked]
    simp [bind, Except.bind, alterableStill, Node.isDirectory, bare]
  refine ⟨middle.erase (l ++ [name]), ?_, (taken.trans (Without.erase middle _)).congr ?_⟩
  · rw [removeTree, found]
    simp only [clear, cleared, removed]
  · intro x n _
    constructor
    · rintro (⟨lower, -⟩ | rfl)
      · exact lower
      · exact List.prefix_rfl
    · intro lower
      by_cases same : x = l ++ [name]
      · exact .inr same
      · exact .inl ⟨lower, same⟩

end MolecularTools.FileTree
