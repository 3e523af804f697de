import MolecularTools.Proofs.Files.Directories

/-! Trees without some of their entries. -/
namespace MolecularTools

/-- No entry of a map is met by a search that no entry satisfies. -/
theorem forIn_unmet (l : List α) {p : α → Bool} (unmet : ∀ a ∈ l, p a = false) :
    (forIn l (none, ()) fun a _ =>
      if p a = true then pure (.done (some true, ())) else pure (.yield (none, ())) :
      Id (Option Bool × Unit)) = pure (none, ()) := by
  induction l with
  | nil => rfl
  | cons a l ih =>
    rw [List.forIn_cons, if_neg (by simp [unmet a List.mem_cons_self])]
    exact ih fun b member => unmet b (List.mem_cons_of_mem a member)

open Std in
theorem any_eq_false {α β : Type} {cmp : α → α → Ordering} [TransCmp cmp] [LawfulEqCmp cmp]
    (m : ExtTreeMap α β cmp) {p : α → β → Bool} (unmet : ∀ k v, m[k]? = some v → p k v = false) :
    m.any p = false := by
  obtain ⟨m⟩ := m
  induction m using ExtDTreeMap.inductionOn with
  | mk m =>
  show m.any p = false
  have entries : ∀ e ∈ DTreeMap.Const.toList m, p e.1 e.2 = false := by
    intro e member
    exact unmet e.1 e.2 (DTreeMap.Const.mem_toList_iff_get?_eq_some.mp member)
  have searched : (forIn m.inner (none, ()) fun (e : (_ : α) × β) (_ : Option Bool × Unit) =>
      if p e.1 e.2 = true then pure (.done (some true, ())) else pure (.yield (none, ())) :
      Id (Option Bool × Unit)) = pure (none, ()) :=
    DTreeMap.Internal.Impl.Const.forIn_eq_forIn_toList.trans
      (forIn_unmet (DTreeMap.Const.toList m) entries)
  rw [DTreeMap.any, DTreeMap.Internal.Impl.any, searched]
  rfl

namespace FileTree

theorem hasEntries_eq_false {t : FileTree} (bare : ∀ name, t.node? (l ++ [name]) = none) :
    t.hasEntries l = false := by
  apply any_eq_false
  intro k n stands
  rcases List.eq_nil_or_concat k with rfl | ⟨upper, name, rfl⟩
  · simp
  · rw [List.concat_eq_append] at stands ⊢
    have other : upper ≠ l := by
      rintro rfl
      have free := bare name
      rw [node?_of_ne (by simp), stands] at free
      contradiction
    simp [other]

theorem mem_entries {t : FileTree} :
    k ∈ t.entries l ↔ ∃ name n, k = l ++ [name] ∧ t.node? k = some n := by
  simp only [entries, List.mem_filter, Std.ExtTreeMap.mem_keys,
    Std.ExtTreeMap.mem_iff_isSome_getElem?]
  constructor
  · rintro ⟨member, inside⟩
    obtain ⟨n, stands⟩ := Option.isSome_iff_exists.mp member
    obtain ⟨inner, upper⟩ : k ≠ [] ∧ k.dropLast = l := by simpa using inside
    refine ⟨k.getLast inner, n, ?_, ?_⟩
    · rw [← upper, List.dropLast_concat_getLast]
    · rw [node?_of_ne inner, stands]
  · rintro ⟨name, n, rfl, stands⟩
    rw [node?_of_ne (by simp)] at stands
    simp [stands]

theorem entries_ne_nil_iff {t : FileTree} :
    t.entries l ≠ [] ↔ ∃ name n, t.node? (l ++ [name]) = some n := by
  constructor
  · intro some
    obtain ⟨k, member⟩ := List.exists_mem_of_ne_nil _ some
    obtain ⟨name, n, rfl, stands⟩ := mem_entries.mp member
    exact ⟨name, n, stands⟩
  · rintro ⟨name, n, stands⟩
    exact List.ne_nil_of_mem (mem_entries.mpr ⟨name, n, rfl, stands⟩)

/-- The second tree is the first one without some locations. -/
structure Without (out : Location → Prop) (whole rest : FileTree) : Prop where
  gone : ∀ k, out k → rest.nodes[k]? = none
  kept : ∀ k, ¬out k → rest.nodes[k]? = whole.nodes[k]?

namespace Without

variable {a b out : Location → Prop} {whole rest middle : FileTree}

theorem refl (t : FileTree) : Without (fun _ => False) t t :=
  ⟨fun _ absent => absent.elim, fun _ _ => rfl⟩

theorem erase (t : FileTree) (l : Location) : Without (· = l) t (t.erase l) := by
  constructor
  · rintro k rfl
    simp [FileTree.erase]
  · intro k other
    simp [FileTree.erase, Std.ExtTreeMap.getElem?_erase, Ne.symm other]

theorem trans (first : Without a whole middle) (second : Without b middle rest) :
    Without (fun k => a k ∨ b k) whole rest := by
  constructor
  · intro k gone
    by_cases later : b k
    · exact second.gone k later
    · rw [second.kept k later]
      exact first.gone k (gone.resolve_right later)
  · intro k stays
    rw [not_or] at stays
    rw [second.kept k stays.2, first.kept k stays.1]

/-- It only matters which entries are gone that were there. -/
theorem congr (taken : Without a whole rest)
    (same : ∀ (k : Location) n, whole.nodes[k]? = some n → (a k ↔ b k)) :
    Without b whole rest := by
  have absent : ∀ k : Location, whole.nodes[k]? = none → rest.nodes[k]? = none := by
    intro k free
    by_cases gone : a k
    · exact taken.gone k gone
    · rw [taken.kept k gone, free]
  constructor
  · intro k gone
    cases stands : whole.nodes[k]? with
    | none => exact absent k stands
    | some n => exact taken.gone k ((same k n stands).mpr gone)
  · intro k stays
    cases stands : whole.nodes[k]? with
    | none => exact absent k stands
    | some n =>
      rw [taken.kept k fun gone => stays ((same k n stands).mp gone), stands]

/-- Trees that agree on what is kept are the same without the rest. -/
theorem unique {other otherRest : FileTree} (taken : Without out whole rest)
    (otherTaken : Without out other otherRest)
    (agree : ∀ k, ¬out k → whole.nodes[k]? = other.nodes[k]?) : rest = otherRest := by
  have same : rest.nodes = otherRest.nodes := by
    apply Std.ExtTreeMap.ext_getElem?
    intro k
    by_cases gone : out k
    · rw [taken.gone k gone, otherTaken.gone k gone]
    · rw [taken.kept k gone, otherTaken.kept k gone, agree k gone]
  cases rest
  cases otherRest
  exact congrArg FileTree.mk same

theorem node?_kept (taken : Without out whole rest) (stays : ¬out k) :
    rest.node? k = whole.node? k := by
  rw [FileTree.node?, FileTree.node?, taken.kept k stays]

theorem node?_gone (taken : Without out whole rest) (inner : k ≠ []) (away : out k) :
    rest.node? k = none := by
  rw [node?_of_ne inner, taken.gone k away]

theorem stood (taken : Without out whole rest) (stands : rest.node? k = some n) :
    whole.node? k = some n := by
  by_cases root : k = []
  · rw [root] at stands ⊢
    exact stands
  · by_cases away : out k
    · rw [taken.node?_gone root away] at stands
      contradiction
    · rw [← taken.node?_kept away, stands]

theorem entries_ne_nil (taken : Without out whole rest) (some : rest.entries k ≠ []) :
    whole.entries k ≠ [] := by
  obtain ⟨name, n, stands⟩ := entries_ne_nil_iff.mp some
  exact entries_ne_nil_iff.mpr ⟨name, n, taken.stood stands⟩

theorem rooted (taken : Without out whole rest) (roots : whole.Rooted)
    (closed : ∀ k name, out k → out (k ++ [name])) : rest.Rooted := by
  intro l name n stands
  obtain ⟨mode, directory⟩ := roots l name n (taken.stood stands)
  have stays : ¬out l := by
    intro away
    rw [taken.node?_gone (by simp) (closed l name away)] at stands
    contradiction
  exact ⟨mode, by rw [taken.node?_kept stays, directory]⟩

theorem alterable (taken : Without out whole rest) (stays : ¬out k) :
    rest.alterable k = whole.alterable k :=
  alterable_congr (taken.node?_kept stays)

theorem reached (taken : Without out whole rest) (reached : whole.Reached l)
    (apart : ∀ k, k <+: l → ¬out k) : rest.Reached l :=
  reached.congr fun k upper => taken.node?_kept (apart k upper)

end Without

end FileTree

end MolecularTools
