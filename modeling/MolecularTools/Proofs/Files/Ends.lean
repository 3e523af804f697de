import MolecularTools.Proofs.Files.Leads
import MolecularTools.Proofs.Files.Nodes
import MolecularTools.Proofs.Files.Paths

/-! What a walk tells about the place where it ended. -/
namespace MolecularTools.FileTree

def Proper (l : Location) : Prop := ∀ name ∈ l, Path.Proper name ∧ name.utf8ByteSize ≤ nameBound

theorem Proper.child {l : Location} (proper : Proper l) (name : Path.Proper x)
    (short : x.utf8ByteSize ≤ nameBound) : Proper (l ++ [x]) := by
  intro other member
  rcases List.mem_append.mp member with member | member
  · exact proper other member
  · rw [List.mem_singleton.mp member]
    exact ⟨name, short⟩

theorem Proper.each {l : Location} (proper : Proper l) : ∀ name ∈ l, Path.Proper name :=
  fun name member => (proper name member).1

theorem Proper.names_absolute {l : Location} (proper : Proper l) :
    Path.names (Path.absolute l) = l := Path.names_absolute proper.each

theorem Proper.above {l : Location} (proper : Proper l) : Proper l.dropLast :=
  fun name member => proper name (List.dropLast_subset l member)

/-- How a walk may end: in a directory if the last name was a dot or none at all, and else under
the last name in a directory that could be searched. -/
inductive Ends (t : FileTree) (aim : Aim) : Spot → Prop
  | directory : Proper l → (t.Rooted → t.node? l = some (.directory mode)) →
      Ends t aim ⟨.found l (.directory mode), slash, dots⟩
  | vacant : Proper (l ++ [name]) → t.searchable l = true → t.node? (l ++ [name]) = none →
      (aim = .create → slash = false) → Ends t aim ⟨.vacant l name, slash, none⟩
  | found : Proper (l ++ [name]) → t.searchable l = true → t.node? (l ++ [name]) = some n →
      (aim = .create → slash = false) → Ends t aim ⟨.found (l ++ [name]) n, slash, none⟩

variable {t : FileTree} {aim : Aim}

theorem Leads.ends (leads : Leads t aim links last l slash names spot) (proper : Proper l)
    (stands : t.Rooted → ∃ mode, t.node? l = some (.directory mode))
    (plain : ∀ name ∈ names, Path.Plain name) : Ends t aim spot := by
  have child : ∀ {l name}, Proper l → Sought name → Path.Plain name → Proper (l ++ [name]) :=
    fun proper sought plain => proper.child ⟨plain, sought.not_here, sought.not_above⟩ sought.short
  have flat : ∀ {slash : Bool}, (slash = true → aim ≠ .create) → aim = .create → slash = false :=
    fun ends making => Bool.eq_false_iff.mpr fun slashed => ends slashed making
  induction leads with
  | stop =>
    refine .directory proper fun rooted => ?_
    obtain ⟨mode, stands⟩ := stands rooted
    rw [directoryMode?_eq_some.mpr stands, stands]
    rfl
  | here search _ ih =>
    exact ih proper stands fun other member => plain other (List.mem_cons_of_mem _ member)
  | up search _ ih =>
    refine ih proper.above (fun rooted => ?_) fun other member =>
      plain other (List.mem_cons_of_mem _ member)
    obtain ⟨mode, stands⟩ := stands rooted
    exact rooted.dropLast stands
  | vacant search sought ends free =>
    exact .vacant (child proper sought (plain _ List.mem_cons_self)) search free (flat ends)
  | entry search sought ends here =>
    exact .found (child proper sought (plain _ List.mem_cons_self)) search here (flat ends)
  | into search sought further here _ ih =>
    refine ih (child proper sought (plain _ List.mem_cons_self)) (fun _ => ⟨_, here⟩) ?_
    exact fun other member => plain other (List.mem_cons_of_mem _ member)
  | follow search sought ends here _ ih =>
    refine ih ?_ ?_ ?_
    · split
      · exact fun _ member => absurd member List.not_mem_nil
      · exact proper
    · split
      · exact fun _ => ⟨_, node?_root t⟩
      · exact stands
    · intro other member
      rcases List.mem_append.mp member with member | member
      · exact Path.plain_of_mem_names member
      · exact plain other (List.mem_cons_of_mem _ member)

theorem walk_ends (walked : t.walk aim p = .ok spot) : Ends t aim spot := by
  refine (walk_ok_iff.mp walked).2.ends ?_ ?_ fun _ member => Path.plain_of_mem_names member
  · exact fun _ member => absurd member List.not_mem_nil
  · exact fun _ => ⟨_, node?_root t⟩

/-- What a walk found stands where it was found. -/
theorem walk_stands (rooted : t.Rooted) (walked : t.walk aim p = .ok ⟨.found l n, slash, dots⟩) :
    t.node? l = some n := by
  cases walk_ends walked with
  | directory proper stands => exact stands rooted
  | found proper search stands ends => exact stands

theorem walk_proper (walked : t.walk aim p = .ok ⟨.found l n, slash, dots⟩) : Proper l := by
  cases walk_ends walked with
  | directory proper stands => exact proper
  | found proper search stands ends => exact proper

end MolecularTools.FileTree
