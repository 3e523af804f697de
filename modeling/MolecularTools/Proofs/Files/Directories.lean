import MolecularTools.Proofs.Files.Ends
import MolecularTools.Proofs.Task

/-! Directories that are reached by their names alone, and what is found by the paths of their
entries. -/
namespace MolecularTools.FileTree

/-- A directory whose path leads through no link, and which the owner may reach. -/
structure Reached (t : FileTree) (l : Location) : Prop where
  proper : Proper l
  stands : ∃ mode, t.node? l = some (.directory mode)
  searched : ∀ k, k <+: l → k ≠ l → t.searchable k = true

theorem child_not_above (l : Location) (name : String) : ¬(l ++ [name] <+: l) := by
  intro upper
  have longer := upper.length_le
  rw [List.length_append, List.length_singleton] at longer
  omega

/-- Why the path of an entry is refused whatever the tree holds. -/
def childFault (l : Location) (name : String) : Option IoError :=
  let p := Path.absolute (l ++ [name])
  if p.toList.any (·.toNat = 0) then some .nulInName
  else if pathBound < p.utf8ByteSize then some .nameTooLong
  else if nameBound < name.utf8ByteSize then some .nameTooLong
  else none

/-- A shorter name is not refused where a longer one is not. -/
theorem childFault_shorter {l : Location} {name more : String}
    (sound : childFault l (name ++ more) = none) : childFault l name = none := by
  have longer : Path.absolute (l ++ [name ++ more]) = Path.absolute (l ++ [name]) ++ more := by
    rw [Path.absolute_child, Path.absolute_child]
    split
    · simp only [String.append_assoc]
    · simp only [String.append_assoc]
  simp only [childFault, longer] at sound ⊢
  split at sound
  · contradiction
  rename_i unmarked
  split at sound
  · contradiction
  rename_i short
  split at sound
  · contradiction
  rename_i narrow
  rw [String.toList_append, List.any_append, Bool.or_eq_true, not_or] at unmarked
  rw [String.utf8ByteSize_append] at short narrow
  rw [if_neg unmarked.1, if_neg (by omega), if_neg (by omega)]

def hiddenFault (l : Location) (name : String) : IoError :=
  let p := Path.absolute (l ++ [name])
  if p.toList.any (·.toNat = 0) then .nulInName
  else if pathBound < p.utf8ByteSize then .nameTooLong
  else .permission

namespace Reached

variable {t : FileTree} {l k : Location}

theorem congr {u : FileTree} (reached : t.Reached l) (same : ∀ k, k <+: l → u.node? k = t.node? k) :
    u.Reached l := by
  obtain ⟨mode, stands⟩ := reached.stands
  refine ⟨reached.proper, ⟨mode, ?_⟩, ?_⟩
  · rw [same l List.prefix_rfl, stands]
  · intro k upper shorter
    rw [searchable_congr (same k upper)]
    exact reached.searched k upper shorter

theorem directory (reached : t.Reached l) (upper : k <+: l) :
    ∃ mode, t.node? k = some (.directory mode) := by
  by_cases same : k = l
  · rw [same]
    exact reached.stands
  · obtain ⟨mode, stands, _⟩ := searchable_directory (reached.searched k upper same)
    exact ⟨mode, stands⟩

/-- On the way to a reached directory each name leads to a directory. -/
theorem next (reached : t.Reached l) (split : k ++ name :: rest = l) :
    t.searchable k = true ∧ Path.Proper name ∧ name.utf8ByteSize ≤ nameBound ∧
      (∃ mode, t.node? (k ++ [name]) = some (.directory mode)) ∧ (k ++ [name]) ++ rest = l := by
  have shorter : k ≠ l := by
    rintro rfl
    simp at split
  have member : name ∈ l := by
    rw [← split]
    simp
  have further : (k ++ [name]) ++ rest = l := by
    rw [List.append_assoc]
    exact split
  obtain ⟨proper, short⟩ := reached.proper name member
  exact ⟨reached.searched k ⟨name :: rest, split⟩ shorter, proper, short,
    reached.directory ⟨rest, further⟩, further⟩

/-- A walk passes through the directories above. -/
theorem walkWith (reached : t.Reached l) {more : List String} (some : more ≠ []) (rest : List String)
    (split : k ++ rest = l) (slash : Bool) :
    FileTree.walkWith follow t aim none k slash (rest ++ more) =
      FileTree.walkWith follow t aim none l slash more := by
  induction rest generalizing k with
  | nil =>
    rw [List.append_nil] at split
    rw [split, List.nil_append]
  | cons name rest ih =>
    obtain ⟨search, proper, short, ⟨mode, stands⟩, next⟩ := reached.next split
    have continues : (rest ++ more).isEmpty = false := by
      cases rest with
      | nil => simpa using some
      | cons other others => rfl
    rw [List.cons_append, FileTree.walkWith, if_neg (by simp [search]), if_neg proper.not_here,
      if_neg proper.not_above, if_neg (Nat.not_lt.mpr short)]
    simp only [continues, stands, Bool.false_and, Bool.false_eq_true, if_false]
    exact ih next

/-- The walk to an entry of a directory begins with the walk to the directory. -/
theorem walk_down (reached : t.Reached l) (proper : Path.Proper name) :
    t.walk aim (Path.absolute (l ++ [name])) =
      let p := Path.absolute (l ++ [name])
      if p.toList.any (·.toNat = 0) then .error .nulInName
      else if pathBound < p.utf8ByteSize then .error .nameTooLong
      else FileTree.walkWith (walkWithin t aim (linkBound - 1)) t aim none l false [name] := by
  have named : Path.names (Path.absolute (l ++ [name])) = l ++ [name] :=
    Path.names_child reached.proper.each proper
  have last : walkWithin t aim linkBound [] (l ++ [name]) false =
      FileTree.walkWith (walkWithin t aim (linkBound - 1)) t aim none l false [name] :=
    reached.walkWith (List.cons_ne_nil name []) l rfl false
  rw [walk, named, Path.endsInSlash_child l proper, if_neg (Path.absolute_ne_empty _), last]

theorem walk_hidden (reached : t.Reached l) (hidden : t.searchable l = false)
    (proper : Path.Proper name) :
    t.walk aim (Path.absolute (l ++ [name])) = .error (hiddenFault l name) := by
  rw [reached.walk_down proper]
  simp only [hiddenFault]
  split
  · rfl
  split
  · rfl
  · rw [FileTree.walkWith, if_pos (by simp [hidden])]

/-- What the path of an entry leads to is decided by what stands under its name. -/
theorem walk_child (reached : t.Reached l) (search : t.searchable l = true)
    (proper : Path.Proper name) : t.walk aim (Path.absolute (l ++ [name])) =
      match childFault l name with
      | some e => .error e
      | none => match t.node? (l ++ [name]) with
        | none => .ok ⟨.vacant l name, false, none⟩
        | some (.link target) =>
          if aim = .entry then .ok ⟨.found (l ++ [name]) (.link target), false, none⟩
          else walkWithin t aim (linkBound - 1) (if Path.isAbsolute target then [] else l)
            (Path.names target) (Path.endsInSlash target)
        | some n => .ok ⟨.found (l ++ [name]) n, false, none⟩ := by
  rw [reached.walk_down proper]
  simp only [childFault]
  by_cases marked : (Path.absolute (l ++ [name])).toList.any (·.toNat = 0) = true
  · rw [if_pos marked, if_pos marked]
  rw [if_neg marked, if_neg marked]
  by_cases long : pathBound < (Path.absolute (l ++ [name])).utf8ByteSize
  · rw [if_pos long, if_pos long]
  rw [if_neg long, if_neg long]
  rw [FileTree.walkWith, if_neg (by simp [search]), if_neg proper.not_here,
    if_neg proper.not_above]
  by_cases wide : nameBound < name.utf8ByteSize
  · rw [if_pos wide, if_pos wide]
  rw [if_neg wide, if_neg wide]
  cases here : t.node? (l ++ [name]) with
  | none => simp [here]
  | some n =>
    cases n with
    | directory mode => simp [here]
    | file f => simp [here]
    | link target => simp [here]

theorem walk_vacant (reached : t.Reached l) (aim : Aim) (search : t.searchable l = true)
    (proper : Path.Proper name) (sound : childFault l name = none)
    (free : t.node? (l ++ [name]) = none) :
    t.walk aim (Path.absolute (l ++ [name])) = .ok ⟨.vacant l name, false, none⟩ := by
  rw [reached.walk_child search proper, sound, free]

theorem walk_found (reached : t.Reached l) (aim : Aim) (search : t.searchable l = true)
    (proper : Path.Proper name) (sound : childFault l name = none)
    (stands : t.node? (l ++ [name]) = some n) (solid : ∀ target, n ≠ .link target) :
    t.walk aim (Path.absolute (l ++ [name])) = .ok ⟨.found (l ++ [name]) n, false, none⟩ := by
  rw [reached.walk_child search proper, sound, stands]
  cases n with
  | link target => exact absurd rfl (solid target)
  | directory mode => rfl
  | file f => rfl

theorem walk_refused (reached : t.Reached l) (aim : Aim) (search : t.searchable l = true)
    (proper : Path.Proper name) (fault : childFault l name = some e) :
    t.walk aim (Path.absolute (l ++ [name])) = .error e := by
  rw [reached.walk_child search proper, fault]

end Reached

variable {t : FileTree} {l k : Location}

/-- Between a directory and one further down stands the directory itself or what is below its
next name. -/
theorem between {j : Location} (lower : k <+: j) (upper : j <+: k ++ name :: names) :
    j = k ∨ k ++ [name] <+: j := by
  obtain ⟨below, rfl⟩ := lower
  cases below with
  | nil => exact .inl (List.append_nil k)
  | cons first below =>
    obtain ⟨rest, same⟩ := upper
    rw [List.append_assoc, List.append_cancel_left_eq] at same
    obtain ⟨rfl, -⟩ := List.cons.inj same
    exact .inr ⟨below, by simp⟩

/-- A walk along the names of a directory searches all directories above it. -/
theorem Leads.searched (rooted : t.Rooted) (proper : Proper l)
    (stands : t.node? l = some (.directory mode))
    (leads : Leads t aim links last k slash rest spot) (whole : k ++ rest = l) :
    ∀ j, k <+: j → j <+: l → j ≠ l → t.searchable j = true := by
  intro j lower upper shorter
  have last : ∀ {k name}, k ++ [name] = l → ¬(k ++ [name] <+: j) := fun whole lower =>
    shorter (upper.eq_of_length_le (whole ▸ lower).length_le)
  induction leads with
  | stop =>
    rw [List.append_nil] at whole
    exact absurd (upper.eq_of_length_le (whole ▸ lower).length_le) shorter
  | here => exact absurd rfl (proper "." (by simp [← whole])).1.not_here
  | up => exact absurd rfl (proper ".." (by simp [← whole])).1.not_above
  | vacant search =>
    rcases between lower (whole ▸ upper) with rfl | below
    · exact search
    · exact absurd below (last whole)
  | entry search =>
    rcases between lower (whole ▸ upper) with rfl | below
    · exact search
    · exact absurd below (last whole)
  | into search _ _ _ _ ih =>
    rcases between lower (whole ▸ upper) with rfl | below
    · exact search
    · exact ih (by simpa using whole) below
  | @follow l name names _ _ _ _ _ search _ _ link =>
    have directory : ∃ mode, t.node? (l ++ [name]) = some (.directory mode) := by
      cases names with
      | nil => exact ⟨mode, whole ▸ stands⟩
      | cons next names =>
        rw [← whole, show l ++ name :: next :: names = (l ++ [name]) ++ (next :: names) by simp]
          at stands
        exact rooted.above (List.cons_ne_nil next names) stands
    obtain ⟨_, directory⟩ := directory
    rw [link] at directory
    cases Option.some.inj directory

/-- An existing directory that is named by its canonical path is reached by it. -/
theorem reached_of_canonical (rooted : t.Rooted) (canonical : t.canonical d = .ok d)
    (directory : t.isDirectory d = true) : ∃ l, t.Reached l ∧ d = Path.absolute l := by
  obtain ⟨-, l, node, found, named⟩ := canonical_ok canonical
  obtain ⟨slash, dots, walked, -⟩ := lookup_ok_iff.mp found
  have proper := walk_proper walked
  have stands := walk_stands rooted walked
  cases node with
  | file f => simp [isDirectory, found] at directory
  | link target => simp [isDirectory, found] at directory
  | directory mode =>
    refine ⟨l, ⟨proper, ⟨mode, stands⟩, ?_⟩, named.symm⟩
    have names : Path.names d = l := by
      rw [← named]
      exact proper.names_absolute
    have leads := (walk_ok_iff.mp walked).2
    rw [names] at leads
    exact fun j upper => leads.searched rooted proper stands rfl j List.nil_prefix upper

end MolecularTools.FileTree
