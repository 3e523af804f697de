import MolecularTools.Proofs.Files.Elsewhere
import MolecularTools.Proofs.Links

/-! Clearing the way for links in one directory. A file or a link under a name goes, a directory
stays and stops the work, and nothing else is touched. -/
namespace MolecularTools

namespace FileTree

theorem ext_nodes {t u : FileTree} (same : ∀ k : Location, t.nodes[k]? = u.nodes[k]?) : t = u :=
  congrArg FileTree.mk (Std.ExtTreeMap.ext_getElem? same)

theorem nodes_put (t : FileTree) (l k : Location) (n : Node) :
    (t.put l n).nodes[k]? = if l = k then some n else t.nodes[k]? := by
  simp [put, Std.ExtTreeMap.getElem?_insert]

theorem nodes_erase (t : FileTree) (l k : Location) :
    (t.erase l).nodes[k]? = if l = k then none else t.nodes[k]? := by
  simp [erase, Std.ExtTreeMap.getElem?_erase]

theorem erase_comm (t : FileTree) (k l : Location) : (t.erase k).erase l = (t.erase l).erase k := by
  apply ext_nodes
  intro j
  simp only [nodes_erase]
  split
  · rw [ite_self]
  · rfl

theorem erase_put (t : FileTree) (l : Location) (n : Node) : (t.put l n).erase l = t.erase l := by
  apply ext_nodes
  intro j
  simp only [nodes_erase, nodes_put]
  split
  · rfl
  · rfl

theorem put_erase (t : FileTree) (l : Location) (n : Node) : (t.erase l).put l n = t.put l n := by
  apply ext_nodes
  intro j
  simp only [nodes_erase, nodes_put]
  split
  · rfl
  · rfl

theorem erase_put_of_ne (t : FileTree) {k l : Location} (apart : k ≠ l) (n : Node) :
    (t.put k n).erase l = (t.erase l).put k n := by
  apply ext_nodes
  intro j
  simp only [nodes_erase, nodes_put]
  split
  · rename_i here
    rw [if_neg (here ▸ apart)]
  · rfl

theorem erase_vacant {t : FileTree} {l : Location} (inner : l ≠ []) (free : t.node? l = none) :
    t.erase l = t := by
  apply ext_nodes
  intro j
  rw [nodes_erase]
  split
  · rename_i here
    rw [← here, ← node?_of_ne inner, free]
  · rfl

/-- A directory is in the way of a link, unless its path is refused anyway. -/
def blocked (t : FileTree) (l : Location) (name : String) : Bool :=
  (childFault l name).isNone && (t.node? (l ++ [name])).any Node.isDirectory

def clearEntry (t : FileTree) (l : Location) (name : String) : FileTree :=
  if childFault l name = none then t.erase (l ++ [name]) else t

section

variable {t : FileTree} {l : Location} {name other : String}

theorem entry_ne (apart : name ≠ other) (l : Location) : l ++ [name] ≠ l ++ [other] := by
  simpa using apart

theorem node?_clearEntry {k : Location} (elsewhere : k ≠ l ++ [name]) :
    (t.clearEntry l name).node? k = t.node? k := by
  rw [clearEntry]
  split
  · rw [node?_erase t (by simp), if_neg elsewhere.symm]
  · rfl

theorem blocked_congr {u : FileTree} (same : u.node? (l ++ [name]) = t.node? (l ++ [name])) :
    u.blocked l name = t.blocked l name := by
  rw [blocked, same, blocked]

theorem blocked_clearEntry (t : FileTree) (l : Location) (name : String) :
    (t.clearEntry l name).blocked l name = false := by
  rw [blocked, clearEntry]
  cases childFault l name with
  | some e => rfl
  | none => simp [node?_erase]

theorem blocked_clearEntry_of_ne (apart : other ≠ name) :
    (t.clearEntry l name).blocked l other = t.blocked l other :=
  blocked_congr (node?_clearEntry (entry_ne apart l))

theorem clearEntry_clearEntry (t : FileTree) (l : Location) (name : String) :
    (t.clearEntry l name).clearEntry l name = t.clearEntry l name := by
  simp only [clearEntry]
  split
  · exact erase_vacant (by simp) (by simp [node?_erase])
  · rfl

theorem clearEntry_comm (t : FileTree) (l : Location) (name other : String) :
    (t.clearEntry l name).clearEntry l other = (t.clearEntry l other).clearEntry l name := by
  simp only [clearEntry]
  split
  · split
    · exact erase_comm _ _ _
    · rfl
  · rfl

theorem clearEntry_put (sound : childFault l name = none) (n : Node) :
    (t.put (l ++ [name]) n).clearEntry l name = t.clearEntry l name := by
  rw [clearEntry, if_pos sound, erase_put, clearEntry, if_pos sound]

theorem clearEntry_put_of_ne (apart : name ≠ other) (n : Node) :
    (t.put (l ++ [name]) n).clearEntry l other = (t.clearEntry l other).put (l ++ [name]) n := by
  simp only [clearEntry]
  split
  · exact erase_put_of_ne t (entry_ne apart l) n
  · rfl

theorem Reached.clearEntry (reached : t.Reached l) (name : String) :
    (t.clearEntry l name).Reached l :=
  reached.congr fun _ upper => node?_clearEntry (not_child_of_above upper)

theorem alterable_clearEntry (t : FileTree) (l : Location) (name : String) :
    (t.clearEntry l name).alterable l = t.alterable l :=
  alterable_congr (node?_clearEntry (by simp))

end

namespace Reached

variable {t : FileTree} {l : Location} {name : String}

theorem lookupEntry (reached : t.Reached l) (search : t.searchable l = true)
    (proper : Path.Proper name) : t.lookupEntry (Path.absolute (l ++ [name])) =
      match childFault l name with
      | some e => .error e
      | none => match t.node? (l ++ [name]) with
        | none => .error .noEntry
        | some n => .ok (l ++ [name], n) := by
  rw [FileTree.lookupEntry, if_neg (by simp [Path.endsInSlash_child l proper]),
    reached.walk_child search proper]
  cases childFault l name with
  | some e => rfl
  | none => cases t.node? (l ++ [name]) with
    | none => rfl
    | some n => cases n with
      | directory mode => rfl
      | file f => rfl
      | link target => rfl

/-- An entry that is no link stands for itself. -/
theorem lookup_unlinked (reached : t.Reached l) (search : t.searchable l = true)
    (proper : Path.Proper name)
    (unlinked : ∀ target,
      t.lookupEntry (Path.absolute (l ++ [name])) ≠ .ok (l ++ [name], .link target)) :
    t.lookup (Path.absolute (l ++ [name])) = t.lookupEntry (Path.absolute (l ++ [name])) := by
  rw [reached.lookupEntry search proper] at unlinked ⊢
  rw [FileTree.lookup, reached.walk_child search proper]
  cases fault : childFault l name with
  | some e => rfl
  | none =>
    rw [fault] at unlinked
    cases stands : t.node? (l ++ [name]) with
    | none => rfl
    | some n =>
      rw [stands] at unlinked
      cases n with
      | directory mode => rfl
      | file f => rfl
      | link target => exact absurd rfl (unlinked target)

theorem removeFile_entry (reached : t.Reached l) (alterable : t.alterable l = true)
    (proper : Path.Proper name) (sound : childFault l name = none)
    (stands : t.node? (l ++ [name]) = some n) (other : n.isDirectory = false) :
    t.removeFile (Path.absolute (l ++ [name])) = .ok (t.erase (l ++ [name])) := by
  have walked : t.walk .entry (Path.absolute (l ++ [name])) =
      .ok ⟨.found (l ++ [name]) n, false, none⟩ := by
    rw [reached.walk_child (searchable_of_alterable alterable) proper, sound, stands]
    cases n with
    | directory mode => rfl
    | file f => rfl
    | link target => rfl
  simp [FileTree.removeFile, walked, bind, Except.bind, alterable, other]

end Reached

end FileTree

theorem Machine.within_changing (f : FileTree → Except IoError FileTree) (context : String)
    (m : Machine) : (changing f).within context m = match f m.files with
      | .ok files => (.ok (), { m with files })
      | .error e => (.error ((Failure.ofIo e).within context), m) := by
  rw [Task.within_apply, changing_apply]
  cases f m.files with
  | ok files => rfl
  | error e => rfl

def occupied (p : String) : Failure :=
  .ofMessage (Text.quoted p ++ " exists and is not a file or symlink")

open FileTree

/-- How clearing the way at a path can end. -/
inductive Clears (p : String) (m : Machine) : Except Failure Unit × Machine → Prop where
  | removed (stale : (m.files.isLink p || m.files.isFile p) = true)
      (gone : m.files.removeFile p = .ok files) : Clears p m (.ok (), { m with files })
  | kept (stale : (m.files.isLink p || m.files.isFile p) = true)
      (failed : m.files.removeFile p = .error e) (reason : f.cause = .io e) : Clears p m (.error f, m)
  | occupied (other : (m.files.isLink p || m.files.isFile p) = false) :
      Clears p m (.error (occupied p), m)
  | vacant (other : (m.files.isLink p || m.files.isFile p) = false) : Clears p m (.ok (), m)

theorem removeStale_clears (w : Surroundings) (p : String) (m : Machine) :
    Clears p m (removeStale (Machine.host w) p m) := by
  have removal : ∀ context, (m.files.isLink p || m.files.isFile p) = true →
      Clears p m ((Machine.changing (·.removeFile p)).within context m) := by
    intro context stale
    rw [Machine.within_changing]
    cases removed : m.files.removeFile p with
    | ok files => exact .removed stale removed
    | error e => exact .kept stale removed rfl
  rw [removeStale]
  cases link : (Machine.host w).isLink p m with
  | true => exact removal _ (Bool.or_eq_true_iff.mpr (.inl link))
  | false =>
    cases file : (Machine.host w).isFile p m with
    | true => exact removal _ (Bool.or_eq_true_iff.mpr (.inr file))
    | false =>
      have other : (m.files.isLink p || m.files.isFile p) = false :=
        Bool.or_eq_false_iff.mpr ⟨link, file⟩
      cases (Machine.host w).pathExists p m with
      | true => exact .occupied other
      | false => exact .vacant other

variable {m : Machine} {l : Location} {name : String}

/-- Clearing the way takes the entry away, or stops at a directory and changes nothing. -/
theorem removeStale_entry (w : Surroundings) (reached : m.files.Reached l)
    (alterable : m.files.alterable l = true) (proper : Path.Proper name) :
    removeStale (Machine.host w) (Path.absolute (l ++ [name])) m =
      if m.files.blocked l name then (.error (occupied (Path.absolute (l ++ [name]))), m)
      else (.ok (), { m with files := m.files.clearEntry l name }) := by
  have search := searchable_of_alterable alterable
  have entry := reached.lookupEntry search proper
  have target := reached.lookup_unlinked search proper
  simp only [removeStale, Machine.host, isLink, isFile, pathExists, Machine.within_changing]
  cases fault : childFault l name with
  | some e =>
    rw [fault] at entry
    rw [entry] at target
    simp [entry, target, blocked, clearEntry, fault]
  | none =>
    rw [fault] at entry
    cases stands : m.files.node? (l ++ [name]) with
    | none =>
      rw [stands] at entry
      rw [entry] at target
      simp [entry, target, blocked, clearEntry, fault, stands, erase_vacant]
    | some n =>
      rw [stands] at entry
      rw [entry] at target
      have removed := reached.removeFile_entry alterable proper fault stands
      cases n with
      | directory mode => simp [entry, target, blocked, fault, stands, occupied, Node.isDirectory]
      | file f =>
        simp [entry, target, removed rfl, blocked, clearEntry, fault, stands,
          Node.isDirectory]
      | link target =>
        simp [entry, removed rfl, blocked, clearEntry, fault, stands,
          Node.isDirectory]

end MolecularTools
