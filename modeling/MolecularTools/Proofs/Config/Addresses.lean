import MolecularTools.Proofs.Config.Overlay

/-! The addresses of versions. A template is cut at its placeholders and joined again with the
version in their places; what was put in is never cut. As the parts in between stay the same, two
versions have one address only if they are equal. -/
namespace MolecularTools

section

/-! Lists joined by a separator. -/

variable {α : Type}

theorem intercalate_cons_head (sep : List α) (a : α) {parts : List (List α)} (some : parts ≠ []) :
    sep.intercalate (parts.modifyHead (a :: ·)) = a :: sep.intercalate parts := by
  obtain ⟨part, parts, rfl⟩ := List.exists_cons_of_ne_nil some
  cases parts with
  | nil => rfl
  | cons next parts => simp

theorem head_prefix_intercalate (sep part : List α) (parts : List (List α)) :
    part <+: sep.intercalate (part :: parts) := by
  cases parts with
  | nil => simp
  | cons next parts =>
    rw [List.intercalate_cons_cons, List.append_assoc]
    exact List.prefix_append _ _

theorem length_intercalate (sep part : List α) (parts : List (List α)) :
    (sep.intercalate (part :: parts)).length =
      (part :: parts).flatten.length + parts.length * sep.length := by
  induction parts generalizing part with
  | nil => simp
  | cons next parts ih =>
    rw [List.intercalate_cons_cons, List.length_append, List.length_append, ih]
    simp only [List.flatten_cons, List.length_append, List.length_cons, Nat.succ_mul]
    omega

/-- By their lengths, equal results have separators of one length. The first of these stand at one
place, behind the first part. -/
theorem intercalate_injective {parts : List (List α)} (two : 2 ≤ parts.length) :
    Function.Injective fun sep : List α => sep.intercalate parts := by
  intro v w same
  match parts, two with
  | part :: next :: parts, _ =>
    have lengths : (next :: parts).length * v.length = (next :: parts).length * w.length := by
      have sizes := congrArg List.length same
      simp only [length_intercalate] at sizes
      exact Nat.add_left_cancel sizes
    have equal : v.length = w.length := Nat.eq_of_mul_eq_mul_left (Nat.succ_pos _) lengths
    simp only [List.intercalate_cons_cons, List.append_assoc] at same
    exact List.append_inj_left (List.append_cancel_left same) equal

end

def placeholder : List Char := "\x7bversion\x7d".toList

/-- What stands between the placeholders of a template, empty parts included. -/
def templateParts : List Char → List (List Char)
  | [] => [[]]
  | '\x7b' :: 'v' :: 'e' :: 'r' :: 's' :: 'i' :: 'o' :: 'n' :: '\x7d' :: rest =>
    [] :: templateParts rest
  | c :: rest => (templateParts rest).modifyHead (c :: ·)

theorem templateParts_ne_nil (template : List Char) : templateParts template ≠ [] := by
  fun_induction templateParts template with
  | case1 => exact List.cons_ne_nil _ _
  | case2 rest ih => exact List.cons_ne_nil _ _
  | case3 c rest other ih => simpa using ih

theorem fillTemplate_eq (version template : List Char) :
    fillTemplate version template = version.intercalate (templateParts template) := by
  fun_induction templateParts template with
  | case1 => rfl
  | case2 rest ih =>
    obtain ⟨part, parts, split⟩ := List.exists_cons_of_ne_nil (templateParts_ne_nil rest)
    rw [fillTemplate, ih, split, List.intercalate_cons_cons, List.nil_append]
  | case3 c rest other ih =>
    rw [fillTemplate, ih, intercalate_cons_head version c (templateParts_ne_nil rest)]
    exact other

/-- Placeholders in the places of the placeholders give the template back. -/
theorem intercalate_templateParts (template : List Char) :
    placeholder.intercalate (templateParts template) = template := by
  fun_induction templateParts template with
  | case1 => rfl
  | case2 rest ih =>
    obtain ⟨part, parts, split⟩ := List.exists_cons_of_ne_nil (templateParts_ne_nil rest)
    rw [split, List.intercalate_cons_cons, ← split, ih]
    rfl
  | case3 c rest other ih =>
    rw [intercalate_cons_head _ c (templateParts_ne_nil rest), ih]

theorem templateParts_unmarked (template : List Char) :
    ∀ part ∈ templateParts template, ¬placeholder <:+: part := by
  fun_induction templateParts template with
  | case1 =>
    intro part member
    obtain rfl := List.mem_singleton.mp member
    decide
  | case2 rest ih =>
    intro part member
    rcases List.mem_cons.mp member with rfl | later
    · decide
    · exact ih part later
  | case3 c rest other ih =>
    have whole := intercalate_templateParts rest
    obtain ⟨head, parts, split⟩ := List.exists_cons_of_ne_nil (templateParts_ne_nil rest)
    rw [split] at ih whole ⊢
    intro part member
    rcases List.mem_cons.mp member with rfl | later
    · rw [List.infix_cons_iff]
      rintro (starts | within)
      · have begins : c :: head <+: c :: rest := by
          rw [← whole]
          exact List.cons_prefix_cons.mpr ⟨rfl, head_prefix_intercalate _ _ _⟩
        obtain ⟨behind, same⟩ := starts.trans begins
        obtain ⟨rfl, rfl⟩ := List.cons.inj same.symm
        exact other behind rfl rfl
      · exact ih head List.mem_cons_self within
    · exact ih part (List.mem_cons_of_mem _ later)

theorem two_le_templateParts {template : List Char} (marked : hasPlaceholder template = true) :
    2 ≤ (templateParts template).length := by
  fun_induction templateParts template with
  | case1 => contradiction
  | case2 rest ih =>
    have some : 0 < (templateParts rest).length :=
      List.length_pos_iff.mpr (templateParts_ne_nil rest)
    exact Nat.succ_le_succ some
  | case3 c rest other ih =>
    rw [hasPlaceholder] at marked
    · simpa using ih marked
    · exact other

theorem fillTemplate_injective {template : List Char} (marked : hasPlaceholder template = true) :
    Function.Injective fun version => fillTemplate version template := by
  simp only [fillTemplate_eq]
  exact intercalate_injective (two_le_templateParts marked)

namespace Config

/-- The address of a version joins the parts between the placeholders, none of which holds a
placeholder any more, and different versions have different addresses. -/
theorem primaryUrl_injective {c : Config} (valid : c.validate = .ok ()) :
    (∃ parts, 2 ≤ parts.length ∧ (∀ part ∈ parts, ¬placeholder <:+: part) ∧
      c.urlTemplate.toList = placeholder.intercalate parts ∧
      ∀ version, (c.primaryUrl version).toList = version.toList.intercalate parts) ∧
    Function.Injective c.primaryUrl := by
  have marked : hasPlaceholder c.urlTemplate.toList = true :=
    hasPlaceholder_iff.mpr (validate_ok_iff.mp valid).placeholder
  constructor
  · refine ⟨templateParts c.urlTemplate.toList, two_le_templateParts marked,
      templateParts_unmarked _, (intercalate_templateParts _).symm, ?_⟩
    intro version
    rw [primaryUrl, String.toList_ofList, fillTemplate_eq]
  · intro v w same
    have filled := String.ofList_inj.mp same
    exact String.toList_inj.mp (fillTemplate_injective marked filled)

/-- Braces around placeholders, and a version that looks like a placeholder itself. -/
theorem braced_addresses_differ : ∃ c : Config,
    c.urlTemplate = "\x7b\x7bversion\x7d/\x7bversion\x7bversion\x7d\x7d" ∧ c.validate = .ok () ∧
    c.primaryUrl "\x7bversion\x7d" = c.urlTemplate ∧
    c.primaryUrl "\x7bversion\x7d" ≠ c.primaryUrl "version\x7d/" := by
  have valid : validate { standard with
      urlTemplate := "\x7b\x7bversion\x7d/\x7bversion\x7bversion\x7d\x7d" } = .ok () := by
    decide +kernel
  refine ⟨_, rfl, valid, by decide +kernel, fun same => ?_⟩
  exact absurd ((primaryUrl_injective valid).2 same) (by decide)

end Config

end MolecularTools
