import Bindery.Proofs.Locator.RoundTrip
import Bindery.Proofs.Path.Nested

/-!
# Completed ids

An id is completed by what it lacks of the text before it, which an id that names a subdirectory need not have, and of
the text after it (`Kind.complete_eq`).  What is complete stays as it is, and completed ids are complete
(`Kind.complete_complete`).  Under an empty root an id that has neither text in it comes back from its completion,
unless it names a subdirectory and makes, with the text after it, a text that begins with the one before it
(`Locator.completed_ids_come_back`).
-/

namespace Bindery

namespace Kind

variable {k : Kind} {id text : String}

/-! ### What is added -/

/-- The text that is put before an id to complete it. -/
def missingBefore (k : Kind) (id : String) : String :=
  if (Path.ofString id).IsNested ∨ k.before.toList <+: id.toList then "" else k.before

/-- The text that is put after an id to complete it. -/
def missingAfter (k : Kind) (id : String) : String := if k.after.toList <:+ id.toList then "" else k.after

theorem complete_eq (k : Kind) (id : String) : k.complete id = k.missingBefore id ++ id ++ k.missingAfter id := by
  unfold complete missingBefore missingAfter
  simp only [← List.isPrefixOf_iff_prefix, ← List.isSuffixOf_iff_suffix, Path.isNested_iff]
  congr 2
  cases (Path.ofString id).parent? with
  | none => cases k.before.toList.isPrefixOf id.toList <;> simp
  | some above =>
    cases hempty : above.isEmpty <;> cases k.before.toList.isPrefixOf id.toList <;> simp [hempty]

/-- The text has the text after an id at its end and, unless it names a subdirectory, the text before it at its
front. -/
def IsComplete (k : Kind) (text : String) : Prop :=
  k.after.toList <:+ text.toList ∧ ((Path.ofString text).IsNested ∨ k.before.toList <+: text.toList)

theorem complete_of_isComplete (h : k.IsComplete text) : k.complete text = text := by
  rw [complete_eq, missingBefore, if_pos h.2, missingAfter, if_pos h.1, String.empty_append, String.append_empty]

private theorem after_isSuffix (k : Kind) (id : String) : k.after.toList <:+ (id ++ k.missingAfter id).toList := by
  unfold missingAfter
  split
  · next h => rwa [String.append_empty]
  · rw [String.toList_append]
    exact List.suffix_append _ _

theorem isComplete_complete (k : Kind) (id : String) : k.IsComplete (k.complete id) := by
  rw [complete_eq, String.append_assoc]
  refine ⟨?_, ?_⟩
  · rw [String.toList_append]
    exact (after_isSuffix k id).trans (List.suffix_append _ _)
  unfold missingBefore
  split
  · next h =>
    rw [String.empty_append]
    refine h.imp (fun hnested => ?_) fun hbefore => ?_
    · rw [Path.ofString, Text.encode_append]
      exact hnested.append _
    · rw [String.toList_append]
      exact hbefore.trans (List.prefix_append _ _)
  · right
    rw [String.toList_append]
    exact List.prefix_append _ _

/-- Completed ids are complete, and nothing is added to them again. -/
theorem complete_complete (k : Kind) (id : String) :
    k.IsComplete (k.complete id) ∧ k.complete (k.complete id) = k.complete id :=
  ⟨isComplete_complete k id, complete_of_isComplete (isComplete_complete k id)⟩

/-! ### What is taken off again -/

/-- Neither of the convention's texts stands in the id, except one that is empty. -/
structure AbsentFrom (k : Kind) (id : String) : Prop where
  before : k.before ≠ "" → ¬ k.before.toList <:+: id.toList
  after : k.after ≠ "" → ¬ k.after.toList <:+: id.toList

theorem AbsentFrom.missingAfter_eq (h : k.AbsentFrom id) : k.missingAfter id = k.after := by
  unfold missingAfter
  split
  · next hafter =>
    by_contra hne
    exact h.after (Ne.symm hne) hafter.isInfix
  · rfl

theorem AbsentFrom.missingBefore_eq (h : k.AbsentFrom id) :
    k.missingBefore id = if (Path.ofString id).IsNested then "" else k.before := by
  unfold missingBefore
  by_cases hnested : (Path.ofString id).IsNested
  · rw [if_pos (.inl hnested), if_pos hnested]
  rw [if_neg hnested]
  split
  · next hor =>
    by_contra hne
    exact h.before (Ne.symm hne) (hor.resolve_left hnested).isInfix
  · rfl

theorem strip_append_after (k : Kind) (id : String) :
    k.strip (id ++ k.after) =
      if k.before.toList <+: (id ++ k.after).toList then String.ofList (id.toList.drop k.before.toList.length)
      else id := by
  have hafter : k.after.toList.isSuffixOf (id ++ k.after).toList = true := by
    rw [String.toList_append]
    exact List.isSuffixOf_iff_suffix.2 (List.suffix_append _ _)
  have hstop : (id ++ k.after).toList.length - k.after.toList.length = id.toList.length := by
    rw [String.toList_append, List.length_append, Nat.add_sub_cancel]
  have htake : (id ++ k.after).toList.take id.toList.length = id.toList := by
    rw [String.toList_append, List.take_left]
  unfold strip
  dsimp only
  rw [if_pos hafter, hstop, htake]
  simp only [List.isPrefixOf_iff_prefix]
  split
  · rfl
  · rw [List.drop_zero, String.ofList_toList]

/-- An id that has neither text in it comes back if the text before it was added, or if what was added does not make it
begin with that text. -/
theorem strip_complete (h : k.AbsentFrom id)
    (hnot : ¬ (Path.ofString id).IsNested ∨ k.before = "" ∨ ¬ k.before.toList <+: (id ++ k.after).toList) :
    k.strip (k.complete id) = id := by
  rw [complete_eq, h.missingBefore_eq, h.missingAfter_eq]
  split
  · next hnested =>
    rw [String.empty_append, strip_append_after]
    split
    · next hbefore =>
      have hempty : k.before = "" := (hnot.resolve_left (not_not_intro hnested)).resolve_right (not_not_intro hbefore)
      rw [hempty]
      exact String.ofList_toList
    · rfl
  · exact strip_fileName k id

theorem strip_complete_eq_empty (h : k.AbsentFrom id) (hnested : (Path.ofString id).IsNested) (hne : k.before ≠ "")
    (hbefore : k.before.toList <+: (id ++ k.after).toList) : k.strip (k.complete id) = "" := by
  have hlong : id.toList.length ≤ k.before.toList.length := by
    by_contra hshort
    rw [String.toList_append] at hbefore
    have hid := List.prefix_of_prefix_length_le hbefore (List.prefix_append _ _) (by omega)
    exact h.before hne hid.isInfix
  rw [complete_eq, h.missingBefore_eq, h.missingAfter_eq, if_pos hnested, String.empty_append, strip_append_after,
    if_pos hbefore, List.drop_eq_nil_of_le hlong]

end Kind

namespace Locator

variable {l : Locator} {id : String}

theorem idOf_ofString (hroot : l.root.isEmpty = true) (text : String) :
    l.idOf (.ofString text) = l.kind.strip text := by
  rw [idOf, Path.beneath, if_pos hroot, Path.display_ofString]

/-- Under an empty root, an id that has neither of the convention's texts in it comes back from its completion, unless
it names a subdirectory and begins with the text before ids once the text after it is there.  Of such an id nothing is
left. -/
theorem completed_ids_come_back (hroot : l.root.isEmpty = true) (h : l.kind.AbsentFrom id) :
    (¬ (Path.ofString id).IsNested ∨ l.kind.before = "" ∨ ¬ l.kind.before.toList <+: (id ++ l.kind.after).toList →
        l.idOf (.ofString (l.kind.complete id)) = id) ∧
      ((Path.ofString id).IsNested → l.kind.before ≠ "" → l.kind.before.toList <+: (id ++ l.kind.after).toList →
        l.idOf (.ofString (l.kind.complete id)) = "") := by
  rw [idOf_ofString hroot]
  exact ⟨Kind.strip_complete h, Kind.strip_complete_eq_empty h⟩

/-- A bare name, an id that names a subdirectory, and one of which nothing is left. -/
theorem bare_name_and_nested_ids :
    let l : Locator := ⟨⟨"dict", "dict/luna.", ".yaml"⟩, ⟨[]⟩⟩
    l.kind.complete "sol" = "dict/luna.sol.yaml" ∧ l.idOf (.ofString (l.kind.complete "sol")) = "sol" ∧
      l.kind.complete "dict/sol" = "dict/sol.yaml" ∧ l.idOf (.ofString (l.kind.complete "dict/sol")) = "dict/sol" ∧
      l.kind.complete "dict/luna" = "dict/luna.yaml" ∧ l.idOf (.ofString (l.kind.complete "dict/luna")) = "" := by
  intro l
  have hbare : l.kind.AbsentFrom "sol" := ⟨by decide +kernel, by decide +kernel⟩
  have hnested : l.kind.AbsentFrom "dict/sol" := ⟨by decide +kernel, by decide +kernel⟩
  have hlost : l.kind.AbsentFrom "dict/luna" := ⟨by decide +kernel, by decide +kernel⟩
  exact ⟨by decide +kernel, (completed_ids_come_back rfl hbare).1 (by decide +kernel),
    by decide +kernel, (completed_ids_come_back rfl hnested).1 (by decide +kernel),
    by decide +kernel, (completed_ids_come_back rfl hlost).2 (by decide +kernel) (by decide) (by decide +kernel)⟩

/-- The text before ids ends inside the text after one, so that both are taken off with the id between them. -/
theorem nested_id_is_lost :
    let l : Locator := ⟨⟨"dict", "dict/luna.", ".yaml"⟩, ⟨[]⟩⟩
    l.kind.complete "dict/luna" = "dict/luna.yaml" ∧
      ¬ "dict/luna.".toList <:+: "dict/luna".toList ∧ ¬ ".yaml".toList <:+: "dict/luna".toList ∧
      l.idOf (.ofString (l.kind.complete "dict/luna")) = "" := by
  decide +kernel

end Locator

end Bindery
