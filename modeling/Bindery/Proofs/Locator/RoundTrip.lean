import Bindery.Locator
import Bindery.Proofs.Path.Beneath

/-!
# From ids to paths and back

What is put around an id is taken off again (`Kind.strip_fileName`), and a root that a file name is put beneath is taken
off again, unless something at the ends of the file name gets lost with it (`Path.beneath_join`).  The other way round,
a path beneath the root is what the root makes with its part beneath the root (`Path.sameAs_join_beneath`).  So a
locator's ids and paths belong to each other (`Locator.ids_and_paths_correspond`).
-/

namespace Bindery

variable {root p q : Path}

/-! ### The text of a path -/

theorem Path.display_ofString (text : String) : (Path.ofString text).display = text := Text.lossy_encode text

theorem Path.ofString_display (h : Text.IsText p.bytes) : Path.ofString p.display = p := by
  obtain ⟨bytes⟩ := p
  obtain ⟨text, rfl⟩ : ∃ text, bytes = Text.encode text := h
  exact congrArg Path.ofString (Path.display_ofString text)

/-! ### Names of files -/

/-- The convention's two texts are taken off again, whatever stands between them. -/
theorem Kind.strip_fileName (k : Kind) (id : String) : k.strip (k.fileName id) = id := by
  have hchars : (k.fileName id).toList = (k.before.toList ++ id.toList) ++ k.after.toList := by
    rw [fileName, String.toList_append, String.toList_append]
  have hbefore : k.before.toList.isPrefixOf (k.fileName id).toList = true := by
    rw [hchars, List.append_assoc]
    exact List.isPrefixOf_iff_prefix.2 (List.prefix_append _ _)
  have hafter : k.after.toList.isSuffixOf (k.fileName id).toList = true := by
    rw [hchars]
    exact List.isSuffixOf_iff_suffix.2 (List.suffix_append _ _)
  have hstop : (k.fileName id).toList.length - k.after.toList.length = (k.before.toList ++ id.toList).length := by
    rw [hchars, List.length_append, Nat.add_sub_cancel]
  unfold strip
  dsimp only
  rw [if_pos hbefore, if_pos hafter, hstop, hchars, List.take_left, List.drop_left, String.ofList_toList]

/-- No more is taken off than the convention's two texts. -/
theorem Kind.length_le_strip (k : Kind) (text : String) :
    text.length ≤ (k.strip text).length + k.before.length + k.after.length := by
  unfold strip
  dsimp only
  rw [String.length_ofList, List.length_drop, List.length_take, ← String.length_toList, ← String.length_toList,
    ← String.length_toList]
  split <;> split <;> omega

/-! ### Parts beneath roots -/

namespace Path

theorem beneath_of_stripRoot? (hroot : root.isEmpty = false) (h : root.stripRoot? p = some q) : root.beneath p = q := by
  rw [beneath, hroot, if_neg Bool.false_ne_true, h, Option.getD_some]

theorem beneath_of_not_isBeneath (hroot : root.isEmpty = false) (h : ¬ p.IsBeneath root) : root.beneath p = p := by
  have hnone : root.stripRoot? p = none := by
    rwa [← isSome_stripRoot? hroot, Bool.not_eq_true, Option.isSome_eq_false_iff, Option.isNone_iff_eq_none] at h
  rw [beneath, hroot, if_neg Bool.false_ne_true, hnone, Option.getD_none]

theorem beneath_join (h : root.isEmpty = true ∨ q.Trimmed) : root.beneath (root.join q) = q := by
  cases hroot : root.isEmpty with
  | true => rw [beneath, if_pos hroot, join_of_isEmpty hroot]
  | false =>
    have hq : q.Trimmed := h.resolve_left (by simp [hroot])
    exact beneath_of_stripRoot? hroot (stripRoot?_join hroot hq)

theorem sameAs_join_beneath (h : root.isEmpty = true ∨ p.IsBeneath root) :
    (root.join (root.beneath p)).sameAs p = true := by
  rw [sameAs, decide_eq_true_eq]
  cases hroot : root.isEmpty with
  | true => rw [join_of_isEmpty hroot, beneath, if_pos hroot]
  | false =>
    have hp : p.IsBeneath root := h.resolve_left (by simp [hroot])
    obtain ⟨q, hq⟩ := Option.isSome_iff_exists.1 ((isSome_stripRoot? hroot).2 hp)
    obtain ⟨htrim, hcomponents⟩ := trimmed_of_stripRoot? hroot hq
    rw [beneath_of_stripRoot? hroot hq, components_join hroot htrim.isAbsolute, hcomponents]

theorem isText_beneath (h : Text.IsText p.bytes) : Text.IsText (root.beneath p).bytes := by
  cases hroot : root.isEmpty with
  | true => rwa [beneath, if_pos hroot]
  | false =>
    cases hstrip : root.stripRoot? p with
    | none => rwa [beneath, hroot, if_neg Bool.false_ne_true, hstrip, Option.getD_none]
    | some q =>
      rw [beneath_of_stripRoot? hroot hstrip]
      exact isText_of_stripRoot? hroot hstrip h

end Path

/-! ### Ids and paths -/

namespace Locator

theorem idOf_resolve {l : Locator} {id : String}
    (h : l.root.isEmpty = true ∨ (Path.ofString (l.kind.fileName id)).Trimmed) : l.idOf (l.resolve id) = id := by
  rw [idOf, resolve, Path.beneath_join h, Path.display_ofString, Kind.strip_fileName]

/-- The path of an id gives the id back, where the root is empty or the name of the file is trimmed.  Text that is a
path beneath the root, of which the part beneath the root is the name of a file, gives an id of which the path is that
one, component by component. -/
theorem ids_and_paths_correspond (l : Locator) :
    (∀ id, l.root.isEmpty = true ∨ (Path.ofString (l.kind.fileName id)).Trimmed → l.idOf (l.resolve id) = id) ∧
      ∀ text x, l.root.isEmpty = true ∨ (Path.ofString text).IsBeneath l.root →
        (l.root.beneath (.ofString text)).display = l.kind.fileName x →
          (l.resolve (l.idOf (.ofString text))).sameAs (.ofString text) = true := by
  refine ⟨fun id h => idOf_resolve h, fun text x h hname => ?_⟩
  have hbeneath : Path.ofString (l.kind.fileName x) = l.root.beneath (.ofString text) := by
    rw [← hname]
    exact Path.ofString_display (Path.isText_beneath (Text.isText_encode text))
  rw [idOf, hname, Kind.strip_fileName, resolve, hbeneath]
  exact Path.sameAs_join_beneath h

/-- An id that begins and ends like the texts put around it, under a root with dots and slashes that make no
component, and a path with others. -/
theorem id_with_texts_around_it_twice :
    ∃ l : Locator, l.root = .ofString "./r//s/." ∧ l.kind.fileName "a.a" = "d/aa.a.a" ∧
      l.idOf (l.resolve "a.a") = "a.a" ∧
        (l.resolve (l.idOf (.ofString ".//r/s/./d/aa.a.a/."))).sameAs (.ofString ".//r/s/./d/aa.a.a/.") = true := by
  let l : Locator := ⟨⟨"dict", "d/a", ".a"⟩, .ofString "./r//s/."⟩
  have hname : (Path.ofString "d/aa.a.a").Trimmed := by decide +kernel
  have hbeneath : (Path.ofString ".//r/s/./d/aa.a.a/.").IsBeneath l.root := by decide +kernel
  have htext : (l.root.beneath (.ofString ".//r/s/./d/aa.a.a/.")).display = "d/aa.a.a" := by decide +kernel
  exact ⟨l, rfl, rfl, (ids_and_paths_correspond l).1 "a.a" (.inr hname),
    (ids_and_paths_correspond l).2 ".//r/s/./d/aa.a.a/." "a.a" (.inr hbeneath) htext⟩

end Locator

end Bindery
