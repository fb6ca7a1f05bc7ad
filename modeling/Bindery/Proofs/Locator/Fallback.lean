import Bindery.Proofs.Locator.RoundTrip

/-!
# From ids to paths under two roots, and back

A path beneath the first root gives the id that it has under that root alone (`FallbackLocator.idOf_of_isBeneath`), any
other path the one that it has under the second root alone (`FallbackLocator.idOf_of_not_isBeneath`).  So an id comes
back from its path, unless that is a path under the second root which is beneath the first root as well
(`FallbackLocator.idOf_resolve`).  This does not happen where the roots are the same or neither is beneath the other
(`FallbackLocator.ids_come_back_unless_roots_nest`).  Where the second root is properly beneath the first, no id comes
back from a path under the second (`FallbackLocator.idOf_resolve_ne`), and where either is beneath the other two ids
can have one path (`FallbackLocator.nested_roots_give_two_ids_one_path`).
-/

namespace Bindery

variable {p q root : Path}

/-! ### Paths beneath one of two roots -/

namespace Path

theorem isBeneath_join (hq : q.isAbsolute = false) : (root.join q).IsBeneath root := by
  unfold IsBeneath
  cases hroot : root.isEmpty with
  | true =>
    rw [components_of_isEmpty hroot]
    exact List.nil_prefix
  | false =>
    rw [components_join hroot hq]
    exact List.prefix_append _ _

/-- Of two roots of one path, one is beneath the other. -/
theorem IsBeneath.comparable {root' : Path} (h : p.IsBeneath root) (h' : p.IsBeneath root') :
    root.IsBeneath root' ∨ root'.IsBeneath root :=
  (List.prefix_or_prefix_of_prefix h h').symm

theorem beneath_congr {root' : Path} (hroot : root.isEmpty = false) (hroot' : root'.isEmpty = false)
    (h : root.components = root'.components) : root.beneath p = root'.beneath p := by
  rw [beneath, beneath, hroot, hroot', stripRoot?_congr h]

/-- What is left of a path beneath a root is another path. -/
theorem sameAs_beneath (hroot : root.isEmpty = false) (h : p.IsBeneath root) : (root.beneath p).sameAs p = false := by
  obtain ⟨q, hq⟩ := Option.isSome_iff_exists.1 ((isSome_stripRoot? hroot).2 h)
  obtain ⟨htrim, hcomponents⟩ := trimmed_of_stripRoot? hroot hq
  rw [beneath_of_stripRoot? hroot hq, sameAs, decide_eq_false_iff_not, htrim.components_eq, hcomponents]
  intro heq
  exact components_ne_nil hroot (List.append_left_eq_self.1 heq.symm)

end Path

/-! ### Two roots -/

namespace FallbackLocator

variable {l : FallbackLocator} {fs : FileSystem} {id : String}

/-- The paths at which a source may be. -/
def candidates (l : FallbackLocator) (id : String) : List Path :=
  l.primary.resolve id :: (l.fallbackPath? id).toList

theorem resolve_mem_candidates (l : FallbackLocator) (fs : FileSystem) (id : String) :
    l.resolve fs id ∈ l.candidates id := by
  unfold resolve candidates
  split
  · exact List.mem_cons_self
  · cases hf : (l.fallbackPath? id).filter fs.pathExists with
    | none => exact List.mem_cons_self
    | some c =>
      have hc : l.fallbackPath? id = some c := Option.eq_some_of_filter_eq_some hf
      simp [hc]

/-- The locator for the second root alone. -/
def second (l : FallbackLocator) (root : Path) : Locator := ⟨l.primary.kind, root⟩

theorem resolve_cases (h : l.fallback = some root) :
    l.resolve fs id = l.primary.resolve id ∨ l.resolve fs id = (l.second root).resolve id := by
  have hmem := l.resolve_mem_candidates fs id
  rw [candidates, fallbackPath?, h, Option.map_some, Option.toList_some, List.mem_pair] at hmem
  exact hmem

theorem idOf_of_isBeneath (hroot : l.primary.root.isEmpty = false) (h : p.IsBeneath l.primary.root) :
    l.idOf p = l.primary.idOf p := by
  unfold idOf
  dsimp only
  rw [Path.sameAs_beneath hroot h, if_neg Bool.false_ne_true]
  rfl

theorem idOf_of_not_isBeneath (hfallback : l.fallback = some root) (hroot : l.primary.root.isEmpty = false)
    (h : ¬ p.IsBeneath l.primary.root) : l.idOf p = (l.second root).idOf p := by
  have hsame : p.sameAs p = true := decide_eq_true rfl
  unfold idOf
  dsimp only
  rw [Path.beneath_of_not_isBeneath hroot h, hsame, if_pos rfl, hfallback]
  rfl

/-- Unless the path is one under the second root that is beneath the first root as well, the id comes back. -/
theorem idOf_resolve (hfallback : l.fallback = some root) (hroot : l.primary.root.isEmpty = false)
    (hname : (Path.ofString (l.primary.kind.fileName id)).Trimmed)
    (h : l.resolve fs id = l.primary.resolve id ∨ ¬ (l.resolve fs id).IsBeneath l.primary.root) :
    l.idOf (l.resolve fs id) = id := by
  have hprimary : (l.primary.resolve id).IsBeneath l.primary.root := Path.isBeneath_join hname.isAbsolute
  rcases h with h | h
  · rw [h, idOf_of_isBeneath hroot hprimary]
    exact Locator.idOf_resolve (.inr hname)
  · have hsecond : l.resolve fs id = (l.second root).resolve id := by
      refine (resolve_cases hfallback).resolve_left fun hfirst => h ?_
      rw [hfirst]
      exact hprimary
    rw [idOf_of_not_isBeneath hfallback hroot h, hsecond]
    exact Locator.idOf_resolve (.inr hname)

theorem idOf_resolve_of_sameAs (hfallback : l.fallback = some root) (hroot : l.primary.root.isEmpty = false)
    (hname : (Path.ofString (l.primary.kind.fileName id)).Trimmed) (h : root.sameAs l.primary.root = true) :
    l.idOf (l.resolve fs id) = id := by
  have hcomponents : root.components = l.primary.root.components := of_decide_eq_true h
  have hnested := Path.isBeneath_of_components_eq hcomponents
  have hsecond := hnested.isEmpty_eq_false hroot
  rcases resolve_cases hfallback with hpath | hpath
  · exact idOf_resolve hfallback hroot hname (.inl hpath)
  · have hbeneath : (l.resolve fs id).IsBeneath l.primary.root := by
      rw [hpath]
      exact (Path.isBeneath_join hname.isAbsolute).trans hnested
    have hid : (l.second root).idOf ((l.second root).resolve id) = id := Locator.idOf_resolve (.inr hname)
    rw [idOf_of_isBeneath hroot hbeneath, hpath, Locator.idOf, Path.beneath_congr hroot hsecond hcomponents.symm]
    exact hid

/-- Where the second root is properly beneath the first, no id comes back from a path under it. -/
theorem idOf_resolve_ne (hroot : l.primary.root.isEmpty = false) (htext : Text.IsText root.bytes)
    (hbeneath : root.IsBeneath l.primary.root) (hne : root.components ≠ l.primary.root.components)
    (hname : (Path.ofString (l.primary.kind.fileName id)).Trimmed) (hid : l.primary.kind.fileName id ≠ "")
    (hpath : l.resolve fs id = (l.second root).resolve id) : l.idOf (l.resolve fs id) ≠ id := by
  have hnonempty : (Path.ofString (l.primary.kind.fileName id)).isEmpty = false := by
    rw [Bool.eq_false_iff]
    intro hempty
    have hdisplay := Path.display_ofString (l.primary.kind.fileName id)
    rw [Path.display, List.isEmpty_iff.1 hempty] at hdisplay
    exact hid (hdisplay.symm.trans (Text.lossy_encode ""))
  obtain ⟨bytes, hstrip⟩ := Path.stripRoot?_join_of_isBeneath hroot hbeneath hne hname hnonempty
  have hrest := Path.isText_of_stripRoot? hroot hstrip (Path.isText_join htext (Text.isText_encode _))
  obtain ⟨text, rfl⟩ := ((Text.isText_append_cons (a := '/') (by decide)).1 hrest).1
  have hofString : (⟨Text.encode text ++ Path.slash :: (Path.ofString (l.primary.kind.fileName id)).bytes⟩ : Path) =
      .ofString (text ++ "/" ++ l.primary.kind.fileName id) := by
    rw [Path.ofString, Path.ofString, Text.encode_append, Text.encode_append, List.append_assoc]
    rfl
  have hinner : (root.join (.ofString (l.primary.kind.fileName id))).IsBeneath l.primary.root :=
    (Path.isBeneath_join hname.isAbsolute).trans hbeneath
  rw [hpath]
  intro heq
  rw [Locator.resolve, second, idOf_of_isBeneath hroot hinner, Locator.idOf, Path.beneath_of_stripRoot? hroot hstrip,
    hofString, Path.display_ofString] at heq
  -- what is taken off is too short for the slash
  have hlen := l.primary.kind.length_le_strip (text ++ "/" ++ l.primary.kind.fileName id)
  rw [heq, Kind.fileName] at hlen
  have hslash : "/".length = 1 := rfl
  simp only [String.length_append] at hlen
  omega

/-- An id comes back from its path if the roots are the same or neither is beneath the other, and in any case if the
path is the one under the first root or not beneath the first root.  From each other path comes back the id that it has
under the first root. -/
theorem ids_come_back_unless_roots_nest (l : FallbackLocator) (root : Path) (fs : FileSystem) (id : String)
    (hfallback : l.fallback = some root) (habs : l.primary.root.isAbsolute = true)
    (hname : (Path.ofString (l.primary.kind.fileName id)).Trimmed) :
    (root.sameAs l.primary.root = true ∨ (¬ root.IsBeneath l.primary.root ∧ ¬ l.primary.root.IsBeneath root) ∨
        l.resolve fs id = l.primary.resolve id ∨ ¬ (l.resolve fs id).IsBeneath l.primary.root →
      l.idOf (l.resolve fs id) = id) ∧
    ((l.resolve fs id).IsBeneath l.primary.root → l.idOf (l.resolve fs id) = l.primary.idOf (l.resolve fs id)) := by
  have hroot : l.primary.root.isEmpty = false := Path.isEmpty_of_isAbsolute habs
  refine ⟨fun h => ?_, idOf_of_isBeneath hroot⟩
  rcases h with h | ⟨h, h'⟩ | h
  · exact idOf_resolve_of_sameAs hfallback hroot hname h
  · refine idOf_resolve hfallback hroot hname ((resolve_cases hfallback).imp_right fun hpath hbeneath => ?_)
    have hsecond : (l.resolve fs id).IsBeneath root := hpath ▸ Path.isBeneath_join hname.isAbsolute
    exact (hsecond.comparable hbeneath).elim h h'
  · exact idOf_resolve hfallback hroot hname h

/-- A file under the second of two unrelated roots, and the same file where its directory is the second root and the
one above that the first. -/
theorem ids_of_file_under_second_root :
    ∃ (fs : FileSystem) (l l' : FallbackLocator),
      (l.primary.root = .ofString "/c" ∧ l.fallback = some (.ofString "/a//b")) ∧
      (l'.primary.root = .ofString "/a/." ∧ l'.fallback = some (.ofString "/a//b")) ∧
      (l.resolve fs "x" = .ofString "/a//b/x.d" ∧ l'.resolve fs "x" = .ofString "/a//b/x.d") ∧
      l.idOf (l.resolve fs "x") = "x" ∧ l'.idOf (l'.resolve fs "x") = l'.primary.idOf (l'.resolve fs "x") := by
  let fs := (((FileSystem.bare ⟨0⟩).putDirectory [Text.encode "a"] ⟨0⟩).putDirectory
    [Text.encode "a", Text.encode "b"] ⟨0⟩).addFile [Text.encode "a", Text.encode "b", Text.encode "x.d"]
    ⟨.ofList [], ⟨0⟩⟩
  let second := Path.ofString "/a//b"
  let l : FallbackLocator := ⟨⟨⟨"dict", "", ".d"⟩, .ofString "/c"⟩, some second⟩
  let l' : FallbackLocator := ⟨⟨⟨"dict", "", ".d"⟩, .ofString "/a/."⟩, some second⟩
  have hname : (Path.ofString "x.d").Trimmed := by decide +kernel
  have hresolve : l.resolve fs "x" = .ofString "/a//b/x.d" := by decide +kernel
  have hresolve' : l'.resolve fs "x" = .ofString "/a//b/x.d" := by decide +kernel
  have hroots : ¬ second.IsBeneath (.ofString "/c") ∧ ¬ (Path.ofString "/c").IsBeneath second := by decide +kernel
  have hbeneath : (l'.resolve fs "x").IsBeneath (.ofString "/a/.") := by decide +kernel
  refine ⟨fs, l, l', ⟨rfl, rfl⟩, ⟨rfl, rfl⟩, ⟨hresolve, hresolve'⟩, ?_, ?_⟩
  · exact (ids_come_back_unless_roots_nest l second fs "x" rfl rfl hname).1 (.inr (.inl hroots))
  · exact (ids_come_back_unless_roots_nest l' second fs "x" rfl rfl hname).2 hbeneath

/-- One file beneath both of two roots, the second above the first, and the other way round. -/
theorem nested_roots_give_two_ids_one_path :
    ∃ (fs : FileSystem) (l l' : FallbackLocator),
      (l.primary.root = .ofString "/a/b" ∧ l.fallback = some (.ofString "/a")) ∧
      (l'.primary.root = .ofString "/a" ∧ l'.fallback = some (.ofString "/a/b")) ∧
      (l.primary.kind.fileName "b/x" = "b/x" ∧ l'.primary.kind.fileName "x" = "x") ∧
      (l.resolve fs "b/x" = l.resolve fs "x" ∧ l'.resolve fs "x" = l'.resolve fs "b/x") ∧
      l.idOf (l.resolve fs "b/x") = "x" ∧ l'.idOf (l'.resolve fs "x") = "b/x" := by
  let a := Text.encode "a"
  let b := Text.encode "b"
  let fs := (((FileSystem.bare ⟨0⟩).putDirectory [a] ⟨0⟩).putDirectory [a, b] ⟨0⟩).addFile [a, b, Text.encode "x"]
    ⟨.ofList [], ⟨0⟩⟩
  let kind : Kind := ⟨"dict", "", ""⟩
  let l : FallbackLocator := ⟨⟨kind, .ofString "/a/b"⟩, some (.ofString "/a")⟩
  let l' : FallbackLocator := ⟨⟨kind, .ofString "/a"⟩, some (.ofString "/a/b")⟩
  refine ⟨fs, l, l', ⟨rfl, rfl⟩, ⟨rfl, rfl⟩, ⟨rfl, rfl⟩, ?_, ?_⟩ <;> decide +kernel

end FallbackLocator

end Bindery
