import Bindery.Proofs.FileSystem.SameFile
import Bindery.Proofs.Locator.Fallback
import Bindery.Source

/-!
# What is found under two roots

A source is looked for at the first of its candidate paths at which anything is, and is found if that is a file
(`Source.path_locate`).  So every file under either root is found, the one under the first root before the other, unless
there is a directory in the place of the file under the first root: that hides the file under the second
(`Source.found_unless_directory_is_first`, `Source.directory_hides_second_root`).
-/

namespace Bindery

open FileSystem

variable {fs : FileSystem} {l : FallbackLocator} {root : Path} {id : String}

namespace FallbackLocator

/-- The path of an id is the first of its candidates at which anything is, or else the first of all. -/
theorem resolve_eq (l : FallbackLocator) (fs : FileSystem) (id : String) :
    l.resolve fs id = ((l.candidates id).find? fs.pathExists).getD (l.primary.resolve id) := by
  unfold resolve candidates
  by_cases hfirst : fs.pathExists (l.primary.resolve id) = true
  · rw [if_pos hfirst, List.find?_cons_of_pos hfirst, Option.getD_some]
  · rw [if_neg hfirst, List.find?_cons_of_neg hfirst]
    cases l.fallbackPath? id with
    | none => rfl
    | some second => cases hsecond : fs.pathExists second <;> simp [Option.filter, hsecond]

theorem candidates_eq (h : l.fallback = some root) :
    l.candidates id = [l.primary.resolve id, (l.second root).resolve id] := by
  rw [candidates, fallbackPath?, h]
  rfl

end FallbackLocator

namespace Source

theorem loaded_locate (fs : FileSystem) (resolver : Resolver) (id : String) :
    (locate fs resolver id).loaded = (locate fs resolver id).path.isSome := by
  unfold locate
  dsimp only
  split <;> rfl

/-- A source is found at the first candidate at which anything is, if that is a file. -/
theorem path_locate (fs : FileSystem) (l : FallbackLocator) (id : String) :
    (locate fs (.fallback l) id).path = ((l.candidates id).find? fs.pathExists).filter fs.isFile := by
  have hresolve : Resolver.resolve (.fallback l) fs id =
      ((l.candidates id).find? fs.pathExists).getD (l.primary.resolve id) := l.resolve_eq fs id
  unfold locate
  rw [hresolve]
  cases hfound : (l.candidates id).find? fs.pathExists with
  | some p => cases hfile : fs.isFile p <;> simp [Option.filter, hfile]
  | none =>
    -- nothing is at the first path, and so no file
    have hnothing : ¬ fs.pathExists (l.primary.resolve id) = true :=
      List.find?_eq_none.1 hfound _ List.mem_cons_self
    have hfile : ¬ fs.isFile (l.primary.resolve id) = true := fun h => hnothing (pathExists_iff.2 (.inl h))
    simp [hfile]

theorem path_locate_of_isFile (h : fs.isFile (l.primary.resolve id) = true) :
    (locate fs (.fallback l) id).path = some (l.primary.resolve id) := by
  rw [path_locate, FallbackLocator.candidates, List.find?_cons_of_pos (pathExists_iff.2 (.inl h)), Option.filter_some,
    if_pos h]

theorem path_locate_of_isDirectory (h : fs.isDirectory (l.primary.resolve id) = true) :
    (locate fs (.fallback l) id).path = none := by
  have hfile : ¬ fs.isFile (l.primary.resolve id) = true := fun hfile => by
    rw [isDirectory_of_isFile hfile] at h
    cases h
  rw [path_locate, FallbackLocator.candidates, List.find?_cons_of_pos (pathExists_iff.2 (.inr h)), Option.filter_some,
    if_neg hfile]

/-- Where nothing is at the path under the first root, a source is found if a file is at the path under the second. -/
theorem path_locate_of_not_pathExists (hfallback : l.fallback = some root)
    (h : fs.pathExists (l.primary.resolve id) = false) :
    (locate fs (.fallback l) id).path = (some ((l.second root).resolve id)).filter fs.isFile := by
  rw [path_locate, FallbackLocator.candidates_eq hfallback, List.find?_cons_of_neg (by simp [h])]
  cases hsecond : fs.pathExists ((l.second root).resolve id) with
  | true => simp [hsecond]
  | false =>
    have hfile : fs.isFile ((l.second root).resolve id) = false :=
      eq_false_of_ne_true fun h => by simp [pathExists_iff.2 (.inl h)] at hsecond
    simp [Option.filter, hsecond, hfile]

/-- Of two roots, a source is found, and loaded, if a file is at its path under the first, or a file is at its path
under the second and no directory at the one under the first.  The path is the first one if a file is there, and in any
case a file is at it. -/
theorem found_unless_directory_is_first (fs : FileSystem) (l : FallbackLocator) (root : Path) (id : String)
    (hfallback : l.fallback = some root) :
    let first := l.primary.resolve id
    let second := (l.second root).resolve id
    let s := locate fs (.fallback l) id
    (s.loaded = true ∧ s.path.isSome = true ↔
      fs.isFile first = true ∨ fs.isFile second = true ∧ fs.isDirectory first = false) ∧
    (fs.isFile first = true → s.path = some first) ∧
    (∀ p, s.path = some p → fs.isFile p = true ∧ (p = first ∨ p = second)) ∧
    s.loaded = s.path.isSome := by
  intro first second s
  have hloaded : s.loaded = s.path.isSome := loaded_locate fs _ id
  rw [hloaded, and_self]
  refine ⟨?_, path_locate_of_isFile, fun p hp => ?_, rfl⟩
  · by_cases hfile : fs.isFile first = true
    · have hpath : s.path = some first := path_locate_of_isFile hfile
      simp [hpath, hfile]
    by_cases hdirectory : fs.isDirectory first = true
    · have hpath : s.path = none := path_locate_of_isDirectory hdirectory
      simp [hpath, hfile, hdirectory]
    · have hnothing : fs.pathExists first = false :=
        eq_false_of_ne_true fun h => (pathExists_iff.1 h).elim hfile hdirectory
      have hpath : s.path = (some second).filter fs.isFile := path_locate_of_not_pathExists hfallback hnothing
      simp [hpath, hfile, hdirectory]
  · have hfound : ((l.candidates id).find? fs.pathExists).filter fs.isFile = some p := path_locate fs l id ▸ hp
    obtain ⟨hcandidate, hfile⟩ := Option.filter_eq_some_iff.1 hfound
    have hmem := List.mem_of_find?_eq_some hcandidate
    rw [FallbackLocator.candidates_eq hfallback, List.mem_pair] at hmem
    exact ⟨hfile, hmem⟩

/-- One file under the second root alone, and one under both. -/
theorem one_file_under_second_root_and_one_under_both :
    ∃ (fs : FileSystem) (l : FallbackLocator),
      l.primary.root = .ofString "user" ∧ l.fallback = some (.ofString "shared") ∧
      (locate fs (.fallback l) "luna").path = some (.ofString "shared/luna.yaml") ∧
      (locate fs (.fallback l) "sol").path = some (.ofString "user/sol.yaml") := by
  let user := Text.encode "user"
  let shared := Text.encode "shared"
  let file : File := ⟨.ofList [], ⟨0⟩⟩
  let fs := (((((bare ⟨0⟩).putDirectory [user] ⟨0⟩).putDirectory [shared] ⟨0⟩).addFile
    [shared, Text.encode "luna.yaml"] file).addFile [shared, Text.encode "sol.yaml"] file).addFile
    [user, Text.encode "sol.yaml"] file
  let l : FallbackLocator := ⟨⟨⟨"dict", "", ".yaml"⟩, .ofString "user"⟩, some (.ofString "shared")⟩
  have hluna : fs.isFile (.ofString "shared/luna.yaml") = true := by decide +kernel
  have hfirst : fs.isFile (.ofString "user/luna.yaml") = false := by decide +kernel
  have hnone : fs.isDirectory (.ofString "user/luna.yaml") = false := by decide +kernel
  have hsol : fs.isFile (.ofString "user/sol.yaml") = true := by decide +kernel
  obtain ⟨hfound, -, hcandidate, -⟩ := found_unless_directory_is_first fs l (.ofString "shared") "luna" rfl
  obtain ⟨-, hpreferred, -⟩ := found_unless_directory_is_first fs l (.ofString "shared") "sol" rfl
  refine ⟨fs, l, rfl, rfl, ?_, hpreferred hsol⟩
  obtain ⟨p, hp⟩ := Option.isSome_iff_exists.1 (hfound.2 (.inr ⟨hluna, hnone⟩)).2
  obtain ⟨hfile, rfl | rfl⟩ := hcandidate p hp
  · exact absurd (hfirst.symm.trans hfile) Bool.false_ne_true
  · exact hp

/-- A file under the second root is not found if a directory is in its place under the first. -/
theorem directory_hides_second_root :
    ∃ (fs : FileSystem) (l : FallbackLocator) (root : Path) (id : String),
      l.fallback = some root ∧ fs.isFile ((l.second root).resolve id) = true ∧
      fs.isDirectory (l.primary.resolve id) = true ∧ locate fs (.fallback l) id = ⟨id, none, false⟩ := by
  let user := Text.encode "user"
  let shared := Text.encode "shared"
  let fs := ((((bare ⟨0⟩).putDirectory [user] ⟨0⟩).putDirectory [user, Text.encode "luna.yaml"] ⟨0⟩).putDirectory
    [shared] ⟨0⟩).addFile [shared, Text.encode "luna.yaml"] ⟨.ofList [], ⟨0⟩⟩
  refine ⟨fs, ⟨⟨⟨"dict", "", ".yaml"⟩, .ofString "user"⟩, some (.ofString "shared")⟩, .ofString "shared", "luna", rfl,
    ?_, ?_, ?_⟩ <;> decide +kernel

end Source

end Bindery
