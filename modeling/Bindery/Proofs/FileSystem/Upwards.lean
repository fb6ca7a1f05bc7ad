import Bindery.Proofs.FileSystem.SameFile
import Bindery.Proofs.Path.Components
import Mathlib.Data.List.Basic

/-!
# Paths beneath and above other paths

The way along a path beneath a directory is the way to the directory, and on from there (`stepsOf_join`).  The way
along a path above an absolute one is a part of the way along that (`mem_ancestors`).  Where the working directory is
there, each way ends at a directory that is there (`Stands.of_walk`), and the way from the root directory towards the
working one does not depend on directories that come to be (`HasWorkingDirectory.walk_of_walk`).
-/

namespace Bindery.FileSystem

variable {fs fs' : FileSystem} {p q : Path} {dir r next : Route} {steps : List Name} {id : Nat}

/-! ### Joined paths -/

theorem startOf_join (hq : q.isAbsolute = false) : fs.startOf (p.join q) = fs.startOf p := by
  unfold startOf
  rw [Path.isAbsolute_join hq]

theorem stepsOf_join (hq : q.isAbsolute = false) : stepsOf (p.join q) = stepsOf p ++ stepsOf q := by
  cases hp : p.isEmpty with
  | true =>
    have hbytes : p.bytes = [] := List.isEmpty_iff.1 hp
    rw [Path.join_of_isEmpty hp]
    simp [stepsOf, Path.pieces, hbytes]
  | false =>
    obtain ⟨before, -, hjoin, hbefore⟩ := Path.pieces_join hp hq
    have hsteps : stepsOf p = before.filter (· ≠ []) := by
      unfold stepsOf
      -- no step comes of what is behind a slash at the end
      rcases hbefore with hbefore | hbefore
      · rw [hbefore]
      · rw [hbefore, List.filter_append]
        exact List.append_nil _
    rw [hsteps]
    unfold stepsOf
    rw [hjoin, List.filter_append]

/-! ### Paths above a path -/

/-- The steps of pieces that were put together behind a slash. -/
theorem stepsOf_joinPieces {pieces : List Name} (h : ∀ piece ∈ pieces, Path.slash ∉ piece) :
    stepsOf ⟨Path.slash :: Path.joinPieces pieces⟩ = pieces.filter (· ≠ []) := by
  have hsplit : stepsOf ⟨Path.slash :: Path.joinPieces pieces⟩ =
      ((Path.joinPieces pieces).splitOn Path.slash).filter (· ≠ []) := by
    unfold stepsOf Path.pieces
    rw [List.splitOn_cons_eq_if_modifyHead]
    simp
  rw [hsplit]
  by_cases hnil : pieces = []
  · subst hnil
    rfl
  · exact congrArg (List.filter _) (Path.pieces_joinPieces h hnil)

private theorem trimEnd_isPrefix (pieces : List Name) : Path.trimEnd pieces <+: pieces := by
  have h : Path.trimFront pieces.reverse <:+ pieces.reverse := List.dropWhile_suffix _
  simpa [Path.trimEnd] using List.reverse_prefix.2 h

/-- The way along the path above an absolute one is a part of the way along that. -/
theorem stepsOf_parent? (hp : p.isAbsolute = true) (h : p.parent? = some q) :
    q.isAbsolute = true ∧ stepsOf q <+: stepsOf p := by
  obtain ⟨bytes, hbytes⟩ := Path.isAbsolute_eq_true.1 hp
  have hsplit : p.split = (some .root, bytes) := by
    unfold Path.split
    rw [if_pos hp, hbytes, List.tail_cons]
  have hsteps : stepsOf p = (bytes.splitOn Path.slash).filter (· ≠ []) := by
    unfold stepsOf Path.pieces
    rw [hbytes, List.splitOn_cons_eq_if_modifyHead]
    simp
  unfold Path.parent? at h
  rw [hsplit] at h
  dsimp only at h
  cases hrev : (Path.trimEnd (bytes.splitOn Path.slash)).reverse with
  | nil => simp [hrev] at h
  | cons last rest =>
    rw [hrev] at h
    obtain rfl := Option.some.inj h
    have hpre : Path.trimEnd rest.reverse <+: bytes.splitOn Path.slash := by
      have htrim : Path.trimEnd (bytes.splitOn Path.slash) = rest.reverse ++ [last] := by
        rw [← List.reverse_reverse (Path.trimEnd _), hrev, List.reverse_cons]
      exact ((trimEnd_isPrefix _).trans (htrim ▸ List.prefix_append _ _)).trans (trimEnd_isPrefix _)
    refine ⟨rfl, ?_⟩
    show stepsOf ⟨Path.slash :: Path.joinPieces _⟩ <+: _
    rw [hsteps, stepsOf_joinPieces fun piece hmem => Path.not_mem_of_mem_splitOn (hpre.subset hmem)]
    exact hpre.filter _

theorem mem_ancestors (hp : p.isAbsolute = true) (h : q ∈ p.ancestors) :
    q.isAbsolute = true ∧ stepsOf q <+: stepsOf p := by
  have hgo (n : Nat) (p : Path) (hp : p.isAbsolute = true) (h : q ∈ Path.ancestors.go p n) :
      q.isAbsolute = true ∧ stepsOf q <+: stepsOf p := by
    induction n generalizing p with
    | zero =>
      obtain rfl := List.mem_singleton.1 h
      exact ⟨hp, List.prefix_refl _⟩
    | succ n ih =>
      rw [Path.ancestors.go] at h
      cases habove : p.parent? with
      | none =>
        rw [habove] at h
        obtain rfl := List.mem_singleton.1 h
        exact ⟨hp, List.prefix_refl _⟩
      | some above =>
        rw [habove] at h
        rcases List.mem_cons.1 h with rfl | h
        · exact ⟨hp, List.prefix_refl _⟩
        · obtain ⟨habs, hpre⟩ := stepsOf_parent? hp habove
          obtain ⟨hq, hpre'⟩ := ih above habs h
          exact ⟨hq, hpre'.trans hpre⟩
  exact hgo _ p hp h

/-! ### The working directory -/

/-- A directory is there, and so is every one above it. -/
def Stands (fs : FileSystem) (r : Route) : Prop := ∀ s, s <+: r → fs.HasDirectory s

/-- The working directory is there, and its names are such as a directory can hold. -/
structure HasWorkingDirectory (fs : FileSystem) : Prop where
  names : ∀ name ∈ fs.workingDirectory, name ≠ [] ∧ name ≠ Path.dot ∧ name ≠ Path.dotDot ∧ Path.slash ∉ name
  stands : fs.Stands fs.workingDirectory

private theorem Stands.of_step {piece : Name} (h : fs.Stands dir) (hs : fs.step dir piece = .ok next) :
    fs.Stands next := by
  unfold step at hs
  split at hs
  · cases hs; exact h
  split at hs
  · cases hs
    exact fun s hs => h s (hs.trans (List.dropLast_prefix dir))
  cases hl : fs.lookup dir piece with
  | error e => rw [hl] at hs; cases hs
  | ok node =>
    rw [hl] at hs
    rcases node with _ | (i | t)
    · cases hs
    · cases hs
    · cases hs
      intro s hs
      rcases List.prefix_concat_iff.1 hs with rfl | hs
      · exact ⟨t, (lookup_eq_ok.1 hl).2⟩
      · exact h s hs

theorem Stands.of_walk (h : fs.Stands dir) (hw : fs.walk dir steps = .ok next) : fs.Stands next := by
  induction steps generalizing dir with
  | nil => cases hw; exact h
  | cons piece steps ih =>
    unfold walk at hw
    cases hs : fs.step dir piece with
    | error e => rw [hs] at hw; cases hw
    | ok dir' =>
      rw [hs] at hw
      exact ih (h.of_step hs) hw

namespace HasWorkingDirectory

theorem of_keeps (h : fs.HasWorkingDirectory) (hk : KeepsDirectories fs fs') : fs'.HasWorkingDirectory where
  names := hk.workingDirectory ▸ h.names
  stands s hs := hk.directory s (h.stands s (hk.workingDirectory ▸ hs))

theorem stands_startOf (h : fs.HasWorkingDirectory) (p : Path) : fs.Stands (fs.startOf p) := by
  unfold startOf
  split
  · exact fun s hs => h.stands s (hs.trans (List.nil_prefix))
  · exact h.stands

/-- A path whose steps can all be gone leads to no file. -/
theorem isFile_eq_false (h : fs.HasWorkingDirectory) (hw : fs.walk (fs.startOf p) (stepsOf p) = .ok r) :
    fs.isFile p = false := by
  cases hf : fs.isFile p with
  | false => rfl
  | true =>
    obtain ⟨s, id, hs⟩ := isFile_eq_true.1 hf
    obtain ⟨spot, hl, rfl, -, hn⟩ := stat_eq_ok.1 hs
    have hroute : spot.route = r := by
      obtain ⟨-, -, -, ⟨hnil, rfl⟩ | ⟨before, last, dir, hsteps, hw', rfl⟩⟩ := locate_eq_ok.1 hl
      · rw [hnil] at hw
        exact Except.ok.inj hw
      · rw [hsteps, walk_append_eq_ok] at hw
        obtain ⟨mid, hmid, hw⟩ := hw
        obtain rfl : dir = mid := Except.ok.inj (hw'.symm.trans hmid)
        exact route_spotAt_of_walk hw
    obtain ⟨t, ht⟩ := (h.stands_startOf p).of_walk hw r (List.prefix_refl r)
    rw [hroute, ht] at hn
    cases hn

theorem stepsOf_workingPath (h : fs.HasWorkingDirectory) : stepsOf fs.workingPath = fs.workingDirectory := by
  unfold workingPath
  rw [stepsOf_joinPieces fun name hn => (h.names name hn).2.2.2, List.filter_eq_self.2]
  intro name hn
  simpa using (h.names name hn).1

/-- The way from the root directory towards the working directory is open if it is so in another file system. -/
theorem walk_of_walk (h : fs.HasWorkingDirectory) (hp : steps <+: fs.workingDirectory)
    (hw : fs'.walk [] steps = .ok r) : fs.walk [] steps = .ok r := by
  have hwalk (steps : List Name) (dir : Route) (hp : dir ++ steps <+: fs.workingDirectory)
      (hw : fs'.walk dir steps = .ok r) : fs.walk dir steps = .ok r := by
    induction steps generalizing dir with
    | nil => exact hw
    | cons name steps ih =>
      obtain ⟨-, hdot, hdotDot, -⟩ := h.names name (hp.subset (by simp))
      have hp' : (dir ++ [name]) ++ steps <+: fs.workingDirectory := by simpa using hp
      obtain ⟨t, ht⟩ := h.stands (dir ++ [name]) ((List.prefix_append _ _).trans hp')
      unfold walk step at hw ⊢
      rw [if_neg hdot, if_neg hdotDot] at hw ⊢
      cases hl : fs'.lookup dir name with
      | error e => simp [hl] at hw
      | ok node =>
        obtain ⟨hlen, -⟩ := lookup_eq_ok.1 hl
        rw [lookup_eq_ok.2 ⟨hlen, ht⟩]
        rcases node with _ | (i | t')
        · simp [hl] at hw
        · simp [hl] at hw
        · rw [hl] at hw
          exact ih _ hp' hw
  exact hwalk steps [] hp hw

end HasWorkingDirectory

end Bindery.FileSystem
