import Bindery.Proofs.Arena.Lifecycle
import Bindery.Proofs.Artifact.Replacement
import Bindery.Proofs.FileSystem.SameFile

/-!
# What a build that fails leaves at its staging path

When the last attempt of a build fails, its staging file is removed, and no file is at the staging path any more
(`isFile_of_attempts_error`).  What can be there is a directory: one that the build has made above its destination, or
one that the path did not lead to before the build made such a directory.  When the attempts succeed and the renaming
fails, nobody removes the staging file, and it stays (`failed_build_leaves`).
-/

namespace Bindery.Builder

open Build Steps FileSystem

variable {σ : Type} {fs fs' : FileSystem} {d p : Path} {r : Route}

/-! ### Removing a file -/

theorem exists_remove {dir : Route} {name : Name} (hl : fs.locate p = .ok (.entry dir name false))
    (hf : fs.isFile p = true) : ∃ fs', fs.remove p = .ok fs' := by
  obtain ⟨r, id, hs⟩ := isFile_eq_true.1 hf
  obtain ⟨spot, hl', rfl, hadmits, hn⟩ := stat_eq_ok.1 hs
  rw [hl] at hl'
  cases hl'
  obtain ⟨hlen, -⟩ := hadmits
  unfold remove
  rw [hl]
  dsimp only
  rw [lookup_eq_ok.2 ⟨hlen, hn⟩]
  exact ⟨_, rfl⟩

theorem isFile_of_remove (h : fs.remove p = .ok fs') : fs'.isFile p = false := by
  obtain ⟨dir, name, id, hl, hn, rfl⟩ := remove_eq_ok h
  have hchange : ChangesOnly (dir ++ [name]) fs ((fs.removeWhere (· = dir ++ [name])).touchDirectory dir) := by
    refine ChangesOnly.of_remove h fun s hs => ?_
    exact Option.some.inj (hs.symm.trans (route?_eq_some.2 ⟨_, hl, rfl⟩))
  by_contra hf
  obtain ⟨r, id', hs⟩ := isFile_eq_true.1 (by simpa using hf)
  obtain ⟨spot, hl', rfl, -, hn'⟩ := stat_eq_ok.1 hs
  rw [locate_mono hchange.keepsDirectories hl] at hl'
  cases hl'
  rw [Spot.route, node?_touchDirectory_file, node?_removeWhere] at hn'
  simp at hn'

/-- The staging path leads to a name in a directory, if anywhere. -/
theorem locate_stagingPath {spot : Spot} (h : fs.locate (stagingPath d) = .ok spot) :
    ∃ dir name, spot = .entry dir name false := by
  obtain ⟨dir, name, hspot, -⟩ := locate_append (by decide) (by decide) h
  exact ⟨dir, name ++ Text.encode ".tmp", hspot⟩

/-- Whether the removal of the staging file succeeds or fails, no file is there afterwards. -/
theorem isFile_left_remove {s : Arena.State} (hpath : s.arena.path = stagingPath d) :
    (left (Arena.remove s)).fs.isFile (stagingPath d) = false := by
  rw [Arena.remove_apply, hpath]
  cases hr : s.fs.remove (stagingPath d) with
  | ok fs => exact isFile_of_remove hr
  | error e =>
    have hnone : s.fs.isFile (stagingPath d) = false := by
      by_contra hf
      have hf : s.fs.isFile (stagingPath d) = true := by simpa using hf
      obtain ⟨r, id, hs⟩ := isFile_eq_true.1 hf
      obtain ⟨spot, hl, -⟩ := stat_eq_ok.1 hs
      obtain ⟨dir, name, rfl⟩ := locate_stagingPath hl
      obtain ⟨fs', hr'⟩ := exists_remove hl hf
      rw [hr] at hr'
      cases hr'
    cases e <;> exact hnone

/-! ### Attempts that fail -/

section Staged

variable {b : Builder} {m : Metadata} {program : σ → Script σ} {u u' : σ} {s : Arena.State} {e : Artifact.Error}

/-- When the attempts fail, no file is left at the staging path. -/
theorem isFile_of_staged_error (h : b.staged d m (Script.writer program) fs u = (.error e, s, u')) :
    s.fs.isFile (stagingPath d) = false := by
  have hsame (capacity : Nat) := attempt_keeps (R := Arena.SamePath) Arena.Call.samePath b m
    (writer_keeps Arena.Call.samePath program) capacity
  obtain ⟨⟨s₁, u₁⟩, hpath, hs⟩ := attempts_eq_error (P := fun s => s.1.arena.path = stagingPath d)
    (fun capacity s e s' hs ha => ((hsame capacity).error ha).trans hs) b.one_le_firstCapacity rfl h
  have hleft : s = left (Arena.remove s₁) := by
    have := congrArg Prod.fst hs
    rw [onArena_apply] at this
    refine this.trans ?_
    dsimp only
    cases Arena.remove s₁ <;> rfl
  rw [hleft]
  exact isFile_left_remove hpath

/-- What stays at the staging path when the attempts fail was there before them. -/
theorem staged_error_kept (h : b.staged d m (Script.writer program) fs u = (.error e, s, u')) {node : Node}
    (hs : s.fs.stat (stagingPath d) = .ok (r, node)) : Kept fs s.fs r := by
  obtain ⟨hroute, hnode⟩ := route?_of_stat hs
  obtain ⟨r₀, hr₀⟩ := exists_route fs (stagingPath d)
  obtain ⟨-, hc⟩ := staged_changes h hr₀
  obtain rfl : r = r₀ := hr₀ r (hc.route?_eq ▸ hroute)
  cases node with
  | file id =>
    have hfile := isFile_of_staged_error h
    rw [isFile_eq_true.2 ⟨r, id, hs⟩] at hfile
    cases hfile
  | directory t =>
    have hbefore := (hc.directory t).1 hnode
    refine ⟨hnode.trans hbefore.symm, fun id hid => ?_⟩
    rw [hbefore] at hid
    cases hid

end Staged

/-! ### Builds that fail -/

/-- What leads to something that was there before did not lead anywhere then, if nothing was found. -/
theorem route?_of_appeared (hk : KeepsDirectories fs fs') (hfree : fs.pathExists p = false) {node : Node}
    (hs : fs'.stat p = .ok (r, node)) (hn : fs.node? r = some node ∨ fs.HasDirectory r ∧ fs'.HasDirectory r) :
    fs.route? p = none := by
  cases hroute : fs.route? p with
  | none => rfl
  | some t =>
    obtain ⟨spot, hl, -⟩ := route?_eq_some.1 hroute
    obtain ⟨spot', hl', rfl, hadmits, hn'⟩ := stat_eq_ok.1 hs
    obtain rfl : spot = spot' := Except.ok.inj ((locate_mono hk hl).symm.trans hl')
    have hfound : ∃ node₀, fs.stat p = .ok (spot.route, node₀) := by
      rcases hn with hn | ⟨⟨t, ht⟩, ⟨t', ht'⟩⟩
      · exact ⟨node, stat_eq_ok.2 ⟨spot, hl, rfl, hadmits, hn⟩⟩
      · -- a directory is admitted wherever another one is
        refine ⟨.directory t, stat_eq_ok.2 ⟨spot, hl, rfl, ?_, ht⟩⟩
        cases spot with
        | directory r => trivial
        | entry dir name slashed => exact ⟨hadmits.1, fun _ => ⟨t, rfl⟩⟩
    obtain ⟨node₀, hstat⟩ := hfound
    rw [pathExists_eq_true.2 ⟨_, _, hstat⟩] at hfree
    cases hfree

section Builds

variable {b : Builder} {m : Metadata} {program : σ → Script σ} {u u' : σ} {e : Artifact.Error}

/-- The attempts of a build succeed. -/
def Finishes (b : Builder) (d : Path) (m : Metadata) (w : Writer σ) (fs : FileSystem) (u : σ) : Prop :=
  (makeParent fs d).1 = .ok () ∧ ∃ done, (b.staged d m w (makeParent fs d).2 u).1 = .ok done

/-- A build that fails though its attempts have succeeded leaves the artifact at its staging path. -/
theorem staging_file_stays (hfinish : b.Finishes d m (Script.writer program) fs u)
    (h : b.build d m (Script.writer program) fs u = (.error e, fs', u')) :
    fs'.isFile (stagingPath d) = true ∧ ∃ fault, e = .file d fault := by
  obtain ⟨hmade, done, hdone⟩ := hfinish
  rcases build_eq_error h with ⟨hmade', -⟩ | ⟨-, s, hst, -⟩ | ⟨-, ⟨size, n⟩, s, fault, hst, -, he, rfl⟩
  · rw [hmade] at hmade'
    cases hmade'
  · rw [hst] at hdone
    cases hdone
  · obtain ⟨t, id, ht, -⟩ := staged_eq_ok hst
    exact ⟨isFile_eq_true.2 ⟨t, id, ht⟩, fault, he⟩

/-- A build whose parents cannot be made or whose attempts fail leaves at its staging path at most what was there before
or is a directory above its destination. -/
theorem staging_path_untouched (hfinish : ¬ b.Finishes d m (Script.writer program) fs u)
    (h : b.build d m (Script.writer program) fs u = (.error e, fs', u')) {node : Node}
    (hs : fs'.stat (stagingPath d) = .ok (r, node)) : Untouched d fs fs' r := by
  have hmade := makeParent_untouched fs d r
  rcases build_eq_error h with ⟨-, rfl⟩ | ⟨-, s, hst, rfl⟩ | ⟨hmade, done, s, fault, hst, -⟩
  · exact hmade
  · obtain ⟨r₀, hr₀⟩ := exists_route (makeParent fs d).2 (stagingPath d)
    exact hmade.trans (staged_changes hst hr₀).2.keepsDirectories (.inl (staged_error_kept hst hs))
  · exact absurd ⟨hmade, done, by rw [hst]⟩ hfinish

/-- What a build that fails leaves at a staging path at which nothing was.  If its attempts have succeeded, so that it
is the renaming that fails, the finished artifact is left there.  Else no file is left: if anything is there, it is a
directory above the destination that the build has made, or the path leads to something now that it did not lead to
before the build made such a directory. -/
theorem failed_build_leaves (hfree : fs.pathExists (stagingPath d) = false)
    (h : b.build d m (Script.writer program) fs u = (.error e, fs', u')) :
    (b.Finishes d m (Script.writer program) fs u →
      fs'.isFile (stagingPath d) = true ∧ ∃ fault, e = .file d fault) ∧
    (¬ b.Finishes d m (Script.writer program) fs u →
      ((makeParent fs d).1 = .ok () → fs'.isFile (stagingPath d) = false) ∧
        ∀ r node, fs'.stat (stagingPath d) = .ok (r, node) →
          Untouched d fs fs' r ∧ (ParentMade d fs fs' r ∨ fs.route? (stagingPath d) = none)) := by
  refine ⟨fun hfinish => staging_file_stays hfinish h, fun hfinish => ⟨fun hmade => ?_, fun r node hs => ?_⟩⟩
  · rcases build_eq_error h with ⟨hmade', -⟩ | ⟨-, s, hst, rfl⟩ | ⟨-, done, s, fault, hst, -⟩
    · rw [hmade] at hmade'
      cases hmade'
    · exact isFile_of_staged_error hst
    · exact absurd ⟨hmade, done, by rw [hst]⟩ hfinish
  · have hk : KeepsDirectories fs fs' := by
      have := build_keepsDirectories b d m program fs u
      rwa [h] at this
    have huntouched := staging_path_untouched hfinish h hs
    refine ⟨huntouched, ?_⟩
    obtain ⟨-, hnode⟩ := route?_of_stat hs
    rcases huntouched with ⟨hkept, -⟩ | ⟨hd, hd', -⟩ | hparent
    · exact .inr (route?_of_appeared hk hfree hs (.inl (hkept ▸ hnode)))
    · exact .inr (route?_of_appeared hk hfree hs (.inr ⟨hd, hd'⟩))
    · exact .inl hparent

end Builds

/-- An artifact that does not fit is removed. -/
theorem failed_attempt_is_removed :
    ∃ d built,
      built = (ofSizes 1 2 64 0).build d default (Script.writer fun _ => .finish (.ok .null) ()) (bare ⟨0⟩) () ∧
      d = .ofString "a" ∧ (bare ⟨0⟩).pathExists (stagingPath d) = false ∧ built.1 = .error (.capacityLimit 64) ∧
      built.2.1.isFile (stagingPath d) = false := by
  have hfree : (bare ⟨0⟩).pathExists (stagingPath (.ofString "a")) = false := by decide +kernel
  have herror : ((ofSizes 1 2 64 0).build (.ofString "a") default (Script.writer fun _ => .finish (.ok .null) ())
      (bare ⟨0⟩) ()).1 = .error (.capacityLimit 64) := by
    decide +kernel
  have hfinish : ¬ (ofSizes 1 2 64 0).Finishes (.ofString "a") default
      (Script.writer fun _ => .finish (.ok .null) ()) (bare ⟨0⟩) () := by
    have hfails : ((ofSizes 1 2 64 0).staged (.ofString "a") default (Script.writer fun _ => .finish (.ok .null) ())
        (makeParent (bare ⟨0⟩) (.ofString "a")).2 ()).1 = .error (.capacityLimit 64) := by
      decide +kernel
    rintro ⟨-, done, hdone⟩
    rw [hfails] at hdone
    cases hdone
  obtain ⟨hgone, -⟩ := (failed_build_leaves hfree (Prod.ext herror rfl)).2 hfinish
  exact ⟨_, _, rfl, rfl, hfree, herror, hgone (by decide +kernel)⟩

/-- A directory at the destination makes the renaming fail, and the staging file stays. -/
theorem failed_renaming_leaves_staging_file :
    ∃ fs d built,
      built = (ofSizes 4096 2 4096 0).build d default (Script.writer fun _ => .finish (.ok .null) ()) fs () ∧
      fs = (bare ⟨0⟩).putDirectory [Text.encode "d"] ⟨0⟩ ∧ d = .ofString "d" ∧
      fs.pathExists (stagingPath d) = false ∧ built.1 = .error (.file d .isDirectory) ∧
      built.2.1.pathExists (stagingPath d) = true ∧ built.2.1.isFile (stagingPath d) = true := by
  refine ⟨_, _, _, rfl, rfl, rfl, ?_, ?_, ?_, ?_⟩
  · decide +kernel
  · decide +kernel
  · decide +kernel
  · decide +kernel

end Bindery.Builder
