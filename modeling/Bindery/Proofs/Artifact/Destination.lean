import Bindery.Proofs.Artifact.RoundTrip
import Bindery.Proofs.FileSystem.SameFile

/-!
# What a build leaves

A build keeps all files but the staging file and, if it succeeds, the one at its destination
(`Builder.build_keepsFiles`).  There it leaves, at a name in a directory (`Builder.locate_of_build`), a file with the
blocks that the last run of its writer noted (`Builder.build_writes`).  Whether an artifact is written in a file
depends on the bytes of the file alone (`Arena.Ledger.WrittenIn.of_toList_eq`), so it may be read from any other file
with the same bytes.
-/

namespace Bindery

open FileSystem

/-! ### Contents of the same bytes -/

/-- What is written in a content is written in every content that begins with it, too. -/
theorem Arena.Ledger.WrittenIn.of_isPrefix {l : Arena.Ledger} {c c' : Content} (h : l.WrittenIn c)
    (hc : c.toList <+: c'.toList) (hmax : c'.size ≤ Arena.maxCapacity) : l.WrittenIn c' := by
  have hsize : c.size ≤ c'.size := by simpa [Content.toList] using hc.length_le
  refine ⟨hmax, fun b hb => (h.fits b hb).mono hsize, h.apart, fun b hb => ?_⟩
  rw [Content.slice_of_isPrefix c hc (h.fits b hb).stop_le]
  exact h.stored b hb

theorem Arena.Ledger.WrittenIn.of_toList_eq {l : Arena.Ledger} {c c' : Content} (h : l.WrittenIn c)
    (hc : c'.toList = c.toList) : l.WrittenIn c' := by
  have hsize : c'.size = c.size := by simpa [Content.toList] using congrArg List.length hc
  exact h.of_isPrefix (hc ▸ List.prefix_refl _) (hsize ▸ h.size_le)

namespace Builder

variable {σ : Type} {b : Builder} {d : Path} {m : Metadata} {program : σ → Script σ} {fs fs' : FileSystem} {u u' : σ}
  {outcome : Build.Outcome}

/-- Where a build leaves the files that were there: anywhere but at its staging path and, unless it fails, at its
destination. -/
def Leaves (d : Path) (fs' : FileSystem) (result : Except Artifact.Error Build.Outcome) (r : Route) : Prop :=
  fs'.route? (stagingPath d) ≠ some r ∧ (fs'.route? d ≠ some r ∨ ∃ e, result = .error e)

theorem build_keepsFiles (b : Builder) (d : Path) (m : Metadata) (program : σ → Script σ) (fs : FileSystem) (u : σ) :
    KeepsFiles
      (Leaves d (b.build d m (Script.writer program) fs u).2.1 (b.build d m (Script.writer program) fs u).1)
      fs (b.build d m (Script.writer program) fs u).2.1 where
  toKeepsDirectories := build_keepsDirectories b d m program fs u
  node r hr id := by
    rcases build_untouched b d m program fs u hr.1 hr.2 with
      ⟨hn, -⟩ | ⟨⟨t, ht⟩, ⟨t', ht'⟩, -⟩ | ⟨-, -, hn, ⟨t', ht'⟩, -⟩
    · rw [hn]
    · rw [ht, ht']; simp
    · rw [hn, ht']; simp
  file r hr id hid := by
    rcases build_untouched b d m program fs u hr.1 hr.2 with ⟨-, hf⟩ | ⟨⟨t, ht⟩, -⟩ | ⟨-, -, hn, -⟩
    · exact hf id hid
    · rw [ht] at hid; cases hid
    · rw [hn] at hid; cases hid

/-- The destination of a build that succeeds is a name in a directory, without a slash behind it. -/
theorem locate_of_build (h : b.build d m (Script.writer program) fs u = (.ok outcome, fs', u')) :
    ∃ dir name, fs'.locate d = .ok (.entry dir name false) := by
  obtain ⟨-, s, -, hr, -⟩ := build_eq_ok h
  obtain ⟨_, _, _, -, -, hren, -⟩ := Renamed.of_rename hr (route?_stagingPath_ne s.fs d)
  obtain ⟨_, _, dir, name, _, -, hd, -⟩ := rename_eq_ok hr
  exact ⟨dir, name, locate_mono hren.keepsDirectories hd⟩

/-- A build that succeeds leaves what the last run of its writer noted, between the header and the metadata, and nothing
behind the metadata. -/
theorem build_writes_to_end (hc : ∀ u, (program u).Confined [])
    (h : b.build d m (Script.writer program) fs u = (.ok outcome, fs', u')) :
    ∃ v s s' root w block dst id, ((program v).noting []).run s = (.ok root, s', w) ∧
      fs'.stat d = .ok (dst, .file id) ∧
      (Artifact.blocks b.payloadKind m w.2.root block w.2.ledger).WrittenIn (fs'.file id).content ∧
      (fs'.file id).content.size = outcome.size ∧ outcome.size = block.position + m.encode.length := by
  have hnoting := build_noting b d m program fs (u, ⟨.null, []⟩)
  rw [h] at hnoting
  rcases hbuild : b.build d m (Script.notingWriter program) fs (u, ⟨.null, []⟩) with ⟨result, fs₁, w⟩
  rw [hbuild] at hnoting
  obtain ⟨rfl, rfl, -⟩ : result = .ok outcome ∧ fs₁ = fs' ∧ w.1 = u' := by simpa [eq_comm] using hnoting
  change b.build d m (Script.writer fun u => (program u.1).noting []) fs (u, ⟨.null, []⟩) = _ at hbuild
  obtain ⟨s, id, src, dst, hstaged, hsrc, hdst, hfile, hsize⟩ := (Replaced.of_build hbuild).moved
  obtain ⟨r₀, hr₀⟩ := exists_route (makeParent fs d).2 (stagingPath d)
  have hreaches (capacity : Nat) := attempt_reaches (r := r₀) b m
    (writer_reaches fun u : σ × Script.Note => (program u.1).noting []) capacity
  have hstart : Arena.Bound r₀ ⟨(makeParent fs d).2, .closed (stagingPath d)⟩ := ⟨hr₀, fun _ hm => by cases hm⟩
  obtain ⟨capacity, s₁, hbound, hlast⟩ := attempts_eq_ok (P := fun s => Arena.Bound r₀ s.1)
    (fun capacity _ _ _ hs he => ((hreaches capacity).error he hs).1) _ hstart hstaged
  -- the last attempt ran the script, and left the staging file that was renamed
  obtain ⟨block, id', hnode, hplace, -, hin⟩ := attempt_writes hc hbound hlast
  obtain ⟨_, _, pushed, root, written, _, _, _, -, -, hw, -, -, -, -, hu⟩ := attempt_eq_ok hlast
  obtain rfl : id' = id := by
    obtain ⟨spot, hl, rfl, -, hn⟩ := stat_eq_ok.1 hsrc
    have hroute := route?_eq_some.2 ⟨spot, hl, rfl⟩
    rw [(staged_changes hstaged hr₀).2.route?_eq] at hroute
    rw [hr₀ _ hroute] at hn
    simpa using hnode.symm.trans hn
  refine ⟨s₁.2.1, pushed, written.1, root, w, block, dst, id', ?_, hdst, hfile ▸ hin, hsize, hplace⟩
  have hrun := writer_eq_ok hw
  rw [← hu] at hrun
  exact hrun

theorem build_writes (hc : ∀ u, (program u).Confined [])
    (h : b.build d m (Script.writer program) fs u = (.ok outcome, fs', u')) :
    ∃ v s s' root w block dst id, ((program v).noting []).run s = (.ok root, s', w) ∧
      fs'.stat d = .ok (dst, .file id) ∧
      (Artifact.blocks b.payloadKind m w.2.root block w.2.ledger).WrittenIn (fs'.file id).content := by
  obtain ⟨v, s, s', root, w, block, dst, id, hrun, hstat, hin, -⟩ := build_writes_to_end hc h
  exact ⟨v, s, s', root, w, block, dst, id, hrun, hstat, hin⟩

end Builder

end Bindery
