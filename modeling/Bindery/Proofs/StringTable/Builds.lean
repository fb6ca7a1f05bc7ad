import Bindery.Proofs.Artifact.Destination
import Bindery.Proofs.StringTable
import Bindery.Proofs.Text.Utf8

/-!
# Building string tables

An artifact that is built with the writer of a string table has that table (`StringTable.storedAt_of_build`).  A text
has a zero byte in its UTF-8 form just if it has a zero character (`Text.zero_mem_encode`), and then it cannot be
stored, so that a build whose table has such a text fails.  A build that fails leaves what is at its destination
(`Builder.destinationKept_of_error`): a file, a directory, or nothing, unless a directory that the build had to make
on the way is itself what the destination leads to (`StringTable.missing_parent_can_become_destination`).
-/

namespace Bindery

open FileSystem

theorem Text.zero_mem_encode {s : String} : 0 ∈ Text.encode s ↔ '\x00' ∈ s.toList :=
  Text.mem_encode (a := '\x00') (by decide)

/-! ### Destinations of builds that fail -/

namespace Builder

variable {σ : Type} {b : Builder} {d : Path} {m : Metadata} {program : σ → Script σ} {fs : FileSystem} {u : σ}

/-- What a destination leads to is as it was: the same file with the same bytes and time, the same directory, or
nothing, unless it leads to a directory above it that was missing and has been made. -/
structure DestinationKept (d : Path) (fs fs' : FileSystem) : Prop where
  file : ∀ r id, fs.stat d = .ok (r, .file id) → fs'.stat d = .ok (r, .file id) ∧ fs'.file id = fs.file id
  directory : ∀ r t, fs.stat d = .ok (r, .directory t) → ∃ t', fs'.stat d = .ok (r, .directory t')
  file_was : ∀ r id, fs'.stat d = .ok (r, .file id) → fs.node? r = some (.file id) ∧ fs'.file id = fs.file id
  directory_was : ∀ r t, fs'.stat d = .ok (r, .directory t) → fs.HasDirectory r ∨ ParentMade d fs fs' r

private theorem leaves_destination {fs' : FileSystem} {e : Artifact.Error} {r : Route} (hd : fs'.route? d = some r) :
    Leaves d fs' (.error e) r :=
  ⟨fun hs => route?_stagingPath_ne fs' d r hs hd, .inr ⟨e, rfl⟩⟩

theorem destinationKept_of_error {e : Artifact.Error}
    (h : (b.build d m (Script.writer program) fs u).1 = .error e) :
    DestinationKept d fs (b.build d m (Script.writer program) fs u).2.1 := by
  have hkeeps := build_keepsFiles b d m program fs u
  rw [h] at hkeeps
  refine ⟨fun r id hs => ?_, fun r t => hkeeps.isDirectory, fun r id hs => ?_, fun r t hs => ?_⟩
  · have hd := route?_mono hkeeps.toKeepsDirectories (route?_of_stat hs).1
    obtain ⟨_, _, hs₁, hs', hfile⟩ := hkeeps.sameFile hs (leaves_destination hd)
    cases hs.symm.trans hs₁
    exact ⟨hs', hfile⟩
  · obtain ⟨hd, hnode⟩ := route?_of_stat hs
    have hwas := (hkeeps.node r (leaves_destination hd) id).1 hnode
    exact ⟨hwas, hkeeps.file r (leaves_destination hd) id hwas⟩
  · obtain ⟨hd, hnode⟩ := route?_of_stat hs
    have hleaves : Leaves d _ (.error e) r := leaves_destination hd
    rcases build_untouched b d m program fs u hleaves.1 (.inr ⟨e, h⟩) with hkept | ⟨hdir, -⟩ | hmade
    · exact .inl ⟨t, hkept.1 ▸ hnode⟩
    · exact .inl hdir
    · exact .inr hmade

end Builder

/-! ### Builds of tables -/

namespace StringTable

variable {σ : Type} {b : Builder} {d : Path} {m : Metadata} {entries : List Entry} {fs fs' : FileSystem} {u u' : σ}
  {outcome : Build.Outcome}

/-- No text of an entry has a zero character in it. -/
def Plain (e : Entry) : Prop := '\x00' ∉ e.1.toList ∧ '\x00' ∉ e.2.toList

private theorem Holds.plain {root : Arena.Offset} {l : Arena.Ledger} (h : Holds entries root l) :
    ∀ e ∈ entries, Plain e := by
  obtain ⟨first, pairs, hnames, -⟩ := h
  clear first
  induction hnames with
  | nil => nofun
  | cons he _ ih =>
    obtain ⟨i, t, -, ⟨-, hid⟩, -, htext⟩ := he
    rw [Text.zero_mem_encode] at hid htext
    exact List.forall_mem_cons.2 ⟨⟨hid, htext⟩, ih⟩

/-- A table that is written in a file can be read by a path to it. -/
theorem storedAt_of_writtenIn {p : Path} {r : Route} {id : Nat} {kind : UInt32} {root block : Arena.Offset}
    {payload : Arena.Ledger} (hp : fs.stat p = .ok (r, .file id))
    (h : (Artifact.blocks kind m root block payload).WrittenIn (fs.file id).content)
    (hholds : Holds entries root payload) : StoredAt fs p entries := by
  obtain ⟨a, hload, -, hheader, hreads⟩ := Artifact.load_of_writtenIn hp h
  have hroot : a.payloadRoot = root := by
    unfold Artifact.payloadRoot
    rw [hheader]
    rfl
  exact ⟨a, hload, read_of_holds (hroot ▸ hholds) hreads⟩

/-- A build that succeeds has left the table at the destination, and the table has no zero characters. -/
theorem storedAt_of_build (h : b.build d m (write entries) fs u = (.ok outcome, fs', u')) :
    StoredAt fs' d entries ∧ ∀ e ∈ entries, Plain e := by
  rw [write_eq_writer] at h
  obtain ⟨v, s, s', root, w, block, dst, id, hrun, hstat, hin⟩ :=
    Builder.build_writes (fun u => confined_script entries u []) h
  have hholds := holds_of_run hrun
  exact ⟨storedAt_of_writtenIn hstat hin hholds, hholds.plain⟩

/-- A build of a table that succeeds makes an artifact with that table.  If a text has a zero character then the build
fails, and leaves what is at its destination. -/
theorem build_stores_table_or_fails (b : Builder) (d : Path) (m : Metadata) (entries : List Entry) (fs : FileSystem)
    (u : σ) :
    let built := b.build d m (write entries) fs u
    (∀ outcome, built.1 = .ok outcome → StoredAt built.2.1 d entries) ∧
      ((∃ e ∈ entries, ¬ Plain e) → (∃ e, built.1 = .error e) ∧ Builder.DestinationKept d fs built.2.1) := by
  intro built
  have hstored {outcome} (ho : built.1 = .ok outcome) : StoredAt built.2.1 d entries ∧ ∀ e ∈ entries, Plain e :=
    storedAt_of_build (show built = (.ok outcome, built.2.1, built.2.2) by rw [← ho])
  refine ⟨fun outcome ho => (hstored ho).1, fun ⟨entry, hmem, hzero⟩ => ?_⟩
  have hfails : ∃ e, built.1 = .error e := by
    cases hb : built.1 with
    | error e => exact ⟨e, rfl⟩
    | ok outcome => exact absurd ((hstored hb).2 entry hmem) hzero
  obtain ⟨e, he⟩ := hfails
  refine ⟨⟨e, he⟩, ?_⟩
  unfold built at he ⊢
  rw [write_eq_writer] at he ⊢
  exact Builder.destinationKept_of_error he

/-- The first attempt has room for no more than the header. -/
example :
    let entries := [("", "月"), ("b", ""), ("", "月")]
    let built := (Builder.ofSizes 64 2 4096 1).build (.ofString "a") default (write entries) (bare ⟨0⟩) ()
    StoredAt built.2.1 (.ofString "a") entries := by
  decide +kernel

/-- Nothing is at `x/../x` before a build that fails at a zero character, and a directory afterwards. -/
theorem missing_parent_can_become_destination :
    ∃ d built,
      built = (Builder.ofSizes 4096 2 4096 1).build d default (write [("a\x00", "b")]) (bare ⟨0⟩) () ∧
      built.1 = .error (.arena (.invalidArgument .interiorNul)) ∧ (bare ⟨0⟩).pathExists d = false ∧
      built.2.1.isDirectory d = true := by
  refine ⟨.ofString "x/../x", _, rfl, ?_, ?_, ?_⟩
  · decide +kernel
  · decide +kernel
  · decide +kernel

end StringTable

end Bindery
