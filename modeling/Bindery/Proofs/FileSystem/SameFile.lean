import Bindery.Proofs.FileSystem.Edits

/-!
# Paths to the same file

Where files stay what they were and no directory goes (`KeepsFiles`), a path that led to one of these files leads to
it still, and everything that can be read by that path is as it was (`SameFile`).  A path at which nothing was may
come to lead somewhere, so that it must be asked for that it does not; then it is told apart from a path to a file,
before and after, in the same way (`KeepsFiles.isFile_eq`).
-/

namespace Bindery.FileSystem

variable {fs fs' : FileSystem} {p : Path} {r : Route} {id : Nat} {kept : Route → Prop}

/-! ### One path -/

/-- A path leads to the same file in two file systems, with the same bytes and the same time. -/
def SameFile (fs fs' : FileSystem) (p : Path) : Prop :=
  ∃ r id, fs.stat p = .ok (r, .file id) ∧ fs'.stat p = .ok (r, .file id) ∧ fs'.file id = fs.file id

namespace SameFile

theorem read_eq (h : SameFile fs fs' p) : fs'.read p = fs.read p := by
  obtain ⟨r, id, hs, hs', hf⟩ := h
  unfold FileSystem.read openToRead
  rw [hs, hs']
  show Except.ok _ = Except.ok _
  rw [hf]

theorem readText_eq (h : SameFile fs fs' p) : fs'.readText p = fs.readText p := by
  unfold readText
  rw [h.read_eq]

theorem lastModified?_eq (h : SameFile fs fs' p) : fs'.lastModified? p = fs.lastModified? p := by
  obtain ⟨r, id, hs, hs', hf⟩ := h
  unfold lastModified?
  rw [hs, hs']
  show some (fs'.file id).modified.seconds = some (fs.file id).modified.seconds
  rw [hf]

end SameFile

theorem isFile_eq_true : fs.isFile p = true ↔ ∃ r id, fs.stat p = .ok (r, .file id) := by
  unfold isFile
  rcases fs.stat p with e | ⟨r, (i | t)⟩ <;> simp

theorem isDirectory_of_isFile (h : fs.isFile p = true) : fs.isDirectory p = false := by
  obtain ⟨r, id, hs⟩ := isFile_eq_true.1 h
  unfold isDirectory
  rw [hs]

/-- What is at a path is a file or a directory. -/
theorem pathExists_iff : fs.pathExists p = true ↔ fs.isFile p = true ∨ fs.isDirectory p = true := by
  unfold pathExists isFile isDirectory
  rcases fs.stat p with e | ⟨r, (i | t)⟩ <;> simp [Except.toBool]

theorem read_eq_ok {bytes : List UInt8} :
    fs.read p = .ok bytes ↔ ∃ r id, fs.stat p = .ok (r, .file id) ∧ (fs.file id).content.toList = bytes := by
  unfold FileSystem.read openToRead
  rcases fs.stat p with e | ⟨r, (i | t)⟩
  · simp
  · constructor
    · intro h
      exact ⟨r, i, rfl, Except.ok.inj h⟩
    · rintro ⟨_, _, h, rfl⟩
      cases h
      rfl
  · simp

/-! ### Many files -/

/-- The directories of one file system are directories of another, and at some routes both have the same files. -/
structure KeepsFiles (kept : Route → Prop) (fs fs' : FileSystem) : Prop extends KeepsDirectories fs fs' where
  node : ∀ r, kept r → ∀ id, fs'.node? r = some (.file id) ↔ fs.node? r = some (.file id)
  file : ∀ r, kept r → ∀ id, fs.node? r = some (.file id) → fs'.file id = fs.file id

namespace KeepsFiles

theorem refl (kept : Route → Prop) (fs : FileSystem) : KeepsFiles kept fs fs where
  toKeepsDirectories := .refl fs
  node _ _ _ := Iff.rfl
  file _ _ _ _ := rfl

theorem mono {kept' : Route → Prop} (h : KeepsFiles kept fs fs') (hle : ∀ r, kept' r → kept r) :
    KeepsFiles kept' fs fs' where
  toKeepsDirectories := h.toKeepsDirectories
  node r hr := h.node r (hle r hr)
  file r hr := h.file r (hle r hr)

theorem trans {fs₁ : FileSystem} (h : KeepsFiles kept fs fs₁) (h' : KeepsFiles kept fs₁ fs') :
    KeepsFiles kept fs fs' where
  toKeepsDirectories := h.toKeepsDirectories.trans h'.toKeepsDirectories
  node r hr id := (h'.node r hr id).trans (h.node r hr id)
  file r hr id hid := (h'.file r hr id ((h.node r hr id).2 hid)).trans (h.file r hr id hid)

theorem sameFile (h : KeepsFiles kept fs fs') (hs : fs.stat p = .ok (r, .file id)) (hr : kept r) :
    SameFile fs fs' p := by
  obtain ⟨spot, hl, hspot, ha, hn⟩ := stat_eq_ok.1 hs
  have hl' : fs'.locate p = .ok spot := locate_mono h.toKeepsDirectories hl
  exact ⟨r, id, hs, stat_eq_ok.2 ⟨spot, hl', hspot, ha, (h.node r hr id).2 hn⟩, h.file r hr id hn⟩

theorem isDirectory (h : KeepsFiles kept fs fs') {t : Time.Instant} (hs : fs.stat p = .ok (r, .directory t)) :
    ∃ t', fs'.stat p = .ok (r, .directory t') := by
  obtain ⟨spot, hl, hspot, ha, hn⟩ := stat_eq_ok.1 hs
  obtain ⟨t', hn'⟩ := h.directory r ⟨t, hn⟩
  refine ⟨t', stat_eq_ok.2 ⟨spot, locate_mono h.toKeepsDirectories hl, hspot, ?_, hn'⟩⟩
  cases spot with
  | directory r' => trivial
  | entry dir name slashed => exact ⟨ha.1, fun _ => ⟨t', rfl⟩⟩

/-- A path that leads to kept files at most, and to nothing new, is one to a file if it was. -/
theorem isFile_eq (h : KeepsFiles kept fs fs') (hr : ∀ r, fs'.route? p = some r → kept r)
    (hex : fs.pathExists p = false → fs'.pathExists p = false) :
    fs'.isFile p = fs.isFile p ∧ fs'.pathExists p = fs.pathExists p := by
  cases hs : fs.stat p with
  | error e =>
    have hno : fs.pathExists p = false := by unfold pathExists; rw [hs]; rfl
    have hno' := hex hno
    refine ⟨?_, hno'.trans hno.symm⟩
    unfold isFile
    rw [hs]
    cases hs' : fs'.stat p with
    | error e' => rfl
    | ok found => exact absurd (pathExists_eq_true.2 ⟨_, _, hs'⟩) (by simp [hno'])
  | ok found =>
    obtain ⟨r, node⟩ := found
    cases node with
    | file id =>
      have hroute := route?_mono h.toKeepsDirectories (route?_of_stat hs).1
      obtain ⟨r', id', hs₁, hs₂, -⟩ := h.sameFile hs (hr _ hroute)
      unfold isFile pathExists
      rw [hs₁, hs₂]
      exact ⟨rfl, rfl⟩
    | directory t =>
      obtain ⟨t', hs'⟩ := h.isDirectory hs
      unfold isFile pathExists
      rw [hs, hs']
      exact ⟨rfl, rfl⟩

end KeepsFiles

end Bindery.FileSystem
