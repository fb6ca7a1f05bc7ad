import Bindery.Artifact.Reader
import Bindery.Proofs.Arena.Region
import Bindery.Proofs.FileSystem.SameFile

/-!
# The two readers of metadata

The metadata of an artifact is read from its file or from a mapping of it.  Both readers decode the first 64 bytes
and check them in the same way (`Header.check_cases`), so that they can part only where the mapping is asked for the
header and for the metadata.  It refuses the header of a file that is too short for one, which the other reader
looks at first; and it cannot refuse metadata that has passed the check, since that lies inside the file and ends
within reach of offsets.
-/

namespace Bindery.Artifact

open FileSystem

variable {fs : FileSystem} {p : Path} {id : Nat}

/-- An error that says that the file at a path is no artifact of this format. -/
def Error.OfFormat (path : Path) : Error → Prop
  | .invalidHeader p _ | .versionMismatch p _ => p = path
  | .malformedMetadata => True
  | .arena _ | .file _ _ | .unwritable _ | .capacityLimit _ => False

/-- A header passes its check if its metadata, of which there is some, lies behind it and within the file. -/
theorem Header.check_cases (h : Header) (path : Path) (n : Nat) :
    (h.check path n = .ok () ∧ 0 < h.metadataLength.toNat ∧ h.metadataOffset.toNat + h.metadataLength.toNat ≤ n) ∨
      ∃ e, h.check path n = .error e ∧ e.OfFormat path := by
  unfold check
  split
  · exact .inr ⟨_, rfl, rfl⟩
  split
  · exact .inr ⟨_, rfl, rfl⟩
  split
  · exact .inr ⟨_, rfl, rfl⟩
  · next hin =>
    rw [not_or, not_or] at hin
    obtain ⟨-, hne, hle⟩ := hin
    refine .inl ⟨rfl, Nat.pos_of_ne_zero fun h0 => hne ?_, by omega⟩
    exact UInt32.toNat_inj.1 h0

theorem decodeMetadata_ofFormat {bytes : List UInt8} {e : Error} (h : decodeMetadata bytes = .error e) (path : Path) :
    e.OfFormat path := by
  unfold decodeMetadata at h
  split at h <;> cases h
  trivial

/-! ### Readings of a mapped file -/

/-- A file mapped for reading. -/
def mappedFile (fs : FileSystem) (p : Path) (id : Nat) : Arena.State :=
  ⟨fs, ⟨p, some ⟨.readOnly, id, (fs.file id).content.size⟩, (fs.file id).content.size⟩⟩

@[simp] theorem path_mappedFile (fs : FileSystem) (p : Path) (id : Nat) : (mappedFile fs p id).arena.path = p := rfl

@[simp] theorem size_mappedFile (fs : FileSystem) (p : Path) (id : Nat) :
    (mappedFile fs p id).arena.size = (fs.file id).content.size := rfl

theorem readHeader_of_short (h : (fs.file id).content.size < headerSize) :
    readHeader (mappedFile fs p id) = .error (.invalidHeader p .shorterThanHeader) := by
  have hp : (mappedFile fs p id).arena.positionOf (.ofPosition 0) headerLayout.size =
      .error (.invalidOffset (.ofPosition 0) headerLayout.size (fs.file id).content.size) := by
    have hlt : (fs.file id).content.size < 0 + headerLayout.size := by rwa [Nat.zero_add]
    exact if_pos hlt
  unfold readHeader Arena.State.get Arena.State.readRange
  rw [hp]
  rfl

theorem readHeader_of_le (h : headerSize ≤ (fs.file id).content.size) :
    readHeader (mappedFile fs p id) = .ok (.decode ((fs.file id).content.slice 0 headerSize)) := by
  have hle : (Arena.Offset.ofPosition 0).position + headerLayout.size ≤ (mappedFile fs p id).arena.size := by
    show 0 + headerSize ≤ _
    rwa [Nat.zero_add]
  unfold readHeader Arena.State.get
  rw [Arena.State.readRange_of_le rfl (by decide) hle (by decide)]
  rfl

/-- Metadata that has passed the check of its header can be read. -/
theorem getAll_metadata (hsize : (fs.file id).content.size ≤ Arena.maxCapacity) {offset length : UInt32}
    (hpos : 0 < length.toNat) (hle : offset.toNat + length.toNat ≤ (fs.file id).content.size) :
    (mappedFile fs p id).getAll .byte ⟨offset⟩ length.toNat =
      .ok ((fs.file id).content.slice offset.toNat length.toNat) := by
  have hspan : Arena.spanLength .byte length.toNat = length.toNat := by
    have hlt : length.toNat < 2 ^ 32 := length.toNat_lt
    have hone : Arena.Layout.byte.size * length.toNat = length.toNat := Nat.one_mul _
    rw [Arena.spanLength_of_le] <;> rw [hone]
    exact Nat.le_trans (Nat.le_of_lt hlt) (by decide)
  -- the null offset is one behind the last that a file can have
  have hnull : (⟨offset⟩ : Arena.Offset) ≠ .null := by
    apply Arena.Offset.ne_null
    show offset.toNat < _
    omega
  have haligned : (⟨offset⟩ : Arena.Offset).position % Arena.Layout.byte.align = 0 := Nat.mod_one _
  have hin : (⟨offset⟩ : Arena.Offset).position + length.toNat ≤ (mappedFile fs p id).arena.size := hle
  unfold Arena.State.getAll
  rw [hspan, Arena.State.readRange_of_le rfl hnull hin haligned]
  rfl

/-! ### Agreement -/

/-- Reading a file and mapping it find the same metadata, or the same fault of the file. -/
theorem readers_agree {bytes : List UInt8} (hp : fs.read p = .ok bytes) (hsize : bytes.length ≤ Arena.maxCapacity) :
    (∃ a, load fs p = .ok a ∧ metadataOf fs p = .ok a.metadata) ∨
      ∃ e, load fs p = .error e ∧ metadataOf fs p = .error e ∧ e.OfFormat p := by
  obtain ⟨r, id, hid, rfl⟩ := read_eq_ok.1 hp
  rw [Content.toList, Content.length_slice] at hsize
  have hopen : fs.openToRead p = .ok (.file id) := openToRead_eq_ok.2 ⟨r, hid⟩
  have hload : load fs p = ofMapped (mappedFile fs p id) := by
    unfold load
    rw [show Arena.openToRead.run ⟨fs, .closed p⟩ = .ok () (mappedFile fs p id) from
      Arena.openToRead_of_file _ hopen]
  rw [hload]
  unfold metadataOf ofMapped
  rw [hopen]
  dsimp only
  by_cases hshort : (fs.file id).content.size < headerSize
  · rw [readHeader_of_short hshort, if_pos hshort]
    exact .inr ⟨_, rfl, rfl, rfl⟩
  rw [readHeader_of_le (Nat.le_of_not_lt hshort), if_neg hshort]
  dsimp only
  generalize Header.decode ((fs.file id).content.slice 0 headerSize) = header
  rcases header.check_cases p (fs.file id).content.size with ⟨hc, hpos, hle⟩ | ⟨e, hc, he⟩
  · simp only [path_mappedFile, size_mappedFile, hc, getAll_metadata hsize hpos hle]
    cases hm : decodeMetadata ((fs.file id).content.slice header.metadataOffset.toNat header.metadataLength.toNat) with
    | ok metadata => exact .inl ⟨_, rfl, rfl⟩
    | error e => exact .inr ⟨e, rfl, rfl, decodeMetadata_ofFormat hm p⟩
  · simp only [path_mappedFile, size_mappedFile, hc]
    exact .inr ⟨e, rfl, rfl, he⟩

/-- A header that places one byte of metadata at the null offset. -/
theorem readers_agree_on_null_offset :
    let header : Header := { Header.ofKind 0 with metadataOffset := 0xFFFFFFFF, metadataLength := 1 }
    let fs := (bare ⟨0⟩).addFile [Text.encode "a"] ⟨.ofList header.encode, ⟨0⟩⟩
    fs.read (.ofString "a") = .ok header.encode ∧ header.encode.length ≤ Arena.maxCapacity ∧
      ∃ e, load fs (.ofString "a") = .error e ∧ metadataOf fs (.ofString "a") = .error e ∧
        e = .invalidHeader (.ofString "a") (.metadataOutside 0xFFFFFFFF 1 64) := by
  intro header fs
  have hread : fs.read (.ofString "a") = .ok header.encode := by decide +kernel
  have hlen : header.encode.length ≤ Arena.maxCapacity := by decide +kernel
  have hmeta : metadataOf fs (.ofString "a") =
      .error (.invalidHeader (.ofString "a") (.metadataOutside 0xFFFFFFFF 1 64)) := by
    decide +kernel
  refine ⟨hread, hlen, ?_⟩
  rcases readers_agree hread hlen with ⟨a, -, ha⟩ | ⟨e, hl, he, -⟩
  · cases ha.symm.trans hmeta
  · exact ⟨e, hl, he, Except.error.inj (he.symm.trans hmeta)⟩

end Bindery.Artifact
