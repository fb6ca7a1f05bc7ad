import Bindery.Artifact.Fresh
import Bindery.Proofs.Artifact.Destination
import Bindery.Proofs.Artifact.Readers

/-!
# Artifacts that are cut short

The metadata is the last thing in an artifact and ends where the file ends (`Builder.build_writes_to_end`).  So if
anything is missing at the end of the file, the header places metadata outside it, unless the header itself is cut, and
both readers of metadata refuse the file for its header (`readers_reject_front`).  What comes behind the metadata they
do not look at.
-/

namespace Bindery

open FileSystem

namespace Artifact

variable {fs : FileSystem} {p : Path} {id : Nat} {kind : UInt32} {m : Metadata} {root block : Arena.Offset}
  {payload : Arena.Ledger} {c : Content}

theorem load_of_openToRead (hopen : fs.openToRead p = .ok (.file id)) : load fs p = ofMapped (mappedFile fs p id) := by
  unfold load
  rw [show Arena.openToRead.run ⟨fs, .closed p⟩ = .ok () (mappedFile fs p id) from Arena.openToRead_of_file _ hopen]

/-! ### Headers that are refused -/

/-- Metadata that ends behind the end of the file is refused. -/
theorem Header.check_placed_of_lt (kind : UInt32) (root : Arena.Offset) {size length : Nat} (path : Path)
    (hlen : length ≤ Arena.maxCapacity) (hsize : size < block.position + length) :
    (placed kind root block length).check path size =
      .error (.invalidHeader path (.metadataOutside block.raw (UInt32.ofNat length) size)) := by
  have hl := toNat_metadataLength kind root block hlen
  unfold check
  rw [if_neg (by simp [placed, ofKind]), if_neg (by simp [placed, ofKind])]
  refine if_pos (.inr (.inr ?_))
  rw [hl]
  exact hsize

/-- Both readers refuse a file that is too short for a header. -/
theorem readers_reject_short (hopen : fs.openToRead p = .ok (.file id)) (h : (fs.file id).content.size < headerSize) :
    metadataOf fs p = .error (.invalidHeader p .shorterThanHeader) ∧
      load fs p = .error (.invalidHeader p .shorterThanHeader) := by
  rw [load_of_openToRead hopen]
  unfold metadataOf ofMapped
  rw [hopen, readHeader_of_short h]
  exact ⟨if_pos h, rfl⟩

/-- Both readers refuse a file for what is wrong with its header. -/
theorem readers_reject_header (hopen : fs.openToRead p = .ok (.file id)) (h : headerSize ≤ (fs.file id).content.size)
    {e : Error} (hcheck : (Header.decode ((fs.file id).content.slice 0 headerSize)).check p
      (fs.file id).content.size = .error e) :
    metadataOf fs p = .error e ∧ load fs p = .error e := by
  rw [load_of_openToRead hopen]
  unfold metadataOf ofMapped
  rw [hopen, readHeader_of_le h]
  dsimp only
  rw [if_neg (Nat.not_lt.2 h), path_mappedFile, size_mappedFile, hcheck]
  exact ⟨rfl, rfl⟩

/-! ### The front of an artifact -/

/-- A file that begins as an artifact does, but ends before its metadata does, is refused for its header. -/
theorem readers_reject_front (h : (blocks kind m root block payload).WrittenIn c)
    (hopen : fs.openToRead p = .ok (.file id)) (hfront : (fs.file id).content.toList <+: c.toList)
    (hlt : (fs.file id).content.size < block.position + m.encode.length) :
    ∃ flaw, metadataOf fs p = .error (.invalidHeader p flaw) ∧ load fs p = .error (.invalidHeader p flaw) := by
  by_cases hshort : (fs.file id).content.size < headerSize
  · exact ⟨_, readers_reject_short hopen hshort⟩
  · have hle := Nat.le_of_not_lt hshort
    -- the header is there as a whole, and places the metadata where the artifact has it
    have hheader : (fs.file id).content.slice 0 headerSize =
        (Header.placed kind root block m.encode.length).encode := by
      rw [← Content.slice_of_isPrefix _ hfront (by rwa [Nat.zero_add])]
      exact header_place h
    obtain ⟨-, -, hstop, -⟩ := metadata_place h
    have hlen : m.encode.length ≤ Arena.maxCapacity :=
      Nat.le_trans (Nat.le_trans (Nat.le_add_left _ _) hstop) h.size_le
    have hcheck := Header.check_placed_of_lt kind root p hlen hlt
    rw [← Header.decode_encode_placed, ← hheader] at hcheck
    exact ⟨_, readers_reject_header hopen hle hcheck⟩

end Artifact

namespace Builder

variable {σ : Type} {b : Builder} {d : Path} {m : Metadata} {program : σ → Script σ} {fs fs' : FileSystem} {u u' : σ}
  {outcome : Build.Outcome}

/-- A file that holds less than what a build has left is no artifact to anyone, and is not fresh, wherever it is, and
whatever it is compared with.  A file that holds more, but no more than offsets reach, has the same metadata. -/
theorem truncated_artifact_is_rejected (hc : ∀ u, (program u).Confined [])
    (h : b.build d m (Script.writer program) fs u = (.ok outcome, fs', u')) :
    ∃ bytes, fs'.read d = .ok bytes ∧ bytes.length = outcome.size ∧
      (∀ n fs₂ p, n < outcome.size → fs₂.read p = .ok (bytes.take n) →
        (∃ flaw, Artifact.metadataOf fs₂ p = .error (.invalidHeader p flaw) ∧
          Artifact.load fs₂ p = .error (.invalidHeader p flaw)) ∧
        ∀ t sources, Artifact.isFresh t fs₂ p sources = false) ∧
      ∀ more fs₂ p, (bytes ++ more).length ≤ Arena.maxCapacity → fs₂.read p = .ok (bytes ++ more) →
        Artifact.metadataOf fs₂ p = .ok m ∧ ∃ a, Artifact.load fs₂ p = .ok a ∧ a.metadata = m := by
  obtain ⟨_, _, _, _, w, block, dst, id, -, hstat, hin, hsize, hend⟩ := build_writes_to_end hc h
  have hlength : (fs'.file id).content.toList.length = outcome.size := by
    rw [Content.toList, Content.length_slice, hsize]
  refine ⟨(fs'.file id).content.toList, read_eq_ok.2 ⟨dst, id, hstat, rfl⟩, hlength, ?_, ?_⟩
  · intro n fs₂ p hn hread
    obtain ⟨r, id₂, hstat₂, htake⟩ := read_eq_ok.1 hread
    have hsize₂ : (fs₂.file id₂).content.size = n := by
      have hlen := congrArg List.length htake
      rw [List.length_take, hlength, Content.toList, Content.length_slice] at hlen
      omega
    obtain ⟨flaw, hmeta, hload⟩ := Artifact.readers_reject_front hin (openToRead_eq_ok.2 ⟨r, hstat₂⟩)
      (htake ▸ List.take_prefix _ _) (by omega)
    refine ⟨⟨flaw, hmeta, hload⟩, fun t sources => ?_⟩
    unfold Artifact.isFresh
    rw [hmeta]
  · intro more fs₂ p hmax hread
    obtain ⟨r, id₂, hstat₂, happend⟩ := read_eq_ok.1 hread
    have hsize₂ : (fs₂.file id₂).content.size ≤ Arena.maxCapacity := by
      rwa [← happend, Content.toList, Content.length_slice] at hmax
    have hin₂ := hin.of_isPrefix (happend ▸ List.prefix_append _ more) hsize₂
    obtain ⟨a, hload, hmeta, -⟩ := Artifact.load_of_writtenIn hstat₂ hin₂
    exact ⟨Artifact.metadataOf_of_writtenIn hstat₂ hin₂, a, hload, hmeta⟩

/-- Some files hold given bytes. -/
private theorem exists_read (bytes : List UInt8) : ∃ fs : FileSystem, fs.read (.ofString "b") = .ok bytes := by
  have hopen : ((bare ⟨0⟩).addFile [Text.encode "b"] ⟨.empty, ⟨0⟩⟩).openToWrite (.ofString "b") = .ok 0 := by
    decide +kernel
  obtain ⟨r, hr⟩ := openToWrite_eq_ok.1 (openToWrite_modifyFile hopen 0 fun f => ⟨.ofList bytes, f.modified⟩)
  refine ⟨_, read_eq_ok.2 ⟨r, 0, hr, ?_⟩⟩
  have hsize : (Content.ofList bytes).size = bytes.length := by
    show (if bytes = [] then 0 else max 0 (0 + bytes.length)) = _
    split
    · next hnil => rw [hnil]; rfl
    · omega
  rw [file_modifyFile _ _ _ _ (by decide), if_pos rfl, Content.toList, hsize]
  exact Content.slice_overwrite_self _ _ _

/-- The last of the seven bytes behind the header is missing, or three more are there. -/
theorem truncated_text_is_rejected :
    ∃ fs' bytes, (ofSizes 64 2 4096 7).build (.ofString "a") default (Script.writer writtenText) (bare ⟨0⟩) () =
        (.ok ⟨.ofString "a", 71, 2⟩, fs', ()) ∧ fs'.read (.ofString "a") = .ok bytes ∧
      (∃ fs₂ flaw, fs₂.read (.ofString "b") = .ok (bytes.take 70) ∧
        Artifact.metadataOf fs₂ (.ofString "b") = .error (.invalidHeader (.ofString "b") flaw) ∧
        Artifact.load fs₂ (.ofString "b") = .error (.invalidHeader (.ofString "b") flaw)) ∧
      ∃ fs₃, fs₃.read (.ofString "b") = .ok (bytes ++ [1, 2, 3]) ∧
        Artifact.metadataOf fs₃ (.ofString "b") = .ok default := by
  have hok : ((ofSizes 64 2 4096 7).build (.ofString "a") default (Script.writer writtenText) (bare ⟨0⟩) ()).1 =
      .ok ⟨.ofString "a", 71, 2⟩ := by
    decide +kernel
  have hbuild : (ofSizes 64 2 4096 7).build (.ofString "a") default (Script.writer writtenText) (bare ⟨0⟩) () =
      (.ok ⟨.ofString "a", 71, 2⟩, _, ()) := Prod.ext hok rfl
  obtain ⟨bytes, hread, hlen, hshort, hlong⟩ := truncated_artifact_is_rejected confined_writtenText hbuild
  obtain ⟨fs₂, hfs₂⟩ := exists_read (bytes.take 70)
  obtain ⟨fs₃, hfs₃⟩ := exists_read (bytes ++ [1, 2, 3])
  obtain ⟨⟨flaw, hmeta, hload⟩, -⟩ := hshort 70 fs₂ (.ofString "b") (by decide) hfs₂
  have hmax : (bytes ++ [1, 2, 3]).length ≤ Arena.maxCapacity := by
    rw [List.length_append, hlen]
    decide
  exact ⟨_, bytes, hbuild, hread, ⟨fs₂, flaw, hfs₂, hmeta, hload⟩, fs₃, hfs₃, (hlong _ fs₃ _ hmax hfs₃).1⟩

end Builder

end Bindery
