import Bindery.Proofs.Artifact.Noting
import Bindery.Proofs.Artifact.Replacement
import Bindery.Proofs.Metadata.RoundTrip

/-!
# Builds read back

An artifact is a ledger in a file: the header, what the writer stored, and the metadata (`Artifact.blocks`).  An
attempt that succeeds leaves that ledger in its file and nothing behind it (`Builder.attempt_writes`), and a file
with that ledger reads back: the metadata with and without mapping it, the root, and every block of the writer
(`Artifact.load_of_writtenIn`).  Together with the renaming this is the round trip of a build
(`Builder.build_reads_back`).
-/

namespace Bindery

open Steps FileSystem

namespace Artifact

/-! ### Headers -/

namespace Header

private theorem wordAt_append (before behind : List UInt8) (w : UInt32) {i : Nat} (hi : before.length = i) :
    wordAt (before ++ wordBytes w ++ behind) i = w := by
  have hlen : (wordBytes w).length = 4 := LittleEndian.length_ofNat 4 _
  have hw : w.toNat < LittleEndian.limit 4 := w.toNat_lt
  unfold wordAt
  rw [List.append_assoc, List.drop_left' hi, List.take_left' hlen]
  unfold wordBytes
  rw [LittleEndian.toNat_ofNat _ _ hw, UInt32.ofNat_toNat]

theorem length_encode {h : Header} (hm : h.magic.length = 8) (hr : h.reserved.length = 36) :
    h.encode.length = headerSize := by
  unfold encode wordBytes
  simp [hm, hr, headerSize]

theorem decode_encode {h : Header} (hm : h.magic.length = 8) : decode h.encode = h := by
  have hlen (w : UInt32) : (wordBytes w).length = 4 := LittleEndian.length_ofNat 4 _
  have h₁ := wordAt_append h.magic (wordBytes h.payloadKind ++ wordBytes h.metadataOffset ++
    wordBytes h.metadataLength ++ wordBytes h.payloadRoot ++ h.reserved) h.formatVersion hm
  have h₂ := wordAt_append (h.magic ++ wordBytes h.formatVersion) (wordBytes h.metadataOffset ++
    wordBytes h.metadataLength ++ wordBytes h.payloadRoot ++ h.reserved) h.payloadKind (i := 12) (by simp [hm, hlen])
  have h₃ := wordAt_append (h.magic ++ wordBytes h.formatVersion ++ wordBytes h.payloadKind)
    (wordBytes h.metadataLength ++ wordBytes h.payloadRoot ++ h.reserved) h.metadataOffset (i := 16)
    (by simp [hm, hlen])
  have h₄ := wordAt_append (h.magic ++ wordBytes h.formatVersion ++ wordBytes h.payloadKind ++
    wordBytes h.metadataOffset) (wordBytes h.payloadRoot ++ h.reserved) h.metadataLength (i := 20)
    (by simp [hm, hlen])
  have h₅ := wordAt_append (h.magic ++ wordBytes h.formatVersion ++ wordBytes h.payloadKind ++
    wordBytes h.metadataOffset ++ wordBytes h.metadataLength) h.reserved h.payloadRoot (i := 24)
    (by simp [hm, hlen])
  have htake : h.encode.take 8 = h.magic := by
    unfold encode
    simp only [List.append_assoc]
    exact List.take_left' hm
  have hdrop : h.encode.drop 28 = h.reserved := by
    unfold encode
    exact List.drop_left' (by simp [hm, hlen])
  simp only [List.append_assoc] at h₁ h₂ h₃ h₄ h₅
  unfold decode
  rw [htake, hdrop]
  unfold encode
  simp only [List.append_assoc]
  rw [h₁, h₂, h₃, h₄, h₅]

/-- The header of an artifact in which everything has been placed. -/
def placed (kind : UInt32) (root block : Arena.Offset) (length : Nat) : Header :=
  { ofKind kind with
    payloadRoot := root.raw
    metadataOffset := block.raw
    metadataLength := UInt32.ofNat length }

variable {kind : UInt32} {root block : Arena.Offset} {length size : Nat}

theorem length_encode_ofKind (kind : UInt32) : (ofKind kind).encode.length = headerSize := length_encode rfl rfl

theorem length_encode_placed : (placed kind root block length).encode.length = headerSize := length_encode rfl rfl

theorem decode_encode_ofKind (kind : UInt32) : decode (ofKind kind).encode = ofKind kind := decode_encode rfl

theorem decode_encode_placed : decode (placed kind root block length).encode = placed kind root block length :=
  decode_encode rfl

theorem toNat_metadataLength (kind : UInt32) (root block : Arena.Offset) (h : length ≤ Arena.maxCapacity) :
    (placed kind root block length).metadataLength.toNat = length := Arena.Offset.position_ofPosition h

theorem check_placed (path : Path) (hblock : headerSize ≤ block.position) (hlen : 0 < length)
    (hsize : block.position + length ≤ size) (hmax : size ≤ Arena.maxCapacity) :
    (placed kind root block length).check path size = .ok () := by
  have hl := toNat_metadataLength kind root block (show length ≤ Arena.maxCapacity by omega)
  have hne : (placed kind root block length).metadataLength ≠ 0 := by
    intro h
    rw [h] at hl
    simp at hl
    omega
  have hin : ¬ (block.position < headerSize ∨ (placed kind root block length).metadataLength = 0 ∨
      size < block.position + (placed kind root block length).metadataLength.toNat) := by
    rw [hl]
    simp only [hne, false_or]
    omega
  unfold check
  rw [if_neg (by simp [placed, ofKind]), if_neg (by simp [placed, ofKind])]
  exact if_neg hin

end Header

/-! ### Artifacts in files -/

/-- The ledger of an artifact: the header, the blocks of the payload, and the metadata. -/
def blocks (kind : UInt32) (m : Metadata) (root block : Arena.Offset) (payload : Arena.Ledger) : Arena.Ledger :=
  ⟨headerLayout, 1, .ofPosition 0, (Header.placed kind root block m.encode.length).encode⟩ ::
    (payload ++ [⟨.byte, m.encode.length, block, m.encode⟩])

section File

variable {kind : UInt32} {m : Metadata} {root block : Arena.Offset} {payload : Arena.Ledger} {fs : FileSystem}
  {p : Path} {r : Route} {id : Nat}

private theorem decodeMetadata_encode (h : m.encode.length ≤ Arena.maxCapacity) :
    decodeMetadata m.encode = .ok m := by
  have hm := Metadata.reads (Metadata.fits_of_length (Nat.lt_of_le_of_lt h (by decide))) []
  rw [List.append_nil] at hm
  unfold decodeMetadata
  rw [hm]

theorem header_place {content : Content} (h : (blocks kind m root block payload).WrittenIn content) :
    content.slice 0 headerSize = (Header.placed kind root block m.encode.length).encode := by
  have hstored := h.stored _ List.mem_cons_self
  rw [Header.length_encode_placed] at hstored
  exact hstored

theorem metadata_place {content : Content} (h : (blocks kind m root block payload).WrittenIn content) :
    headerSize ≤ block.position ∧ 0 < m.encode.length ∧ block.position + m.encode.length ≤ content.size ∧
      content.slice block.position m.encode.length = m.encode := by
  have hmem : (⟨.byte, m.encode.length, block, m.encode⟩ : Arena.Block) ∈
      payload ++ [⟨.byte, m.encode.length, block, m.encode⟩] := List.mem_append_right _ (List.mem_singleton.2 rfl)
  have hf := h.fits _ (List.mem_cons_of_mem _ hmem)
  refine ⟨?_, hf.length_pos, hf.stop_le, h.stored _ (List.mem_cons_of_mem _ hmem)⟩
  have hstop := (List.pairwise_cons.1 h.apart).1 _ hmem
  unfold Arena.Block.stop at hstop
  rw [Header.length_encode_placed] at hstop
  exact hstop

/-- The metadata of an artifact reads back from its file. -/
theorem metadataOf_of_writtenIn (hp : fs.stat p = .ok (r, .file id))
    (h : (blocks kind m root block payload).WrittenIn (fs.file id).content) : metadataOf fs p = .ok m := by
  obtain ⟨hblock, hpos, hstop, hslice⟩ := metadata_place h
  have hmax := h.size_le
  have hopen : fs.openToRead p = .ok (.file id) := openToRead_eq_ok.2 ⟨r, hp⟩
  have hlen := Header.toNat_metadataLength kind root block
    (Nat.le_trans (Nat.le_trans (Nat.le_add_left _ _) hstop) hmax)
  unfold metadataOf
  rw [hopen]
  dsimp only
  rw [if_neg (by omega), header_place h, Header.decode_encode_placed, Header.check_placed p hblock hpos hstop hmax,
    hlen]
  show decodeMetadata (Content.slice _ block.position _) = _
  rw [hslice, decodeMetadata_encode (by omega)]

/-- An artifact can be mapped, and everything in it reads back. -/
theorem load_of_writtenIn (hp : fs.stat p = .ok (r, .file id))
    (h : (blocks kind m root block payload).WrittenIn (fs.file id).content) :
    ∃ a, load fs p = .ok a ∧ a.metadata = m ∧ a.header = Header.placed kind root block m.encode.length ∧
      ∀ b ∈ payload, b.ReadsBack ⟨fs, a.arena⟩ := by
  obtain ⟨hblock, hpos, hstop, -⟩ := metadata_place h
  have hmax := h.size_le
  have hheld := h.heldBy p
  have hopen : fs.openToRead p = .ok (.file id) := openToRead_eq_ok.2 ⟨r, hp⟩
  have hlen := Header.toNat_metadataLength kind root block
    (Nat.le_trans (Nat.le_trans (Nat.le_add_left _ _) hstop) hmax)
  have hrun : Arena.openToRead.run ⟨fs, .closed p⟩ =
      .ok () ⟨fs, ⟨p, some ⟨.readOnly, id, (fs.file id).content.size⟩, (fs.file id).content.size⟩⟩ :=
    Arena.openToRead_of_file _ hopen
  have hheader := (hheld.readsBack List.mem_cons_self).get
  have htake : (Header.placed kind root block m.encode.length).encode.take headerLayout.size =
      (Header.placed kind root block m.encode.length).encode :=
    List.take_of_length_le (Nat.le_of_eq Header.length_encode_placed)
  dsimp only at hheader
  rw [htake] at hheader
  have hmeta := (hheld.readsBack (b := ⟨.byte, m.encode.length, block, m.encode⟩)
    (List.mem_cons_of_mem _ (List.mem_append_right _ (List.mem_singleton.2 rfl)))).getAll
  refine ⟨⟨⟨p, some ⟨.readOnly, id, (fs.file id).content.size⟩, (fs.file id).content.size⟩, _, m⟩, ?_, rfl, rfl,
    fun b hb => hheld.readsBack (List.mem_cons_of_mem _ (List.mem_append_left _ hb))⟩
  unfold load
  rw [hrun]
  dsimp only
  unfold ofMapped readHeader
  rw [hheader]
  dsimp only
  rw [Header.decode_encode_placed, Header.check_placed p hblock hpos hstop hmax, hlen]
  have hoffset : (⟨(Header.placed kind root block m.encode.length).metadataOffset⟩ : Arena.Offset) = block := rfl
  rw [hoffset, hmeta]
  dsimp only
  rw [decodeMetadata_encode (by omega)]
  rfl

end File

end Artifact

namespace Builder

open Build Artifact

variable {σ : Type} {b : Builder} {m : Metadata} {program : σ → Script σ} {mp : Arena.Mapping} {kind : UInt32}

/-! ### The steps of an attempt -/

theorem writer_eq_ok {s s' : Arena.State × σ} {root : Arena.Offset}
    (h : Script.writer program s = .ok root s') : (program s.2).run s.1 = (.ok root, s'.1, s'.2) := by
  unfold Script.writer at h
  dsimp only at h
  rcases hr : (program s.2).run s.1 with ⟨e | root', t, u⟩ <;> rw [hr] at h
  · cases h
  · cases h; rfl

private theorem ok_inj {ε τ α : Type} {a a' : α} {s s' : τ}
    (h : (.ok a s : EStateM.Result ε τ α) = .ok a' s') : a = a' ∧ s = s' := by
  injection h with h₁ h₂
  exact ⟨h₁, h₂⟩

private theorem push_header {capacity : Nat} {s created pushed : Arena.State} {header : Arena.Offset}
    (hc : Arena.create capacity s = .ok () created)
    (hp : Arena.push headerLayout (Header.ofKind kind).encode created = .ok header pushed) :
    header = .ofPosition 0 ∧
      ∃ mp, Arena.Ledger.Represents [⟨headerLayout, 1, header, (Header.ofKind kind).encode⟩] mp pushed := by
  obtain ⟨mp, -, hsize, hnew⟩ := Arena.represents_of_create hc
  have hlen : (Header.ofKind kind).encode.length = headerLayout.size := Header.length_encode_ofKind kind
  rcases hnew.push hlen with ⟨o, s', ho, hoff, -, h'⟩ | ⟨e, he⟩
  · obtain ⟨rfl, rfl⟩ := ok_inj (ho.symm.trans hp)
    rw [hsize] at hoff
    exact ⟨hoff, mp, h'⟩
  · cases he.symm.trans hp

private theorem pushAll_metadata {l : Arena.Ledger} {written stored : Arena.State} {block : Arena.Offset}
    (h : l.Represents mp written)
    (hp : Arena.pushAll .byte (m.encode.map fun byte => [byte]) written = .ok block stored) :
    stored.arena.size = block.position + m.encode.length ∧
      Arena.Ledger.Represents (l ++ [⟨.byte, m.encode.length, block, m.encode⟩]) mp stored := by
  have hflat : (m.encode.map fun byte => [byte]).flatten = m.encode := List.flatMap_singleton' _
  have hone : ∀ v ∈ m.encode.map fun byte => [byte], v.length = Arena.Layout.byte.size := by
    intro v hv
    obtain ⟨byte, -, rfl⟩ := List.mem_map.1 hv
    rfl
  rcases h.pushAll hone with ⟨o, s', ho, -, hsize, h'⟩ | ⟨e, he⟩
  · obtain ⟨rfl, rfl⟩ := ok_inj (ho.symm.trans hp)
    rw [List.length_map] at hsize
    rw [List.length_map, hflat] at h'
    exact ⟨hsize.trans (congrArg _ (Nat.one_mul _)), h'⟩
  · cases he.symm.trans hp

private theorem placeHeader_header {l : Arena.Ledger} {stored placed : Arena.State}
    {header root block : Arena.Offset} {n : Nat}
    (h : Arena.Ledger.Represents ([⟨headerLayout, 1, header, (Header.ofKind kind).encode⟩] ++ l) mp stored)
    (hp : placeHeader header root block n stored = .ok () placed) :
    placed.arena = stored.arena ∧ Arena.Ledger.Represents
      ([⟨headerLayout, 1, header, (Header.placed kind root block n).encode⟩] ++ l) mp placed := by
  have hlen : (Header.placed kind root block n).encode.length = headerLayout.size := Header.length_encode_placed
  have hcovers : (⟨headerLayout, 1, header, (Header.ofKind kind).encode⟩ : Arena.Block).Covers header
      headerLayout.size :=
    ⟨Nat.le_refl _, Nat.add_le_add_left (Nat.le_of_eq (Header.length_encode_ofKind kind).symm) _⟩
  have hget := (h.readsBack List.mem_cons_self).get
  have htake : (Header.ofKind kind).encode.take headerLayout.size = (Header.ofKind kind).encode :=
    List.take_of_length_le (Nat.le_of_eq (Header.length_encode_ofKind kind))
  dsimp only at hget
  rw [htake] at hget
  unfold placeHeader at hp
  rw [bind_apply, Arena.look_apply, hget] at hp
  dsimp only at hp
  rw [Header.decode_encode_ofKind] at hp
  rcases h.writeRange headerLayout ⟨_, List.mem_cons_self, hcovers⟩ hlen with ⟨s', hs, harena, h'⟩ | ⟨e, he⟩
  · obtain ⟨-, rfl⟩ := ok_inj (hs.symm.trans hp)
    refine ⟨harena, ?_⟩
    -- the header as it is now is as long as the one it replaces
    have hsame := hlen.trans (Header.length_encode_ofKind kind).symm
    have hapart : ([] ++ ⟨headerLayout, 1, header, (Header.ofKind kind).encode⟩ :: l : Arena.Ledger).Pairwise
        fun a c => a.stop ≤ c.start := h.apart
    have hmap := Arena.map_overwrite_offset hapart (h.fits _ List.mem_cons_self).length_pos (Nat.le_of_eq hsame)
    have hnone : (Header.ofKind kind).encode.drop (Header.placed kind root block n).encode.length = [] :=
      List.drop_eq_nil_of_le (Nat.le_of_eq hsame.symm)
    dsimp only at hmap
    rw [List.nil_append, List.nil_append, hnone, List.append_nil] at hmap
    rwa [List.singleton_append, hmap] at h'
  · cases he.symm.trans hp

/-- An attempt that succeeds writes the header, what the writer noted, and the metadata, and nothing behind them. -/
theorem attempt_writes (hc : ∀ u, (program u).Confined []) {capacity size : Nat} {r : Route}
    {s s' : Arena.State × (σ × Script.Note)} (hb : Arena.Bound r s.1)
    (h : attempt b m (Script.notingWriter program) capacity s = .ok size s') :
    ∃ block id, s'.1.fs.node? r = some (.file id) ∧ size = block.position + m.encode.length ∧
      (s'.1.fs.file id).content.size = size ∧
      (blocks b.payloadKind m s'.2.2.root block s'.2.2.ledger).WrittenIn (s'.1.fs.file id).content := by
  obtain ⟨created, header, pushed, root, written, block, stored, placed, hcreate, hpush, hw, hstore, hplace, rfl,
    htrim, hu⟩ := attempt_eq_ok h
  change Script.writer (fun u => (program u.1).noting []) (pushed, s.2) = _ at hw
  have hrun : ((program s.2.1).noting []).run pushed = (.ok root, written.1, written.2) := writer_eq_ok hw
  -- the ledger: the header, then what the writer notes, then the metadata
  obtain ⟨rfl, mp, hpushed⟩ := push_header hcreate hpush
  rw [← List.append_nil [_]] at hpushed
  have hwritten := (program s.2.1).represents_noting (hc s.2.1) pushed hpushed
  rw [hrun] at hwritten
  obtain ⟨hsize, hstored⟩ := pushAll_metadata hwritten hstore
  rw [List.append_assoc] at hstored
  obtain ⟨harena, hplaced⟩ := placeHeader_header hstored hplace
  have hroot : written.2.2.root = root := by
    have := (program s.2.1).root_noting [] pushed (congrArg Prod.fst hrun)
    rwa [hrun] at this
  -- the handle is still bound to the file that it was created with
  have hwriter : Arena.Reaches r pushed written.1 := by
    have := ((program s.2.1).noting []).run_reaches (r := r) pushed
    rwa [hrun] at this
  have hreaches : Arena.Reaches r s.1 placed :=
    ((((reaches_of_run (c := .create capacity) rfl).ok hcreate).trans
      ((reaches_of_run (c := .push _ _) rfl).ok hpush)).trans hwriter).trans
        (((reaches_of_run (c := .pushAll _ _) rfl).ok hstore).trans ((placeHeader_reaches _ root block _).ok hplace))
  have hbound := (hreaches hb).1
  obtain ⟨-, id, -, hid, hs'⟩ := Arena.trim_eq_ok htrim
  have hnode := hbound.node?_of_openToWrite hid
  obtain rfl : mp.file = id := by
    have hmapped := hbound.mapped mp hplaced.mapping
    simpa using hmapped.symm.trans hnode
  have hcontent : (s'.1.fs.file mp.file).content = (placed.fs.file mp.file).content.resize placed.arena.size := by
    rw [hs']
    show ((placed.fs.setLength _ _).file _).content = _
    unfold setLength
    rw [file_modifyFile _ _ _ _ hplaced.known, if_pos rfl]
  refine ⟨block, mp.file, ?_, ?_, ?_, ?_⟩
  · rw [hs']; exact hnode
  · rw [harena, hsize]
  · rw [hcontent]; rfl
  · rw [hcontent, hu, hroot]
    exact hplaced.writtenIn_resize

/-! ### The round trip -/

/-- A build with a writer that is confined to what it allocates.  The file at the destination is the artifact and
nothing more, its metadata, kind and root read back, and so does every block that the last run of the writer
noted. -/
theorem build_reads_back (b : Builder) (d : Path) (m : Metadata) (program : σ → Script σ)
    (hc : ∀ u, (program u).Confined []) {fs fs' : FileSystem} {u u' : σ} {outcome : Outcome}
    (h : b.build d m (Script.writer program) fs u = (.ok outcome, fs', u')) (start : Script.Note) :
    ∃ note a bytes,
      b.build d m (Script.notingWriter program) fs (u, start) = (.ok outcome, fs', u', note) ∧
      fs'.read d = .ok bytes ∧ bytes.length = outcome.size ∧
      outcome.size = a.header.metadataOffset.toNat + a.header.metadataLength.toNat ∧
      metadataOf fs' d = .ok m ∧ Artifact.load fs' d = .ok a ∧ a.metadata = m ∧
      a.header.payloadKind = b.payloadKind ∧ a.payloadRoot = note.root ∧
      ∀ block ∈ note.ledger, block.ReadsBack ⟨fs', a.arena⟩ := by
  have hnoting := build_noting b d m program fs (u, start)
  rw [h] at hnoting
  rcases hbuild : b.build d m (Script.notingWriter program) fs (u, start) with ⟨result, fs₁, u₁, note⟩
  rw [hbuild] at hnoting
  obtain ⟨rfl, rfl, rfl⟩ : result = .ok outcome ∧ fs₁ = fs' ∧ u₁ = u' := by simpa [eq_comm] using hnoting
  change b.build d m (Script.writer fun u => (program u.1).noting []) fs (u, start) = _ at hbuild
  obtain ⟨s, id, src, dst, hstaged, hsrc, hdst, hfile, hsize⟩ := (Replaced.of_build hbuild).moved
  -- the last attempt begins bound to the staging file, as the first one does
  obtain ⟨r₀, hr₀⟩ := exists_route (makeParent fs d).2 (stagingPath d)
  have hreaches (capacity : Nat) := attempt_reaches (r := r₀) b m
    (writer_reaches fun u : σ × Script.Note => (program u.1).noting []) capacity
  have hstart : Arena.Bound r₀ ⟨(makeParent fs d).2, .closed (stagingPath d)⟩ := ⟨hr₀, fun _ hm => by cases hm⟩
  obtain ⟨capacity, s₁, hbound, hlast⟩ := attempts_eq_ok (P := fun s => Arena.Bound r₀ s.1)
    (fun capacity _ _ _ hs he => ((hreaches capacity).error he hs).1) _ hstart hstaged
  obtain ⟨block, id', hnode, hplace, hlen, hin⟩ := attempt_writes hc hbound hlast
  obtain rfl : id' = id := by
    obtain ⟨spot, hl, rfl, -, hn⟩ := stat_eq_ok.1 hsrc
    have hroute := route?_eq_some.2 ⟨spot, hl, rfl⟩
    rw [(staged_changes hstaged hr₀).2.route?_eq] at hroute
    rw [hr₀ _ hroute] at hn
    simpa using hnode.symm.trans hn
  dsimp only at hin hlen
  rw [← hfile] at hin hlen
  obtain ⟨a, hload, hmeta, hheader, hreads⟩ := load_of_writtenIn hdst hin
  have hread : fs₁.read d = .ok (fs₁.file id').content.toList := by
    unfold FileSystem.read
    rw [openToRead_eq_ok.2 ⟨dst, hdst⟩]
  refine ⟨note, a, _, rfl, hread, ?_, ?_, metadataOf_of_writtenIn hdst hin, hload, hmeta, ?_, ?_, hreads⟩
  · rw [Content.toList, Content.length_slice, hlen]
  · have hmax := hin.size_le
    rw [hheader, Header.toNat_metadataLength _ _ _ (by omega)]
    exact hplace
  · rw [hheader]; rfl
  · unfold payloadRoot
    rw [hheader]
    rfl

/-- A text whose first letter is written anew, with the text as root. -/
def writtenText (_ : Unit) : Script Unit :=
  .call (.pushText "ab") fun
    | .ok (.offset o) => .call (.write .byte o [99]) fun _ => .finish (.ok o) ()
    | .ok _ => .finish (.ok .null) ()
    | .error e => .finish (.error (.arena e)) ()

theorem confined_writtenText (u : Unit) : (writtenText u).Confined [] := by
  refine ⟨trivial, ?_⟩
  rintro (e | _ | o | _ | _)
  · trivial
  · trivial
  · refine ⟨⟨rfl, _, List.mem_singleton.2 rfl, Nat.le_refl _, ?_⟩, fun _ => trivial⟩
    exact Nat.add_le_add_left (show Arena.Layout.byte.size ≤ (Text.encode "ab" ++ [0]).length by decide) _
  · trivial
  · trivial

/-- The first attempt has room for the header alone, the second for everything. -/
theorem written_text_reads_back :
    ∃ fs' a, ∃ note : Script.Note,
      (ofSizes 64 2 4096 7).build (.ofString "a") default (Script.writer writtenText) (bare ⟨0⟩) () =
        (.ok ⟨.ofString "a", 71, 2⟩, fs', ()) ∧
      metadataOf fs' (.ofString "a") = .ok default ∧ Artifact.load fs' (.ofString "a") = .ok a ∧
      note.root = ⟨64⟩ ∧ note.ledger = [⟨.byte, 3, ⟨64⟩, [99, 98, 0]⟩] ∧ a.payloadRoot = note.root ∧
      ∀ block ∈ note.ledger, block.ReadsBack ⟨fs', a.arena⟩ := by
  have hok : ((ofSizes 64 2 4096 7).build (.ofString "a") default (Script.writer writtenText) (bare ⟨0⟩) ()).1 =
      .ok ⟨.ofString "a", 71, 2⟩ := by
    decide +kernel
  have hnote : ((ofSizes 64 2 4096 7).build (.ofString "a") default (Script.notingWriter writtenText) (bare ⟨0⟩)
      ((), ⟨.null, []⟩)).2.2.2 = ⟨⟨64⟩, [⟨.byte, 3, ⟨64⟩, [99, 98, 0]⟩]⟩ := by
    decide +kernel
  obtain ⟨note, a, bytes, hbuild, -, -, -, hmeta, hload, -, -, hroot, hreads⟩ :=
    build_reads_back (ofSizes 64 2 4096 7) (.ofString "a") default writtenText confined_writtenText
      (Prod.ext hok rfl) ⟨.null, []⟩
  rw [hbuild] at hnote
  subst hnote
  exact ⟨_, a, _, Prod.ext hok rfl, hmeta, hload, rfl, rfl, hroot, hreads⟩

end Builder

end Bindery
