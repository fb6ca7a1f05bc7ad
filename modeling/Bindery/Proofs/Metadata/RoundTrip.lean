import Bindery.Artifact.Reader
import Bindery.Proofs.SortedMap

/-!
# Metadata reads back

Each reader of the codec takes off what its writer wrote and hands back the rest (`Reads`), as long as the lengths of
texts and the numbers of pairs fit into 64 bits, the widest form of a number (`Metadata.Fits`).  The parts are read in
the order in which they were written, so metadata reads back as it was, whatever follows (`Metadata.reads`).
-/

namespace Bindery

/-- A reader takes bytes off the front, answers a value for them and hands back the rest. -/
def Reads {α : Type} (read : List UInt8 → Option (α × List UInt8)) (bytes : List UInt8) (a : α) : Prop :=
  ∀ rest, read (bytes ++ rest) = some (a, rest)

/-- The length of a text fits into 64 bits. -/
def TextFits (s : String) : Prop := (Text.encode s).length < LittleEndian.limit 8

theorem textFits_of_length {s : String} (h : (encodeText s).length < LittleEndian.limit 8) : TextFits s := by
  unfold encodeText at h
  rw [List.length_append] at h
  exact Nat.lt_of_le_of_lt (Nat.le_add_left _ _) h

theorem reads_text {s : String} (h : TextFits s) : Reads decodeText? (encodeText s) s := by
  intro rest
  unfold decodeText? encodeText
  rw [List.append_assoc, Varint.decode?_encode (.inr rfl) h]
  simp [Varint.takeBytes?_append]

/-! ### Stamps -/

private theorem fold_toInt_lt (t : Int64) : Varint.fold t.toInt < LittleEndian.limit 8 := by
  have h₁ := t.toInt_lt
  have h₂ := t.le_toInt
  have hlimit : LittleEndian.limit 8 = 2 ^ 64 := rfl
  rw [hlimit]
  unfold Varint.fold
  split <;> omega

private theorem decodeChecksum?_some (c : UInt32) (rest : List UInt8) :
    Stamp.decodeChecksum? (1 :: Varint.encode c.toNat ++ rest) = some (some c, rest) := by
  have hc : c.toNat < LittleEndian.limit 4 := c.toNat_lt
  show (Varint.decode? 4 (Varint.encode c.toNat ++ rest)).map _ = _
  rw [Varint.decode?_encode (.inl rfl) hc]
  simp

theorem Stamp.reads (s : Stamp) : Reads Stamp.decode? s.encode s := by
  intro rest
  unfold Stamp.decode? Stamp.encode
  rw [List.append_assoc, Varint.decode?_encode (.inr rfl) (fold_toInt_lt s.timestamp)]
  simp only [Option.bind_eq_bind, Option.bind_some, Varint.unfold_fold, Int64.ofInt_toInt]
  rcases s with ⟨t, _ | c⟩
  · rfl
  · dsimp only
    rw [decodeChecksum?_some]
    rfl

/-! ### Maps -/

namespace SortedMap

variable {α : Type} {write : α → List UInt8} {read : List UInt8 → Option (α × List UInt8)}

private theorem decodePairs?_eq {l : List (String × α)} (hkey : ∀ e ∈ l, Reads decodeText? (encodeText e.1) e.1)
    (hvalue : ∀ e ∈ l, Reads read (write e.2) e.2) (m : SortedMap String α) (rest : List UInt8) :
    decodePairs? read l.length m (l.flatMap (fun e => encodeText e.1 ++ write e.2) ++ rest) =
      some (l.foldl (fun m e => m.insert e.1 e.2) m, rest) := by
  induction l generalizing m with
  | nil => rfl
  | cons e l ih =>
    have hk := hkey e List.mem_cons_self
    have hv := hvalue e List.mem_cons_self
    rw [List.flatMap_cons, List.append_assoc, List.append_assoc, List.length_cons, decodePairs?, hk]
    dsimp only
    rw [hv]
    exact ih (fun f hf => hkey f (List.mem_cons_of_mem _ hf)) (fun f hf => hvalue f (List.mem_cons_of_mem _ hf)) _

theorem length_encodeText_pos (s : String) : 0 < (encodeText s).length := by
  have h (n : Nat) : 0 < (Varint.encode n).length := by
    unfold Varint.encode
    split
    · simp
    split
    · simp
    split <;> simp
  unfold encodeText
  rw [List.length_append]
  exact Nat.add_pos_left (h _) _

private theorem length_le_of_mem {m : SortedMap String α} {e : String × α} (he : e ∈ m.entries) :
    (encodeText e.1 ++ write e.2).length ≤ (m.encode write).length := by
  obtain ⟨before, behind, hl⟩ := List.append_of_mem he
  unfold encode
  rw [hl, List.flatMap_append, List.flatMap_cons]
  simp only [List.length_append]
  omega

private theorem size_le (m : SortedMap String α) : m.size ≤ (m.encode write).length := by
  have h (l : List (String × α)) : l.length ≤ (l.flatMap fun e => encodeText e.1 ++ write e.2).length := by
    induction l with
    | nil => exact Nat.zero_le _
    | cons e l ih =>
      have := length_encodeText_pos e.1
      rw [List.flatMap_cons, List.length_cons, List.length_append, List.length_append]
      omega
  unfold encode size
  rw [List.length_append]
  exact Nat.le_trans (h m.entries) (Nat.le_add_left _ _)

/-- The number of pairs fits into 64 bits, and so do the keys and the values. -/
structure Fits (value : α → Prop) (m : SortedMap String α) : Prop where
  size_lt : m.size < LittleEndian.limit 8
  key : ∀ e ∈ m.entries, TextFits e.1
  value : ∀ e ∈ m.entries, value e.2

theorem fits_of_length {value : α → Prop} {m : SortedMap String α}
    (h : (m.encode write).length < LittleEndian.limit 8)
    (hvalue : ∀ a, (write a).length < LittleEndian.limit 8 → value a) : m.Fits value := by
  have hentry (e) (he : e ∈ m.entries) : (encodeText e.1).length < LittleEndian.limit 8 ∧
      (write e.2).length < LittleEndian.limit 8 := by
    have : (encodeText e.1 ++ write e.2).length ≤ (m.encode write).length := length_le_of_mem he
    rw [List.length_append] at this
    omega
  exact ⟨Nat.lt_of_le_of_lt (size_le m) h, fun e he => textFits_of_length (hentry e he).1,
    fun e he => hvalue e.2 (hentry e he).2⟩

/-- A map reads back if its values do. -/
theorem reads {value : α → Prop} {m : SortedMap String α} (h : m.Fits value)
    (hvalue : ∀ a, value a → Reads read (write a) a) : Reads (SortedMap.decode? read) (m.encode write) m := by
  intro rest
  -- the pairs come in the order of their keys, so that inserting them gives the map back
  have hpairs := decodePairs?_eq (fun e he => reads_text (h.key e he)) (fun e he => hvalue e.2 (h.value e he))
    empty rest
  rw [foldl_insert_entries] at hpairs
  unfold SortedMap.decode? encode
  rw [List.append_assoc, Varint.decode?_encode (.inr rfl) h.size_lt]
  exact hpairs

end SortedMap

/-! ### Metadata -/

namespace Metadata

theorem length_encode_pos (m : Metadata) : 0 < m.encode.length := by
  have := SortedMap.length_encodeText_pos m.record.engineVersion
  unfold encode
  simp only [List.length_append]
  omega

/-- Every length in the metadata fits into 64 bits, as all do of what is in memory.  Timestamps and checksums fit by
their types. -/
structure Fits (m : Metadata) : Prop where
  engineVersion : TextFits m.record.engineVersion
  distribution : TextFits m.record.distribution
  resources : m.record.resources.Fits fun _ => True
  entries : m.entries.Fits TextFits

theorem fits_of_length {m : Metadata} (h : m.encode.length < LittleEndian.limit 8) : m.Fits := by
  unfold encode at h
  simp only [List.length_append] at h
  have hresources : (m.record.resources.encode Stamp.encode).length < LittleEndian.limit 8 := by omega
  have hentries : (m.entries.encode encodeText).length < LittleEndian.limit 8 := by omega
  exact
    { engineVersion := textFits_of_length (by omega)
      distribution := textFits_of_length (by omega)
      resources := SortedMap.fits_of_length hresources fun _ _ => trivial
      entries := SortedMap.fits_of_length hentries fun _ => textFits_of_length }

theorem reads {m : Metadata} (h : m.Fits) : Reads Metadata.decode? m.encode m := by
  intro rest
  have hengine := reads_text h.engineVersion
  have hdistribution := reads_text h.distribution
  have hresources : Reads (SortedMap.decode? Stamp.decode?) (m.record.resources.encode Stamp.encode) _ :=
    SortedMap.reads h.resources fun a _ => Stamp.reads a
  have hentries : Reads (SortedMap.decode? decodeText?) (m.entries.encode encodeText) _ :=
    SortedMap.reads h.entries fun _ => reads_text
  unfold Metadata.decode? encode
  rw [List.append_assoc, List.append_assoc, List.append_assoc, hengine]
  simp only [Option.bind_eq_bind, Option.bind_some]
  rw [hdistribution]
  simp only [Option.bind_some]
  rw [hresources]
  simp only [Option.bind_some]
  rw [hentries]
  rfl

/-- Metadata reads back from its bytes, whatever follows them, and what follows is left. -/
theorem decode_encode_append {m : Metadata} (h : m.Fits) (rest : List UInt8) :
    Artifact.decodeMetadata (m.encode ++ rest) = .ok m ∧ decode? (m.encode ++ rest) = some (m, rest) := by
  have hread := reads h rest
  refine ⟨?_, hread⟩
  unfold Artifact.decodeMetadata
  rw [hread]

/-- Metadata with a text of three bytes to a character, the least timestamp and the greatest checksum. -/
def farthest : Metadata where
  record := ((BuildRecord.ofEngine "月" "").insert "b" ⟨Int64.minValue, none⟩).insert "a" ⟨-1, some 0xFFFFFFFF⟩
  entries := SortedMap.empty.insert "k" "v"

theorem decode_encode_farthest :
    farthest.encode = [3, 0xE6, 0x9C, 0x88, 0, 2, 1, 97, 1, 1, 252, 255, 255, 255, 255,
      1, 98, 253, 255, 255, 255, 255, 255, 255, 255, 255, 0, 1, 1, 107, 1, 118] ∧ farthest.Fits ∧
      Artifact.decodeMetadata (farthest.encode ++ [0, 0xFF]) = .ok farthest ∧
      decode? (farthest.encode ++ [0, 0xFF]) = some (farthest, [0, 0xFF]) := by
  have hfits : farthest.Fits := fits_of_length (by decide +kernel)
  exact ⟨by decide +kernel, hfits, decode_encode_append hfits [0, 0xFF]⟩

end Metadata

end Bindery
