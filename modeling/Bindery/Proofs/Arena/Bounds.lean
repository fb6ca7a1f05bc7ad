import Bindery.Proofs.Arena.Effects
import Bindery.Proofs.Arena.Lifecycle

/-!
# The bounds of access

Whatever offset and whatever count a caller comes with, an access is granted exactly if the bytes, counted by the
natural numbers, lie in the allocated region at a multiple of the alignment (`Accessible`): the null offset, sums that
64 bits cannot hold and offsets behind the last byte are refused (`State.getAll_eq_ok`, `writeRange_exact`).  The
region is a part of the mapping in every state that a handle can come to (`Reachable`), so an access that is granted
stays in the mapping, too.  What is read depends on the allocated bytes alone, and what is written goes to the bytes
that were asked for and to no others (`PutAt`).
-/

namespace Bindery.Arena

open Steps FileSystem

variable {s s' t : State} {m : Mapping} {layout : Layout} {count len : Nat} {o : Offset} {bytes : List UInt8}

/-! ### States that a handle can come to -/

/-- Whatever is done elsewhere, the file that is mapped stays, even if no path leads to it any more. -/
def Event.KeepsFiles (s : State) : Event → Prop
  | call _ => True
  | elsewhere fs => s.fs.files.length ≤ fs.files.length

/-- The states that a new handle can come to by calls, and by whatever is done to the files elsewhere. -/
inductive Reachable : State → Prop
  | new (path : Path) (fs : FileSystem) : Reachable ⟨fs, closed path⟩
  | event {s : State} (h : Reachable s) (e : Event) (he : e.KeepsFiles s) : Reachable (e.leave s)

theorem Reachable.balanced (h : Reachable s) : Balanced s.arena := by
  induction h with
  | new path fs => exact balanced_closed path
  | event _ e _ ih => exact ih.leave e

/-- The mapped file is one that there is. -/
def Known (s : State) : Prop := ∀ m, s.arena.mapping = some m → m.file < s.fs.files.length

/-- A mapped file is still there afterwards. -/
def KeepsKnown (s s' : State) : Prop := Known s → Known s'

instance : Std.Refl KeepsKnown := ⟨fun _ => id⟩

instance : Trans KeepsKnown KeepsKnown KeepsKnown := ⟨fun h₁ h₂ h => h₂ (h₁ h)⟩

private theorem keepsKnown_change (s s' : State) (h : Change s s') : KeepsKnown s s' := by
  intro hknown
  cases h with
  | shut => nofun
  | resized _ n => nofun
  | made _ n => nofun
  | removed _ => nofun
  | mapped h mode =>
    intro m hm
    cases hm
    exact known_of_openToWrite h
  | sized size => exact hknown
  | modified _ f size =>
    intro m hm
    simpa [modifyFile] using hknown m hm

theorem Reachable.known (h : Reachable s) : Known s := by
  induction h with
  | new path fs => nofun
  | event _ e he ih =>
    cases e with
    | call c => exact c.keeps_of_change keepsKnown_change _ ih
    | elsewhere fs => exact fun m hm => Nat.lt_of_lt_of_le (ih m hm) he

theorem Reachable.runAll (h : Reachable s) (calls : List Call) : Reachable (runAll calls s) := by
  induction calls generalizing s with
  | nil => exact h
  | cons c calls ih => exact ih (h.event (.call c) trivial)

/-! ### Reading -/

/-- So many bytes at an offset are allocated, and the offset is a multiple of a layout's alignment. -/
structure Accessible (a : Arena) (layout : Layout) (o : Offset) (len : Nat) : Prop where
  isOpen : a.isOpen = true
  ne_null : o ≠ .null
  stop_le : o.position + len ≤ a.size
  aligned : o.position % layout.align = 0

/-- No span that was cut to what 64 bits can hold is taken for an allocated one. -/
theorem accessible_span {a : Arena} (hsize : a.size < maxWord) :
    Accessible a layout o (spanLength layout count) ↔ Accessible a layout o (layout.size * count) := by
  have hspan : o.position + spanLength layout count ≤ a.size ↔ o.position + layout.size * count ≤ a.size := by
    unfold spanLength
    omega
  exact ⟨fun h => ⟨h.isOpen, h.ne_null, hspan.1 h.stop_le, h.aligned⟩,
    fun h => ⟨h.isOpen, h.ne_null, hspan.2 h.stop_le, h.aligned⟩⟩

theorem Accessible.spanLength_eq {a : Arena} (hsize : a.size < maxWord)
    (h : Accessible a layout o (layout.size * count)) : spanLength layout count = layout.size * count := by
  have := h.stop_le
  exact spanLength_of_le (by omega)

theorem State.readRange_eq_ok_bytes :
    s.readRange layout o len = .ok bytes ↔ Accessible s.arena layout o len ∧ bytes = s.bytes o.position len := by
  rw [State.readRange_eq_ok]
  constructor
  · rintro ⟨hopen, hnull, hle, ha, rfl⟩
    obtain ⟨m, hm⟩ := isOpen_eq_true.1 hopen
    exact ⟨⟨hopen, hnull, hle, ha⟩, (State.bytes_eq_allocated hm hle).symm⟩
  · rintro ⟨⟨hopen, hnull, hle, ha⟩, rfl⟩
    obtain ⟨m, hm⟩ := isOpen_eq_true.1 hopen
    exact ⟨hopen, hnull, hle, ha, State.bytes_eq_allocated hm hle⟩

theorem State.getAll_eq_ok (hsize : s.arena.size < maxWord) :
    s.getAll layout o count = .ok bytes ↔
      Accessible s.arena layout o (layout.size * count) ∧ bytes = s.bytes o.position (layout.size * count) := by
  unfold State.getAll
  rw [State.readRange_eq_ok_bytes, accessible_span hsize]
  constructor
  · rintro ⟨h, rfl⟩
    exact ⟨h, by rw [h.spanLength_eq hsize]⟩
  · rintro ⟨h, rfl⟩
    exact ⟨h, by rw [h.spanLength_eq hsize]⟩

/-- A text is read up to the first zero byte behind its offset, if there is one in the allocated region. -/
theorem State.getText_eq_ok_bytes {text : String} :
    s.getText o = .ok text ↔
      s.arena.isOpen = true ∧ o ≠ .null ∧ 0 ∉ Text.encode text ∧
        Text.encode text ++ [0] <+: s.bytes o.position (s.arena.size - o.position) := by
  rw [State.getText_eq_ok]
  constructor
  · rintro ⟨hopen, hnull, bytes, h0, hpre, hdecode⟩
    obtain ⟨m, hm⟩ := isOpen_eq_true.1 hopen
    obtain rfl := Text.decode?_eq_some_iff.1 hdecode
    exact ⟨hopen, hnull, h0, by rwa [State.bytes_eq_drop hm]⟩
  · rintro ⟨hopen, hnull, h0, hpre⟩
    obtain ⟨m, hm⟩ := isOpen_eq_true.1 hopen
    rw [State.bytes_eq_drop hm] at hpre
    exact ⟨hopen, hnull, _, h0, hpre, Text.decode?_encode text⟩

/-! ### Writing -/

/-- So many bytes of the mapped file, from a position on, are now others.  The rest of the file, all other files and the
handle are as they were. -/
structure PutAt (pos len : Nat) (bytes : List UInt8) (s s' : State) : Prop where
  arena : s'.arena = s.arena
  nodes : s'.fs.nodes = s.fs.nodes
  written : s'.bytes pos len = bytes
  beside : ∀ p n, p + n ≤ pos ∨ pos + len ≤ p → s'.bytes p n = s.bytes p n
  others : ∀ id, (∀ m, s.arena.mapping = some m → id ≠ m.file) → s'.fs.file id = s.fs.file id

/-- An action succeeds exactly on a condition, and has an effect then.  If it fails, it has none. -/
structure SucceedsIff (cond : Prop) (effect : State → State → Prop) (s : State) (x : Action Unit) : Prop where
  ok : cond → ∃ s', x s = .ok () s' ∧ effect s s'
  error : ¬ cond → ∃ e, x s = .error e s

theorem putAt_writeAt (hm : s.arena.mapping = some m) (hknown : m.file < s.fs.files.length) (pos : Nat)
    (bytes : List UInt8) : PutAt pos bytes.length bytes s { s with fs := s.fs.writeAt m.file pos bytes } where
  arena := rfl
  nodes := by
    unfold FileSystem.writeAt
    split <;> rfl
  written := by
    rw [State.bytes_writeAt hm hknown]
    exact Content.slice_overwrite_self _ _ _
  beside p n h := by
    rw [State.bytes_writeAt hm hknown, State.bytes_eq hm]
    exact Content.slice_overwrite_of_disjoint _ _ _ _ _ h
  others id hid := by
    unfold FileSystem.writeAt
    split
    · rfl
    · rw [file_modifyFile _ _ _ _ hknown, if_neg (hid m hm)]

theorem writeRange_exact (hknown : Known s) (layout : Layout) (o : Offset) (len : Nat) (bytes : List UInt8) :
    SucceedsIff (Accessible s.arena layout o len ∧ s.arena.mode = some .readWrite)
      (PutAt o.position bytes.length bytes) s (writeRange layout o len bytes) where
  ok := by
    rintro ⟨h, hmode⟩
    obtain ⟨m, hm, hwritable⟩ := Option.map_eq_some_iff.1 hmode
    rw [writeRange_apply, positionOf_eq_ok.2 ⟨h.isOpen, h.ne_null, h.stop_le, rfl⟩,
      writableMapping_eq_ok.2 ⟨hm, hwritable⟩]
    dsimp only
    rw [if_pos h.aligned]
    exact ⟨_, rfl, putAt_writeAt hm (hknown m hm) _ _⟩
  error h := by
    rw [writeRange_apply]
    cases hp : s.arena.positionOf o len with
    | error e => exact ⟨e, rfl⟩
    | ok pos =>
      obtain ⟨hopen, hnull, hle, rfl⟩ := positionOf_eq_ok.1 hp
      cases hw : s.arena.writableMapping with
      | error e => exact ⟨e, rfl⟩
      | ok m =>
        obtain ⟨hm, hwritable⟩ := writableMapping_eq_ok.1 hw
        have hmode : s.arena.mode = some .readWrite := Option.map_eq_some_iff.2 ⟨m, hm, hwritable⟩
        dsimp only
        rw [if_neg fun ha => h ⟨⟨hopen, hnull, hle, ha⟩, hmode⟩]
        exact ⟨_, rfl⟩

/-! ### Access in all -/

/-- In every state that a handle can come to, for every offset, layout and count: values can be read exactly if they lie
in the allocated region, and can be written exactly if, besides, the mapping is for writing.  Their length is counted by
the natural numbers, whereas the call computes it in 64 bits; all that is asked is that the mapping itself is shorter
than 64 bits can count, as all that lies in memory is.  What is read are the bytes at the offset, or the text up to the
first zero byte in the region.  What is written goes there and nowhere else, and a refused call writes nothing.  The
region lies in the mapping, and the bytes that are not allocated make no difference to what is read. -/
theorem access_is_exact_and_in_bounds (h : Reachable s) (hmemory : s.arena.capacity < maxWord) (layout : Layout)
    (o : Offset) (count : Nat) :
    (∀ bytes, s.getAll layout o count = .ok bytes ↔
      Accessible s.arena layout o (layout.size * count) ∧ bytes = s.bytes o.position (layout.size * count)) ∧
    (∀ bytes, s.get layout o = .ok bytes ↔
      Accessible s.arena layout o layout.size ∧ bytes = s.bytes o.position layout.size) ∧
    (∀ text, s.getText o = .ok text ↔ s.arena.isOpen = true ∧ o ≠ .null ∧ 0 ∉ Text.encode text ∧
      Text.encode text ++ [0] <+: s.bytes o.position (s.arena.size - o.position)) ∧
    (∀ values : List (List UInt8), values.length = count → (∀ v ∈ values, v.length = layout.size) →
      SucceedsIff (Accessible s.arena layout o (layout.size * count) ∧ s.arena.mode = some .readWrite)
        (PutAt o.position (layout.size * count) values.flatten) s (writeAll layout o values)) ∧
    (∀ value : List UInt8, value.length = layout.size →
      SucceedsIff (Accessible s.arena layout o layout.size ∧ s.arena.mode = some .readWrite)
        (PutAt o.position layout.size value) s (write layout o value)) ∧
    s.arena.size ≤ s.arena.capacity ∧
    ∀ t, s.Alike t → t.getAll layout o count = s.getAll layout o count ∧ t.get layout o = s.get layout o ∧
      t.getText o = s.getText o := by
  have hsize : s.arena.size < maxWord := Nat.lt_of_le_of_lt h.balanced.size_le hmemory
  refine ⟨fun _ => State.getAll_eq_ok hsize, fun _ => State.readRange_eq_ok_bytes, fun _ => State.getText_eq_ok_bytes,
    ?_, ?_, h.balanced.size_le, fun t ht => ⟨ht.readRange, ht.readRange, ht.getText⟩⟩
  · rintro values rfl hvalues
    have hexact := writeRange_exact h.known layout o (spanLength layout values.length) values.flatten
    rwa [accessible_span hsize, length_flatten_of_forall hvalues] at hexact
  · intro value hvalue
    have hexact := writeRange_exact h.known layout o layout.size value
    rwa [hvalue] at hexact

/-- A text and two words in twelve of sixteen bytes.  So many words of eight bytes that their length is zero in 64 bits
are refused, and so is a word that is not allocated as a whole. -/
theorem access_in_twelve_of_sixteen_bytes :
    ∃ s, Reachable s ∧ s.arena.size = 12 ∧ s.arena.capacity = 16 ∧
      s.getAll .word32 ⟨4⟩ 2 = .ok [0, 0, 0, 0, 0, 0, 0, 0] ∧
      (∀ bytes, s.getAll .word64 ⟨0⟩ 0x2000000000000000 ≠ .ok bytes) ∧
      s.getText ⟨0⟩ = .ok "ab" ∧
      (∃ s', write .word32 ⟨8⟩ [1, 2, 3, 4] s = .ok () s' ∧ s'.bytes 8 4 = [1, 2, 3, 4] ∧
        s'.bytes 0 8 = [97, 98, 0, 0, 0, 0, 0, 0]) ∧
      ∃ e, write .word64 ⟨8⟩ [1, 2, 3, 4, 5, 6, 7, 8] s = .error e s := by
  let s := runAll [.create 16, .pushText "ab", .allocate .word32 2] ⟨bare ⟨0⟩, closed (.ofString "a")⟩
  have hs : Reachable s := (Reachable.new _ _).runAll _
  have hmemory : s.arena.capacity < maxWord := by decide +kernel
  have hopen : s.arena.isOpen = true := by decide +kernel
  have hsize : s.arena.size = 12 := by decide +kernel
  have hmode : s.arena.mode = some .readWrite := by decide +kernel
  obtain ⟨hwords, -⟩ := access_is_exact_and_in_bounds hs hmemory .word32 ⟨4⟩ 2
  obtain ⟨hwrapped, -, htext, -⟩ := access_is_exact_and_in_bounds hs hmemory .word64 ⟨0⟩ 0x2000000000000000
  obtain ⟨-, -, -, -, hput, -⟩ := access_is_exact_and_in_bounds hs hmemory .word32 ⟨8⟩ 1
  obtain ⟨-, -, -, -, hcut, -⟩ := access_is_exact_and_in_bounds hs hmemory .word64 ⟨8⟩ 1
  have hstops (layout : Layout) (o : Offset) (len : Nat) (h : 12 < o.position + len) :
      ¬ Accessible s.arena layout o len := by
    intro ha
    have := ha.stop_le
    omega
  refine ⟨s, hs, hsize, by decide +kernel, ?_, ?_, ?_, ?_, ?_⟩
  · exact (hwords _).2 ⟨⟨hopen, by decide, by rw [hsize]; decide, rfl⟩, by decide +kernel⟩
  · exact fun bytes h => hstops _ _ _ (by decide) ((hwrapped bytes).1 h).1
  · exact (htext "ab").2 ⟨hopen, by decide, by decide +kernel, by decide +kernel⟩
  · obtain ⟨s', hrun, hs'⟩ := (hput [1, 2, 3, 4] rfl).ok ⟨⟨hopen, by decide, by rw [hsize]; decide, rfl⟩, hmode⟩
    exact ⟨s', hrun, hs'.written, (hs'.beside 0 8 (.inl (by decide))).trans (by decide +kernel)⟩
  · exact (hcut [1, 2, 3, 4, 5, 6, 7, 8] rfl).error fun h => hstops _ _ _ (by decide) h.1

end Bindery.Arena
