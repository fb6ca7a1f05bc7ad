import Bindery.Proofs.Arena.Runs
import Mathlib.Logic.Relation

/-!
# What an arena reaches

A call on a handle makes no change but closing it, cutting, extending, making or removing the file at its path, mapping
that file, and changing the mapped one (`Change`, `Call.changes`).  So a handle reaches the file at its own path and no
other: whatever call is made on it, and whether the call fails or not, the file systems before and after differ at one
route at most (`Call.reaches`).  The invariant that carries this from call to call is that a mapped file is the one that
the path leads to (`Bound`): every call that maps a file opens it by the path, and every call that takes a name away or
makes a new file lets go of the mapping first.
-/

namespace Bindery.Arena

open Steps FileSystem Relation

variable {r : Route} {s : State}

/-! ### What calls are made of -/

/-- One of the changes that calls are made of. -/
inductive Change (s : State) : State → Prop
  | shut : Change s (s.shut s.fs)
  | resized {id : Nat} (h : s.fs.openToWrite s.arena.path = .ok id) (n : Nat) : Change s (s.shut (s.fs.setLength id n))
  | made {id : Nat} {fs : FileSystem} (h : s.fs.create s.arena.path = .ok (id, fs)) (n : Nat) :
    Change s (s.shut (fs.setLength id n))
  | removed {fs : FileSystem} (h : s.fs.remove s.arena.path = .ok fs) : Change s (s.shut fs)
  | mapped {id : Nat} (h : s.fs.openToWrite s.arena.path = .ok id) (mode : Mode) : Change s (s.mapped mode id)
  | sized (size : Nat) : Change s ⟨s.fs, { s.arena with size }⟩
  | modified {m : Mapping} (h : s.arena.mapping = some m) (f : File → File) (size : Nat) :
    Change s ⟨s.fs.modifyFile m.file f, { s.arena with size }⟩

/-- One change after the other, or none. -/
abbrev Changes : State → State → Prop := ReflTransGen Change

private theorem resize_changes (capacity : Nat) : Keeps Changes (resize capacity) := by
  intro s
  rw [resize_apply]
  split
  · exact .refl
  · cases h : s.fs.openToWrite s.arena.path with
    | error e => exact .single .shut
    | ok id => exact .single (.resized h capacity)

private theorem createFile_changes (capacity : Nat) : Keeps Changes (createFile capacity) := by
  intro s
  rw [createFile_apply]
  cases h : s.fs.create s.arena.path with
  | error e => exact .single .shut
  | ok made => exact .single (.made h capacity)

private theorem map_changes (mode : Mode) : Keeps Changes (map mode) := by
  intro s
  cases mode with
  | readWrite =>
    rw [map_readWrite_apply]
    cases h : s.fs.openToWrite s.arena.path with
    | error e => exact .single .shut
    | ok id => exact .single (.mapped h _)
  | readOnly =>
    rw [map_readOnly_apply]
    rcases h : s.fs.openToRead s.arena.path with e | (id | t)
    · exact .single .shut
    · exact .single (.mapped (openToWrite_eq_ok.2 (openToRead_eq_ok.1 h)) _)
    · exact .single .shut

private theorem create_changes (capacity : Nat) : Keeps Changes (create capacity) := by
  intro s
  rw [create_apply]
  split
  · exact .refl
  split
  · exact .refl
  split
  · exact .refl
  · refine Keeps.bind ?_ (fun _ => map_changes .readWrite) s
    split
    · exact resize_changes capacity
    · exact createFile_changes capacity

private theorem assertExists_changes : Keeps Changes assertExists := by
  intro s
  rw [assertExists_apply]
  split <;> exact .refl

private theorem openToRead_changes : Keeps Changes openToRead :=
  assertExists_changes.bind fun _ => (map_changes .readOnly).bind fun _ => fun s => .single (.sized s.arena.capacity)

private theorem openToWrite_changes : Keeps Changes openToWrite :=
  assertExists_changes.bind fun _ => map_changes .readWrite

private theorem flush_changes : Keeps Changes flush := by
  intro s
  rw [flush_apply]
  split <;> exact .refl

private theorem trim_changes : Keeps Changes trim := by
  intro s
  rw [trim_apply]
  split
  · exact resize_changes _ s
  · exact .refl

private theorem remove_changes : Keeps Changes remove := by
  intro s
  rw [remove_apply]
  cases h : s.fs.remove s.arena.path with
  | ok fs => exact .single (.removed h)
  | error e => cases e <;> exact .single .shut

theorem keeps_look {α : Type} {R : State → State → Prop} [Std.Refl R] (f : State → Except Error α) :
    Keeps R (look f) := by
  intro s
  rw [look_apply]
  cases f s <;> exact Std.Refl.refl s

theorem writableMapping_eq_ok {a : Arena} {m : Mapping} :
    a.writableMapping = .ok m ↔ a.mapping = some m ∧ m.mode = .readWrite := by
  unfold writableMapping
  rcases a.mapping with _ | ⟨_ | _, file, length⟩
  · simp
  · simp only [reduceCtorEq, Option.some.injEq, false_iff]
    rintro ⟨rfl, h⟩
    cases h
  · simp only [Except.ok.injEq, Option.some.injEq, iff_self_and]
    rintro rfl
    rfl

private theorem writeRange_changes (layout : Layout) (offset : Offset) (len : Nat) (bytes : List UInt8) :
    Keeps Changes (writeRange layout offset len bytes) := by
  intro s
  rw [writeRange_apply]
  cases s.arena.positionOf offset len with
  | error e => exact .refl
  | ok pos =>
    cases hw : s.arena.writableMapping with
    | error e => exact .refl
    | ok m =>
      dsimp only
      split
      · unfold FileSystem.writeAt
        split
        · exact .refl
        · exact .single (.modified (writableMapping_eq_ok.1 hw).1 _ s.arena.size)
      · exact .refl

private theorem allocate_changes (layout : Layout) (count : Nat) : Keeps Changes (allocate layout count) := by
  intro s
  rw [allocate_apply]
  split
  · exact .refl
  · cases hw : s.arena.writableMapping with
    | error e => exact .refl
    | ok m =>
      dsimp only
      split
      · exact .single (.modified (writableMapping_eq_ok.1 hw).1 _ _)
      · exact .refl

private theorem fill_changes (layout : Layout) (count len : Nat) (bytes : List UInt8) :
    Keeps Changes (allocate layout count >>= fun o => writeRange layout o len bytes >>= fun _ => pure o) :=
  (allocate_changes layout count).bind fun o => (writeRange_changes layout o len bytes).bind fun _ => keeps_pure o

private theorem pushText_changes (text : String) : Keeps Changes (pushText text) := by
  intro s
  unfold pushText
  split
  · exact .refl
  · exact fill_changes .byte _ _ _ s

/-- No call makes any other change. -/
theorem Call.changes (c : Call) : Keeps Changes c.run := by
  cases c with
  | create capacity => exact (create_changes capacity).bind fun _ => keeps_pure _
  | openToRead => exact openToRead_changes.bind fun _ => keeps_pure _
  | openToWrite => exact openToWrite_changes.bind fun _ => keeps_pure _
  | resize capacity => exact (resize_changes capacity).bind fun _ => keeps_pure _
  | trim => exact trim_changes.bind fun _ => keeps_pure _
  | close => exact Keeps.bind (fun _ => .single .shut) fun _ => keeps_pure _
  | remove => exact remove_changes.bind fun _ => keeps_pure _
  | flush => exact flush_changes.bind fun _ => keeps_pure _
  | allocate layout count => exact (allocate_changes layout count).bind fun _ => keeps_pure _
  | pushAll layout values => exact (fill_changes layout _ _ _).bind fun _ => keeps_pure _
  | push layout value => exact (fill_changes layout 1 _ _).bind fun _ => keeps_pure _
  | pushText text => exact (pushText_changes text).bind fun _ => keeps_pure _
  | write layout offset value => exact (writeRange_changes layout offset _ _).bind fun _ => keeps_pure _
  | writeAll layout offset values => exact (writeRange_changes layout offset _ _).bind fun _ => keeps_pure _
  | get layout offset => exact (keeps_look _).bind fun _ => keeps_pure _
  | getAll layout offset count => exact (keeps_look _).bind fun _ => keeps_pure _
  | getText offset => exact (keeps_look _).bind fun _ => keeps_pure _
  | contents => exact (keeps_look _).bind fun _ => keeps_pure _

/-- What holds between the states before and after every change holds between those before and after every call. -/
theorem Call.keeps_of_change {R : State → State → Prop} [Std.Refl R] [Trans R R R]
    (h : ∀ s s', Change s s' → R s s') (c : Call) : Keeps R c.run := fun s =>
  reflTransGen_le_of_le h s (left (c.run s)) (c.changes s)

/-! ### The file at the path -/

/-- The handle's path leads to a route, if anywhere, and a mapped file is the file at that route. -/
structure Bound (r : Route) (s : State) : Prop where
  path : ∀ t, s.fs.route? s.arena.path = some t → t = r
  mapped : ∀ m, s.arena.mapping = some m → s.fs.node? r = some (.file m.file)

/-- A run that begins with a handle bound to a route changes at most the file there and leaves the handle bound. -/
def Reaches (r : Route) (s s' : State) : Prop :=
  Bound r s → Bound r s' ∧ s'.arena.path = s.arena.path ∧ ChangesOnly r s.fs s'.fs

theorem Reaches.refl (r : Route) (s : State) : Reaches r s s := fun h => ⟨h, rfl, .refl r s.fs⟩

theorem Reaches.trans {r : Route} {s₁ s₂ s₃ : State} (h₁ : Reaches r s₁ s₂) (h₂ : Reaches r s₂ s₃) :
    Reaches r s₁ s₃ := by
  intro h
  obtain ⟨b₁, p₁, c₁⟩ := h₁ h
  obtain ⟨b₂, p₂, c₂⟩ := h₂ b₁
  exact ⟨b₂, p₂.trans p₁, c₁.trans c₂⟩

instance (r : Route) : Std.Refl (Reaches r) := ⟨Reaches.refl r⟩

instance (r : Route) : Trans (Reaches r) (Reaches r) (Reaches r) := ⟨Reaches.trans⟩

theorem bound_shut {fs : FileSystem} (h : ∀ t, fs.route? s.arena.path = some t → t = r) : Bound r (s.shut fs) :=
  ⟨h, fun _ hm => by cases hm⟩

private theorem reaches_shut {fs : FileSystem} (h : Bound r s → ChangesOnly r s.fs fs) :
    Reaches r s (s.shut fs) := by
  intro hb
  refine ⟨bound_shut ?_, rfl, h hb⟩
  intro t ht
  rw [(h hb).route?_eq] at ht
  exact hb.path t ht

theorem Bound.node?_of_openToWrite (hb : Bound r s) {id : Nat} (h : s.fs.openToWrite s.arena.path = .ok id) :
    s.fs.node? r = some (.file id) := by
  obtain ⟨t, ht⟩ := openToWrite_eq_ok.1 h
  obtain ⟨spot, hl, rfl, -, hn⟩ := stat_eq_ok.1 ht
  obtain rfl := hb.path _ (route?_eq_some.2 ⟨spot, hl, rfl⟩)
  exact hn

private theorem reaches_change (s s' : State) (h : Change s s') : Reaches r s s' := by
  cases h with
  | shut => exact reaches_shut fun _ => .refl r s.fs
  | resized h n => exact reaches_shut fun hb => .modifyFile (hb.node?_of_openToWrite h) _
  | made h n =>
    refine reaches_shut fun hb => ?_
    -- the new file is at the route of the path, so that setting its length changes that route again
    obtain ⟨hc, hn⟩ := ChangesOnly.of_create h hb.path
    exact hc.trans (.modifyFile hn _)
  | removed h => exact reaches_shut fun hb => .of_remove h hb.path
  | mapped h mode =>
    intro hb
    refine ⟨⟨hb.path, ?_⟩, rfl, .refl r s.fs⟩
    intro m hm
    cases hm
    exact hb.node?_of_openToWrite h
  | sized size => exact fun hb => ⟨⟨hb.path, hb.mapped⟩, rfl, .refl r s.fs⟩
  | modified h f size =>
    intro hb
    have hc : ChangesOnly r s.fs (s.fs.modifyFile _ f) := .modifyFile (hb.mapped _ h) f
    refine ⟨⟨fun t ht => hb.path t ?_, fun m' hm' => hb.mapped m' hm'⟩, rfl, hc⟩
    rw [hc.route?_eq] at ht
    exact ht

/-- Every call reaches the file at its handle's path alone. -/
theorem Call.reaches (c : Call) : Keeps (Reaches r) c.run := c.keeps_of_change reaches_change

end Bindery.Arena
