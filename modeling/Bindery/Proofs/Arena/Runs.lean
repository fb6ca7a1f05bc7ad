import Bindery.Arena.Call
import Bindery.Proofs.FileSystem.Edits
import Bindery.Proofs.Steps

/-!
# What calls on an arena do

One equation for every primitive call: the answer or the error, and the state that is left.
-/

namespace Bindery.Arena

open Steps

variable (s : State)

/-- The arena closed, over given files. -/
def State.shut (s : State) (fs : FileSystem) : State := ⟨fs, closed s.arena.path⟩

@[simp] theorem close_apply : close s = .ok () (s.shut s.fs) := rfl

theorem resize_apply (capacity : Nat) :
    resize capacity s =
      if maxCapacity < capacity then .error (.invalidArgument (.capacityOutOfRange capacity)) s
      else match s.fs.openToWrite s.arena.path with
        | .ok id => .ok () (s.shut (s.fs.setLength id capacity))
        | .error fault => .error (.ofOpening s.arena.path fault) (s.shut s.fs) := by
  unfold resize
  split
  · rfl
  · simp only [bind_apply, close_apply, get_apply]
    -- closing leaves the files and the path, so that the call opens what it would have opened before
    change (match s.fs.openToWrite s.arena.path with
      | .ok id => set _
      | .error fault => throw _ : Action Unit) (s.shut s.fs) = _
    cases s.fs.openToWrite s.arena.path <;> rfl

/-- The handle on a file that has just been mapped. -/
def State.mapped (s : State) (mode : Mode) (id : Nat) : State :=
  ⟨s.fs, ⟨s.arena.path, some ⟨mode, id, (s.fs.file id).content.size⟩, 0⟩⟩

theorem map_readOnly_apply :
    map .readOnly s =
      match s.fs.openToRead s.arena.path with
      | .ok (.file id) => .ok () (s.mapped .readOnly id)
      | .ok (.directory _) => .error (.map s.arena.path .noDevice) (s.shut s.fs)
      | .error fault => .error (.ofOpening s.arena.path fault) (s.shut s.fs) := by
  unfold map
  simp only [bind_apply, close_apply, get_apply]
  change (match s.fs.openToRead s.arena.path with
    | .ok (.file id) => set _
    | .ok (.directory _) => throw _
    | .error fault => throw _ : Action Unit) (s.shut s.fs) = _
  rcases s.fs.openToRead s.arena.path with e | (id | t) <;> rfl

theorem map_readWrite_apply :
    map .readWrite s =
      match s.fs.openToWrite s.arena.path with
      | .ok id => .ok () (s.mapped .readWrite id)
      | .error fault => .error (.ofOpening s.arena.path fault) (s.shut s.fs) := by
  unfold map
  simp only [bind_apply, close_apply, get_apply]
  change (match (s.fs.openToWrite s.arena.path).map FileSystem.Node.file with
    | .ok (.file id) => set _
    | .ok (.directory _) => throw _
    | .error fault => throw _ : Action Unit) (s.shut s.fs) = _
  cases s.fs.openToWrite s.arena.path <;> rfl

theorem createFile_apply (capacity : Nat) :
    createFile capacity s =
      match s.fs.create s.arena.path with
      | .ok (id, fs) => .ok () (s.shut (fs.setLength id capacity))
      | .error fault => .error (.file s.arena.path fault) (s.shut s.fs) := by
  unfold createFile
  simp only [bind_apply, close_apply, get_apply]
  change (match s.fs.create s.arena.path with
    | .ok (id, fs) => set _
    | .error fault => throw _ : Action Unit) (s.shut s.fs) = _
  rcases s.fs.create s.arena.path with e | ⟨id, fs⟩ <;> rfl

theorem create_apply (capacity : Nat) :
    create capacity s =
      if capacity = 0 then .error (.invalidArgument .zeroCapacity) s
      else if maxCapacity < capacity then .error (.invalidArgument (.capacityOutOfRange capacity)) s
      else if s.arena.path.isEmpty then .error (.invalidArgument .emptyPath) s
      else ((if s.fs.pathExists s.arena.path then resize capacity else createFile capacity) >>= fun _ =>
        map .readWrite) s := by
  unfold create
  split
  · rfl
  split
  · rfl
  simp only [bind_apply, get_apply]
  split
  · rfl
  split <;> rfl

theorem assertExists_apply :
    assertExists s = if s.fs.pathExists s.arena.path then .ok () s else .error (.notFound s.arena.path) s := by
  unfold assertExists
  simp only [bind_apply, get_apply]
  split <;> rfl

theorem openToRead_of_file {id : Nat} (h : s.fs.openToRead s.arena.path = .ok (.file id)) :
    openToRead s = .ok () ⟨s.fs, ⟨s.arena.path, some ⟨.readOnly, id, (s.fs.file id).content.size⟩,
      (s.fs.file id).content.size⟩⟩ := by
  obtain ⟨r, hr⟩ := FileSystem.openToRead_eq_ok.1 h
  unfold openToRead
  rw [bind_apply, assertExists_apply, if_pos (FileSystem.pathExists_eq_true.2 ⟨r, _, hr⟩)]
  dsimp only
  rw [bind_apply, map_readOnly_apply, h]
  rfl

theorem flush_apply : flush s = if s.arena.isOpen then .ok () s else .error .notOpen s := by
  unfold flush
  simp only [bind_apply, get_apply]
  split <;> rfl

theorem trim_apply : trim s = if s.arena.isOpen then resize s.arena.size s else .error .notOpen s := by
  unfold trim
  simp only [bind_apply, get_apply]
  split <;> rfl

theorem remove_apply :
    remove s =
      match s.fs.remove s.arena.path with
      | .ok fs => .ok () (s.shut fs)
      | .error .notFound => .ok () (s.shut s.fs)
      | .error fault => .error (.file s.arena.path fault) (s.shut s.fs) := by
  unfold remove
  simp only [bind_apply, close_apply, get_apply]
  change (match s.fs.remove s.arena.path with
    | .ok fs => set _
    | .error .notFound => pure ()
    | .error fault => throw _ : Action Unit) (s.shut s.fs) = _
  rcases s.fs.remove s.arena.path with e | fs
  · cases e <;> rfl
  · rfl

theorem look_apply {α : Type} (f : State → Except Error α) :
    look f s =
      match f s with
      | .ok a => .ok a s
      | .error e => .error e s := by
  unfold look
  simp only [bind_apply, get_apply]
  cases f s <;> rfl

theorem writeRange_apply (layout : Layout) (offset : Offset) (len : Nat) (bytes : List UInt8) :
    writeRange layout offset len bytes s =
      match s.arena.positionOf offset len with
      | .error e => .error e s
      | .ok pos =>
        match s.arena.writableMapping with
        | .error e => .error e s
        | .ok m =>
          if pos % layout.align = 0 then .ok () { s with fs := s.fs.writeAt m.file pos bytes }
          else .error (.invalidOffset offset 0 s.arena.size) s := by
  unfold writeRange writableMapping
  simp only [bind_apply, look_apply, get_apply]
  cases s.arena.positionOf offset len with
  | error e => rfl
  | ok pos =>
    dsimp only
    rcases s.arena.mapping with _ | ⟨_ | _, file, length⟩
    · rfl
    · rfl
    · dsimp only
      split <;> rfl

/-- The arena after room was handed out from a position up to an end. -/
def State.reserved (s : State) (file stop : Nat) : State :=
  ⟨s.fs.zeroAt file s.arena.size stop, { s.arena with size := stop }⟩

theorem allocate_apply (layout : Layout) (count : Nat) :
    allocate layout count s =
      if count = 0 ∨ layout.size = 0 then .error (.invalidArgument .zeroLength) s
      else match s.arena.writableMapping with
        | .error e => .error e s
        | .ok m =>
          let start := roundUp s.arena.size layout.align
          if layout.size * count ≤ maxWord ∧ start + spanLength layout count ≤ s.arena.capacity then
            .ok (.ofPosition start) (s.reserved m.file (start + spanLength layout count))
          else .error (.exhausted (spanLength layout count) s.arena.available) s := by
  unfold allocate
  split
  · rfl
  simp only [bind_apply, look_apply, get_apply]
  cases s.arena.writableMapping with
  | error e => rfl
  | ok m =>
    dsimp only
    split <;> rfl

end Bindery.Arena
