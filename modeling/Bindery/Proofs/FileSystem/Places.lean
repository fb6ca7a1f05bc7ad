import Bindery.FileSystem.Operations

/-!
# Where paths lead

A path is followed through directories alone, so the route it leads to depends on which directories there are and
on nothing else: a file that appears, goes or changes on the way cannot redirect it, and a new directory can only
open a way that was closed (`locate_mono`).  The operations by path are then read as changes at one route
(`create_eq_ok`, `remove_eq_ok`, `rename_eq_ok`, `makeDirectory_eq_ok`).
-/

namespace Bindery.FileSystem

variable {fs fs' : FileSystem} {p : Path} {dir r : Route} {name : Name}

/-! ### Directories -/

def HasDirectory (fs : FileSystem) (r : Route) : Prop := ∃ t, fs.node? r = some (.directory t)

/-- The directories of one file system are directories of another, which starts relative paths in the same one. -/
structure KeepsDirectories (fs fs' : FileSystem) : Prop where
  workingDirectory : fs'.workingDirectory = fs.workingDirectory
  directory : ∀ r, fs.HasDirectory r → fs'.HasDirectory r

theorem KeepsDirectories.refl (fs : FileSystem) : KeepsDirectories fs fs := ⟨rfl, fun _ h => h⟩

theorem KeepsDirectories.trans {fs₁ fs₂ fs₃ : FileSystem} (h : KeepsDirectories fs₁ fs₂)
    (h' : KeepsDirectories fs₂ fs₃) : KeepsDirectories fs₁ fs₃ :=
  ⟨h'.workingDirectory.trans h.workingDirectory, fun r hr => h'.directory r (h.directory r hr)⟩

/-! ### The way to the last piece -/

theorem lookup_eq_ok {node : Option Node} :
    fs.lookup dir name = .ok node ↔ name.length ≤ nameLimit ∧ fs.node? (dir ++ [name]) = node := by
  unfold lookup
  split
  · next h => simp; omega
  · next h => simp; omega

private theorem step_mono (h : KeepsDirectories fs fs') {piece : Name} {next : Route}
    (hs : fs.step dir piece = .ok next) : fs'.step dir piece = .ok next := by
  unfold step at hs ⊢
  split
  · next hp => rw [if_pos hp] at hs; exact hs
  · next hp =>
    rw [if_neg hp] at hs
    split
    · next hp' => rw [if_pos hp'] at hs; exact hs
    · next hp' =>
      rw [if_neg hp'] at hs
      cases hl : fs.lookup dir piece with
      | error e => rw [hl] at hs; cases hs
      | ok node =>
        rw [hl] at hs
        obtain ⟨hlen, hnode⟩ := lookup_eq_ok.1 hl
        cases node with
        | none => cases hs
        | some node =>
          cases node with
          | file id => cases hs
          | directory t =>
            obtain ⟨t', ht'⟩ := h.directory _ ⟨t, hnode⟩
            rw [lookup_eq_ok.2 ⟨hlen, ht'⟩]
            exact hs

theorem walk_mono (h : KeepsDirectories fs fs') {pieces : List Name} {dir next : Route}
    (hw : fs.walk dir pieces = .ok next) : fs'.walk dir pieces = .ok next := by
  induction pieces generalizing dir with
  | nil => exact hw
  | cons piece rest ih =>
    unfold walk at hw ⊢
    cases hs : fs.step dir piece with
    | error e => rw [hs] at hw; cases hw
    | ok dir' =>
      rw [hs] at hw
      rw [step_mono h hs]
      exact ih hw

/-- Where the way to a path's last piece begins. -/
def startOf (fs : FileSystem) (p : Path) : Route := if p.isAbsolute then [] else fs.workingDirectory

/-- The pieces of a path that the way along it goes by. -/
def stepsOf (p : Path) : List Name := p.pieces.filter (· ≠ [])

/-- Where a way ends whose pieces before the last one lead to a directory. -/
def spotAt (dir : Route) (last : Name) (slashed : Bool) : Spot :=
  if last = Path.dot then .directory dir
  else if last = Path.dotDot then .directory dir.dropLast
  else .entry dir last slashed

theorem locate_eq_ok {spot : Spot} :
    fs.locate p = .ok spot ↔
      0 ∉ p.bytes ∧ p.isEmpty = false ∧ p.bytes.length < pathLimit ∧
        ((stepsOf p = [] ∧ spot = .directory (fs.startOf p)) ∨
          ∃ before last dir, stepsOf p = before ++ [last] ∧ fs.walk (fs.startOf p) before = .ok dir ∧
            spot = spotAt dir last (p.bytes.getLast? = some Path.slash)) := by
  unfold locate
  by_cases h0 : 0 ∈ p.bytes
  · simp [h0]
  by_cases h1 : p.isEmpty = true
  · simp [h0, h1]
  by_cases h2 : pathLimit ≤ p.bytes.length
  · have h2' : ¬ p.bytes.length < pathLimit := by omega
    simp [h0, h1, h2, h2']
  have h2' : p.bytes.length < pathLimit := by omega
  simp only [h0, h1, h2, h2', if_false, not_false_eq_true, true_and, Bool.false_eq_true]
  have hstart : (if p.isAbsolute = true then [] else fs.workingDirectory) = fs.startOf p := rfl
  have hsteps : p.pieces.filter (· ≠ []) = stepsOf p := rfl
  rw [hstart, hsteps]
  rcases List.eq_nil_or_concat (stepsOf p) with hs | ⟨before, last, hs⟩
  · rw [hs]
    constructor
    · intro h
      cases h
      exact .inl ⟨rfl, rfl⟩
    · rintro (⟨-, rfl⟩ | ⟨before, last, dir, h, -⟩)
      · rfl
      · simp at h
  · rw [hs]
    simp only [List.concat_eq_append, List.getLast?_append, List.getLast?_singleton, Option.some_or,
      List.dropLast_concat]
    constructor
    · intro h
      cases hw : fs.walk (fs.startOf p) before with
      | error e => rw [hw] at h; cases h
      | ok dir =>
        rw [hw] at h
        refine .inr ⟨before, last, dir, rfl, hw, ?_⟩
        unfold spotAt
        grind
    · rintro (⟨h, -⟩ | ⟨before', last', dir, h, hw, rfl⟩)
      · simp at h
      · obtain ⟨rfl, rfl⟩ : before = before' ∧ last = last' := by simpa using List.append_inj' h rfl
        rw [hw]
        unfold spotAt
        grind

/-- The way to a path's last piece stays open when directories are added. -/
theorem locate_mono (h : KeepsDirectories fs fs') {spot : Spot} (hl : fs.locate p = .ok spot) :
    fs'.locate p = .ok spot := by
  have hstart : fs'.startOf p = fs.startOf p := by unfold startOf; rw [h.workingDirectory]
  rw [locate_eq_ok] at hl ⊢
  obtain ⟨h0, h1, h2, hspot⟩ := hl
  refine ⟨h0, h1, h2, ?_⟩
  rw [hstart]
  rcases hspot with hspot | ⟨before, last, dir, hs, hw, rfl⟩
  · exact .inl hspot
  · exact .inr ⟨before, last, dir, hs, walk_mono h hw, rfl⟩

/-- The name at which a way ends is the last step of the path. -/
theorem getLast?_stepsOf {slashed : Bool} (h : fs.locate p = .ok (.entry dir name slashed)) :
    (stepsOf p).getLast? = some name := by
  obtain ⟨-, -, -, ⟨-, h⟩ | ⟨before, last, dir', hs, -, h⟩⟩ := locate_eq_ok.1 h
  · cases h
  · unfold spotAt at h
    split at h
    · cases h
    split at h
    · cases h
    cases h
    rw [hs, List.getLast?_concat]

def Spot.route : Spot → Route
  | .directory r => r
  | .entry dir name _ => dir ++ [name]

/-- The route that a path leads to, whether or not something is there. -/
def route? (fs : FileSystem) (p : Path) : Option Route := (fs.locate p).toOption.map Spot.route

theorem route?_eq_some {r : Route} :
    fs.route? p = some r ↔ ∃ spot, fs.locate p = .ok spot ∧ spot.route = r := by
  unfold route?
  cases fs.locate p with
  | error e => simp [Except.toOption]
  | ok spot => simp [Except.toOption]

theorem route?_mono (h : KeepsDirectories fs fs') (hr : fs.route? p = some r) : fs'.route? p = some r := by
  obtain ⟨spot, hl, hs⟩ := route?_eq_some.1 hr
  exact route?_eq_some.2 ⟨spot, locate_mono h hl, hs⟩

theorem route?_congr (hw : fs'.workingDirectory = fs.workingDirectory)
    (hd : ∀ s, fs'.HasDirectory s ↔ fs.HasDirectory s) : fs'.route? p = fs.route? p := by
  apply Option.ext
  intro r
  constructor
  · exact route?_mono ⟨hw.symm, fun s => (hd s).1⟩
  · exact route?_mono ⟨hw, fun s => (hd s).2⟩

/-! ### Text behind a path -/

private theorem splitOn_append_of_not_mem {a : UInt8} {ys : List UInt8} (h : a ∉ ys) (xs : List UInt8) :
    ∃ before last, xs.splitOn a = before ++ [last] ∧ (xs ++ ys).splitOn a = before ++ [last ++ ys] := by
  induction xs with
  | nil => exact ⟨[], [], by simp, by simp [List.splitOn_eq_singleton h]⟩
  | cons x xs ih =>
    obtain ⟨before, last, h₁, h₂⟩ := ih
    rw [List.cons_append, List.splitOn_cons_eq_if_modifyHead, List.splitOn_cons_eq_if_modifyHead, h₁, h₂]
    split
    · exact ⟨[] :: before, last, rfl, rfl⟩
    · cases before with
      | nil => exact ⟨[], x :: last, rfl, rfl⟩
      | cons piece before => exact ⟨(x :: piece) :: before, last, rfl, rfl⟩

theorem walk_append_eq_ok {xs ys : List Name} {dir next : Route} :
    fs.walk dir (xs ++ ys) = .ok next ↔ ∃ mid, fs.walk dir xs = .ok mid ∧ fs.walk mid ys = .ok next := by
  induction xs generalizing dir with
  | nil => simp [walk]
  | cons piece xs ih =>
    simp only [List.cons_append, walk]
    cases fs.step dir piece with
    | error e => simp
    | ok dir' => exact ih

theorem route_spotAt_of_walk {last : Name} {slashed : Bool} {next : Route}
    (h : fs.walk dir [last] = .ok next) : (spotAt dir last slashed).route = next := by
  simp only [walk, step] at h
  unfold spotAt
  by_cases h₁ : last = Path.dot
  · simp only [h₁, if_true] at h ⊢
    cases h; rfl
  by_cases h₂ : last = Path.dotDot
  · subst h₂
    simp only [h₁, if_true, if_false] at h ⊢
    cases h; rfl
  simp only [h₁, h₂, if_false] at h ⊢
  cases hl : fs.lookup dir last with
  | error e => simp [hl] at h
  | ok node =>
    rw [hl] at h
    rcases node with _ | (_ | _) <;> simp at h
    exact h

private theorem startOf_append {text : String} (hslash : Path.slash ∉ Text.encode text) :
    fs.startOf (p.append text) = fs.startOf p := by
  have : (p.append text).isAbsolute = p.isAbsolute := by
    unfold Path.isAbsolute Path.append
    cases hb : p.bytes with
    | nil =>
      cases htx : Text.encode text with
      | nil => rfl
      | cons c rest =>
        have : c ≠ Path.slash := by rintro rfl; simp [htx] at hslash
        simp [this]
    | cons c rest => simp
  unfold startOf
  rw [this]

private theorem not_slashed_append {text : String} (hslash : Path.slash ∉ Text.encode text)
    (hlen : 2 < (Text.encode text).length) : (p.append text).bytes.getLast? ≠ some Path.slash := by
  intro h
  unfold Path.append at h
  have hne : Text.encode text ≠ [] := by intro h; simp [h] at hlen
  rw [List.getLast?_append, List.getLast?_eq_some_getLast hne, Option.some_or, Option.some.injEq] at h
  exact hslash (h ▸ List.getLast_mem hne)

private theorem spotAt_of_length {last : Name} (h : 2 < last.length) (slashed : Bool) :
    spotAt dir last slashed = .entry dir last slashed := by
  have h₁ : last ≠ Path.dot := by rintro rfl; simp [Path.dot] at h
  have h₂ : last ≠ Path.dotDot := by rintro rfl; simp [Path.dotDot] at h
  simp [spotAt, h₁, h₂]

/-- A path with text behind it that has no slash leads to a name in a directory, and the path itself to that
directory, to the one above, or to a shorter name. -/
theorem locate_append {text : String} (hslash : Path.slash ∉ Text.encode text)
    (hlen : 2 < (Text.encode text).length) {spot : Spot} (h : fs.locate (p.append text) = .ok spot) :
    ∃ dir name, spot = .entry dir (name ++ Text.encode text) false ∧
      ∀ r, fs.route? p = some r → r = dir ++ [name] ∨ r = dir ∨ r = dir.dropLast := by
  obtain ⟨before, last, hp, ht⟩ := splitOn_append_of_not_mem hslash p.bytes
  have hpieces : stepsOf (p.append text) = before.filter (· ≠ []) ++ [last ++ Text.encode text] := by
    have : last ++ Text.encode text ≠ [] := by intro h; simp_all
    unfold stepsOf Path.pieces Path.append
    rw [ht, List.filter_append]
    simp [this]
  have hsteps : stepsOf p = before.filter (· ≠ []) ++ [last].filter (· ≠ []) := by
    unfold stepsOf Path.pieces
    rw [hp, List.filter_append]
  obtain ⟨-, -, -, ⟨hnil, -⟩ | ⟨before', last', dir, hs, hw, rfl⟩⟩ := locate_eq_ok.1 h
  · simp [hpieces] at hnil
  obtain ⟨rfl, hlast⟩ := List.append_inj' (hpieces.symm.trans hs) rfl
  obtain rfl : last ++ Text.encode text = last' := by simpa using hlast
  rw [startOf_append hslash] at hw
  refine ⟨dir, last, ?_, ?_⟩
  · rw [spotAt_of_length (by simp; omega), decide_eq_false (not_slashed_append hslash hlen)]
  · intro r hr
    obtain ⟨spot, hl, rfl⟩ := route?_eq_some.1 hr
    obtain ⟨-, -, -, ⟨hnil, rfl⟩ | ⟨before', last', dir', hs', hw', rfl⟩⟩ := locate_eq_ok.1 hl
    · -- the path has no steps, so that its own spot is where the way begins
      rw [hsteps, List.append_eq_nil_iff] at hnil
      rw [hnil.1] at hw
      cases hw
      exact .inr (.inl rfl)
    rw [hsteps] at hs'
    by_cases hnone : last = []
    · -- the path ends in a slash, so that its own last step is one more step on the way
      subst hnone
      rw [List.filter_cons_of_neg (by simp), List.filter_nil, List.append_nil] at hs'
      rw [hs', walk_append_eq_ok] at hw
      obtain ⟨mid, hmid, hw⟩ := hw
      rw [hw'] at hmid
      cases hmid
      exact .inr (.inl (route_spotAt_of_walk hw))
    · rw [List.filter_cons_of_pos (by simpa using hnone), List.filter_nil] at hs'
      obtain ⟨rfl, hl'⟩ := List.append_inj' hs' rfl
      obtain rfl : last = last' := by simpa using hl'
      rw [hw] at hw'
      cases hw'
      unfold spotAt
      split
      · exact .inr (.inl rfl)
      · split
        · exact .inr (.inr rfl)
        · exact .inl rfl

end Bindery.FileSystem
