import Bindery.Proofs.FileSystem.Edits

/-!
# Missing directories

Making the directories above a path adds directories where nothing was and does nothing else
(`makeDirectories_adds`).  Each new one is where the path or one of the paths above it leads, and the only
directories touched are those that a new one lies in.  This holds also when a directory cannot be made: those made
before it stay.
-/

namespace Bindery.FileSystem

variable {fs fs' : FileSystem} {p : Path} {paths : List Path} {r : Route}

/-- A directory that was missing has been made where one of several paths leads. -/
def MadeDirectory (paths : List Path) (fs fs' : FileSystem) (r : Route) : Prop :=
  fs.node? r = none ∧ fs'.HasDirectory r ∧ ∃ p ∈ paths, fs'.route? p = some r

/-- A file system has directories more than another one, made where one of several paths leads. -/
structure AddsDirectories (paths : List Path) (fs fs' : FileSystem) : Prop where
  workingDirectory : fs'.workingDirectory = fs.workingDirectory
  files : fs'.files = fs.files
  node : ∀ r, fs'.node? r = fs.node? r ∨ MadeDirectory paths fs fs' r ∨
    (fs.HasDirectory r ∧ fs'.HasDirectory r ∧ ∃ name, MadeDirectory paths fs fs' (r ++ [name]))

theorem MadeDirectory.mono {paths' : List Path} (h : MadeDirectory paths fs fs' r) (hp : ∀ p ∈ paths, p ∈ paths') :
    MadeDirectory paths' fs fs' r := by
  obtain ⟨hn, hd, p, hmem, hr⟩ := h
  exact ⟨hn, hd, p, hp p hmem, hr⟩

theorem MadeDirectory.of_keeps {fs₂ : FileSystem} (h : MadeDirectory paths fs fs' r)
    (hk : KeepsDirectories fs' fs₂) : MadeDirectory paths fs fs₂ r := by
  obtain ⟨hn, hd, p, hmem, hr⟩ := h
  exact ⟨hn, hk.directory r hd, p, hmem, route?_mono hk hr⟩

namespace AddsDirectories

theorem refl (paths : List Path) (fs : FileSystem) : AddsDirectories paths fs fs := ⟨rfl, rfl, fun _ => .inl rfl⟩

theorem mono {paths' : List Path} (h : AddsDirectories paths fs fs') (hp : ∀ p ∈ paths, p ∈ paths') :
    AddsDirectories paths' fs fs' where
  workingDirectory := h.workingDirectory
  files := h.files
  node r := by
    rcases h.node r with hr | hr | ⟨hd, hd', name, hr⟩
    · exact .inl hr
    · exact .inr (.inl (hr.mono hp))
    · exact .inr (.inr ⟨hd, hd', name, hr.mono hp⟩)

theorem keepsDirectories (h : AddsDirectories paths fs fs') : KeepsDirectories fs fs' where
  workingDirectory := h.workingDirectory
  directory r := by
    rintro ⟨t, ht⟩
    rcases h.node r with hr | ⟨hn, -⟩ | ⟨-, hd, -⟩
    · exact ⟨t, hr.trans ht⟩
    · rw [ht] at hn; cases hn
    · exact hd

theorem node?_eq_none (h : AddsDirectories paths fs fs') (hr : fs'.node? r = none) : fs.node? r = none := by
  rcases h.node r with hr' | ⟨hn, -⟩ | ⟨-, ⟨t, ht⟩, -⟩
  · rw [← hr', hr]
  · exact hn
  · rw [ht] at hr; cases hr

theorem trans {fs₂ : FileSystem} (h : AddsDirectories paths fs fs') (h' : AddsDirectories paths fs' fs₂) :
    AddsDirectories paths fs fs₂ where
  workingDirectory := h'.workingDirectory.trans h.workingDirectory
  files := h'.files.trans h.files
  node r := by
    have hk := h'.keepsDirectories
    rcases h.node r with hr | hr | ⟨hd, hd', name, hr⟩
    · rcases h'.node r with hr' | ⟨hn, hd', hp⟩ | ⟨⟨t, ht⟩, hd', name, hn, hmade⟩
      · exact .inl (hr'.trans hr)
      · exact .inr (.inl ⟨hr ▸ hn, hd', hp⟩)
      · exact .inr (.inr ⟨⟨t, hr ▸ ht⟩, hd', name, h.node?_eq_none hn, hmade⟩)
    · exact .inr (.inl (hr.of_keeps hk))
    · exact .inr (.inr ⟨hd, hk.directory r hd', name, hr.of_keeps hk⟩)

theorem file_eq (h : AddsDirectories paths fs fs') (id : Nat) : fs'.file id = fs.file id := by
  unfold file; rw [h.files]

theorem of_makeDirectory (h : fs.makeDirectory p = .ok fs') : AddsDirectories [p] fs fs' := by
  obtain ⟨dir, name, hr, hn, rfl⟩ := makeDirectory_eq_ok h
  have hmade : ((fs.putDirectory (dir ++ [name]) fs.now).touchDirectory dir).HasDirectory (dir ++ [name]) :=
    ⟨fs.now, by simp [node?_putDirectory]⟩
  have hkeeps : KeepsDirectories fs ((fs.putDirectory (dir ++ [name]) fs.now).touchDirectory dir) := by
    refine ⟨by rw [workingDirectory_touchDirectory]; rfl, fun s ⟨t, ht⟩ => ?_⟩
    have hs : s ≠ dir ++ [name] := by rintro rfl; rw [hn] at ht; cases ht
    rcases node?_touchDirectory (fs.putDirectory (dir ++ [name]) fs.now) dir s with h | ⟨-, -, h⟩
    · exact ⟨t, by rw [h, node?_putDirectory, if_neg hs, ht]⟩
    · exact h
  have hnew : MadeDirectory [p] fs ((fs.putDirectory (dir ++ [name]) fs.now).touchDirectory dir) (dir ++ [name]) :=
    ⟨hn, hmade, p, List.mem_singleton.2 rfl, route?_mono hkeeps hr⟩
  refine ⟨hkeeps.workingDirectory, by rw [files_touchDirectory]; rfl, fun s => ?_⟩
  by_cases hs : s = dir ++ [name]
  · exact .inr (.inl (hs ▸ hnew))
  · rcases node?_touchDirectory (fs.putDirectory (dir ++ [name]) fs.now) dir s with h | ⟨rfl, ⟨t, ht⟩, hd⟩
    · exact .inl (by rw [h, node?_putDirectory, if_neg hs])
    · rw [node?_putDirectory, if_neg hs] at ht
      exact .inr (.inr ⟨⟨t, ht⟩, hd, name, hnew⟩)

end AddsDirectories

private theorem makeDirectoriesUpTo_adds (n : Nat) (fs : FileSystem) (p : Path) :
    AddsDirectories (Path.ancestors.go p n) fs (makeDirectoriesUpTo n fs p).2 := by
  induction n generalizing fs p with
  | zero =>
    unfold makeDirectoriesUpTo
    split
    · exact .refl _ fs
    · cases h : fs.makeDirectory p with
      | ok fs₁ => exact .of_makeDirectory h
      | error e => cases e <;> exact .refl _ fs
  | succ n ih =>
    have hself : ∀ q ∈ [p], q ∈ Path.ancestors.go p (n + 1) := by
      intro q hq
      rw [List.mem_singleton.1 hq, Path.ancestors.go]
      cases p.parent? <;> exact List.mem_cons_self
    unfold makeDirectoriesUpTo
    split
    · exact .refl _ fs
    · cases h : fs.makeDirectory p with
      | ok fs₁ => exact (AddsDirectories.of_makeDirectory h).mono hself
      | error e =>
        cases e with
        | notFound =>
          cases hp : p.parent? with
          | none => exact .refl _ fs
          | some above =>
            have habove : AddsDirectories (Path.ancestors.go p (n + 1)) fs (makeDirectoriesUpTo n fs above).2 := by
              refine (ih fs above).mono fun q hq => ?_
              rw [Path.ancestors.go, hp]
              exact List.mem_cons_of_mem _ hq
            -- what was made above stays, whether the directory itself can be made or not
            dsimp only
            rcases hup : makeDirectoriesUpTo n fs above with ⟨e | _, fs₁⟩ <;> rw [hup] at habove
            · exact habove
            · dsimp only
              cases h₁ : fs₁.makeDirectory p with
              | ok fs₂ => exact habove.trans ((AddsDirectories.of_makeDirectory h₁).mono hself)
              | error e => exact habove
        | _ => exact .refl _ fs

/-- Making a directory and those above it adds directories where these lead. -/
theorem makeDirectories_adds (fs : FileSystem) (p : Path) :
    AddsDirectories p.ancestors fs (fs.makeDirectories p).2 := makeDirectoriesUpTo_adds _ fs p

end Bindery.FileSystem
