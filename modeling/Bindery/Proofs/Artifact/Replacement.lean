import Bindery.Proofs.Artifact.Script
import Bindery.Proofs.FileSystem.Parents
import Mathlib.Control.Monad.Basic

/-!
# Builds replace their destination and touch nothing else

Whatever a writer does with the arena it is given, a build leaves every file beside its staging file and its
destination as it was, and a build that fails leaves the destination as it was, too (`build_replaces`).  The
attempts reach the staging file alone (`attempts_reaches`), the missing directories are made before them, and the
destination changes in one step, by the renaming, after which nothing is at the staging path.

A destination at which nothing is can be led through a directory that does not exist, and back out of it by `..`.
Then the directory that is made on the way may be what the destination leads to afterwards
(`destination_can_be_its_own_parent`).
-/

namespace Bindery.Builder

open Build FileSystem

variable {σ : Type} {fs fs' fs₁ fs₂ : FileSystem} {d : Path} {r : Route}

/-! ### What stays -/

/-- What a route leads to is as it was: the same file with the same bytes and time, the same directory, or
nothing. -/
def Kept (fs fs' : FileSystem) (r : Route) : Prop :=
  fs'.node? r = fs.node? r ∧ ∀ id, fs.node? r = some (.file id) → fs'.file id = fs.file id

/-- A missing directory above a destination has been made. -/
def ParentMade (d : Path) (fs fs' : FileSystem) (r : Route) : Prop :=
  ∃ p, d.parent? = some p ∧ MadeDirectory p.ancestors fs fs' r

/-- The staging file or the destination is in a directory. -/
def Holds (d : Path) (fs : FileSystem) (r : Route) : Prop :=
  ∃ name, fs.route? (stagingPath d) = some (r ++ [name]) ∨ fs.route? d = some (r ++ [name])

/-- A directory is still there, and the staging file, the destination or a new directory above it is in it. -/
def Entered (d : Path) (fs fs' : FileSystem) (r : Route) : Prop :=
  fs.HasDirectory r ∧ fs'.HasDirectory r ∧ (Holds d fs' r ∨ ∃ name, ParentMade d fs fs' (r ++ [name]))

/-- Nothing has changed at a route but that a missing directory has been made there, or that names have come into
a directory or gone from it. -/
def Untouched (d : Path) (fs fs' : FileSystem) (r : Route) : Prop :=
  Kept fs fs' r ∨ Entered d fs fs' r ∨ ParentMade d fs fs' r

theorem Kept.refl (fs : FileSystem) (r : Route) : Kept fs fs r := ⟨rfl, fun _ _ => rfl⟩

theorem Kept.trans (h : Kept fs fs₁ r) (h' : Kept fs₁ fs₂ r) : Kept fs fs₂ r := by
  refine ⟨h'.1.trans h.1, fun id hid => ?_⟩
  rw [h'.2 id (h.1.trans hid), h.2 id hid]

private theorem ParentMade.of_keeps (h : ParentMade d fs fs₁ r) (hk : KeepsDirectories fs₁ fs₂) :
    ParentMade d fs fs₂ r := by
  obtain ⟨p, hp, hr⟩ := h
  exact ⟨p, hp, hr.of_keeps hk⟩

private theorem Holds.of_keeps (h : Holds d fs₁ r) (hk : KeepsDirectories fs₁ fs₂) : Holds d fs₂ r := by
  obtain ⟨name, h | h⟩ := h
  · exact ⟨name, .inl (route?_mono hk h)⟩
  · exact ⟨name, .inr (route?_mono hk h)⟩

theorem Untouched.trans (h : Untouched d fs fs₁ r) (hk : KeepsDirectories fs₁ fs₂)
    (h' : Kept fs₁ fs₂ r ∨ (fs₁.HasDirectory r ∧ Holds d fs₂ r)) : Untouched d fs fs₂ r := by
  rcases h with h | ⟨hd, hd₁, h⟩ | h
  · rcases h' with h' | ⟨⟨t, ht⟩, hh⟩
    · exact .inl (h.trans h')
    · exact .inr (.inl ⟨⟨t, h.1 ▸ ht⟩, hk.directory r ⟨t, ht⟩, .inl hh⟩)
  · refine .inr (.inl ⟨hd, hk.directory r hd₁, ?_⟩)
    rcases h with h | ⟨name, h⟩
    · exact .inl (h.of_keeps hk)
    · exact .inr ⟨name, h.of_keeps hk⟩
  · exact .inr (.inr (h.of_keeps hk))

/-! ### The staging path -/

/-- The staging path leads elsewhere than the destination. -/
theorem route?_stagingPath_ne (fs : FileSystem) (d : Path) (r : Route) (h : fs.route? (stagingPath d) = some r) :
    fs.route? d ≠ some r := by
  intro hd
  obtain ⟨spot, hl, rfl⟩ := route?_eq_some.1 h
  obtain ⟨dir, name, rfl, hr⟩ := locate_append (by decide) (by decide) hl
  -- the two routes differ in length, or in the length of their last names
  rcases hr _ hd with h | h | h
  · have hlen := congrArg (List.length ∘ List.flatten) h
    have htmp : (Text.encode ".tmp").length = 4 := by decide
    simp [Spot.route, htmp] at hlen
  · simp [Spot.route] at h
  · have := congrArg List.length h
    simp [Spot.route] at this
    omega

private theorem eq_append_of_dropLast {t : Route} (hne : r ≠ t) (h : r = t.dropLast) : ∃ name, t = r ++ [name] := by
  rcases List.eq_nil_or_concat t with rfl | ⟨dir, name, rfl⟩
  · exact absurd h hne
  · rw [List.concat_eq_append, List.dropLast_concat] at h
    exact ⟨name, by rw [h, List.concat_eq_append]⟩

theorem exists_route (fs : FileSystem) (p : Path) : ∃ r, ∀ t, fs.route? p = some t → t = r := by
  cases fs.route? p with
  | none => exact ⟨[], nofun⟩
  | some t => exact ⟨t, fun _ h => (Option.some.inj h).symm⟩

/-! ### Missing directories -/

theorem makeParent_adds (fs : FileSystem) (d : Path) {p : Path} (hp : d.parent? = some p) :
    AddsDirectories p.ancestors fs (makeParent fs d).2 := by
  unfold makeParent
  rw [hp]
  cases he : (!p.isEmpty) with
  | false => simpa [Option.filter, he] using AddsDirectories.refl _ fs
  | true =>
    simp only [Option.filter, he, if_true]
    have := fs.makeDirectories_adds p
    rcases h : fs.makeDirectories p with ⟨_ | _, fs₁⟩ <;> rw [h] at this <;> exact this

theorem makeParent_eq_self (fs : FileSystem) (hp : d.parent? = none) : (makeParent fs d).2 = fs := by
  unfold makeParent
  rw [hp]
  rfl

theorem makeParent_keeps (fs : FileSystem) (d : Path) : KeepsDirectories fs (makeParent fs d).2 := by
  cases hp : d.parent? with
  | none => rw [makeParent_eq_self fs hp]; exact .refl fs
  | some p => exact (makeParent_adds fs d hp).keepsDirectories

theorem makeParent_untouched (fs : FileSystem) (d : Path) (r : Route) :
    Untouched d fs (makeParent fs d).2 r := by
  cases hp : d.parent? with
  | none => rw [makeParent_eq_self fs hp]; exact .inl (.refl fs r)
  | some p =>
    have h := makeParent_adds fs d hp
    rcases h.node r with hr | hr | ⟨hd, hd', name, hr⟩
    · exact .inl ⟨hr, fun id _ => h.file_eq id⟩
    · exact .inr (.inr ⟨p, hp, hr⟩)
    · exact .inr (.inl ⟨hd, hd', .inr ⟨name, p, hp, hr⟩⟩)

/-! ### The attempts -/

/-- The files that the attempts of a build leave, with what the attempts answer. -/
def staged (b : Builder) (d : Path) (m : Metadata) (w : Writer σ) (fs : FileSystem) (u : σ) :
    Except Artifact.Error (Nat × Nat) × (Arena.State × σ) :=
  b.attempts m w b.firstCapacity b.one_le_firstCapacity 0 (⟨fs, .closed (stagingPath d)⟩, u)

theorem build_eq (b : Builder) (d : Path) (m : Metadata) (w : Writer σ) (fs : FileSystem) (u : σ) :
    b.build d m w fs u =
      match makeParent fs d with
      | (.error e, fs) => (.error e, fs, u)
      | (.ok (), fs) =>
        match b.staged d m w fs u with
        | (.error e, s, u) => (.error e, s.fs, u)
        | (.ok (size, attempts), s, u) =>
          match s.fs.rename (stagingPath d) d with
          | .error fault => (.error (.file d fault), s.fs, u)
          | .ok fs => (.ok ⟨d, size, attempts⟩, fs, u) := rfl

/-- How a build succeeds: its parents are made, its attempts succeed, and the staging file is renamed. -/
theorem build_eq_ok {b : Builder} {m : Metadata} {w : Writer σ} {u u' : σ} {outcome : Outcome}
    (h : b.build d m w fs u = (.ok outcome, fs', u')) :
    (makeParent fs d).1 = .ok () ∧ ∃ s,
      b.staged d m w (makeParent fs d).2 u = (.ok (outcome.size, outcome.attempts), s, u') ∧
        s.fs.rename (stagingPath d) d = .ok fs' ∧ outcome.path = d := by
  rw [build_eq] at h
  rcases hp : makeParent fs d with ⟨e | _, fs₁⟩ <;> rw [hp] at h
  · cases h
  dsimp only at h
  rcases hst : b.staged d m w fs₁ u with ⟨e | ⟨size, n⟩, s, u₁⟩ <;> rw [hst] at h
  · cases h
  dsimp only at h
  cases hr : s.fs.rename (stagingPath d) d with
  | error fault => rw [hr] at h; cases h
  | ok fs₂ =>
    rw [hr] at h
    cases h
    exact ⟨rfl, s, rfl, hr, rfl⟩

/-- How a build fails: its parents cannot be made, its attempts fail, or the renaming fails. -/
theorem build_eq_error {b : Builder} {m : Metadata} {w : Writer σ} {u u' : σ} {e : Artifact.Error}
    (h : b.build d m w fs u = (.error e, fs', u')) :
    ((makeParent fs d).1 = .error e ∧ fs' = (makeParent fs d).2) ∨
      ((makeParent fs d).1 = .ok () ∧ ∃ s,
        b.staged d m w (makeParent fs d).2 u = (.error e, s, u') ∧ fs' = s.fs) ∨
      ((makeParent fs d).1 = .ok () ∧ ∃ done s fault,
        b.staged d m w (makeParent fs d).2 u = (.ok done, s, u') ∧
          s.fs.rename (stagingPath d) d = .error fault ∧ e = .file d fault ∧ fs' = s.fs) := by
  rw [build_eq] at h
  rcases hp : makeParent fs d with ⟨e₁ | _, fs₁⟩ <;> rw [hp] at h
  · cases h
    exact .inl ⟨rfl, rfl⟩
  dsimp only at h
  rcases hst : b.staged d m w fs₁ u with ⟨e₁ | ⟨size, n⟩, s, u₁⟩ <;> rw [hst] at h
  · cases h
    exact .inr (.inl ⟨rfl, s, rfl, rfl⟩)
  dsimp only at h
  cases hr : s.fs.rename (stagingPath d) d with
  | ok fs₂ => rw [hr] at h; cases h
  | error fault =>
    rw [hr] at h
    cases h
    exact .inr (.inr ⟨rfl, ⟨size, n⟩, s, fault, rfl, hr, rfl, rfl⟩)

section Staged

variable {b : Builder} {m : Metadata} {program : σ → Script σ} {u u' : σ} {s : Arena.State}
  {result : Except Artifact.Error (Nat × Nat)}

/-- The attempts change the staging file alone. -/
theorem staged_changes (h : b.staged d m (Script.writer program) fs u = (result, s, u')) {r₀ : Route}
    (hr : ∀ t, fs.route? (stagingPath d) = some t → t = r₀) :
    s.arena.path = stagingPath d ∧ ChangesOnly r₀ fs s.fs := by
  have hstart : Arena.Bound r₀ ⟨fs, .closed (stagingPath d)⟩ := ⟨hr, fun _ hm => by cases hm⟩
  have hreach := b.attempts_reaches m (writer_reaches program) b.firstCapacity b.one_le_firstCapacity 0
    (⟨fs, .closed (stagingPath d)⟩, u) hstart
  unfold staged at h
  rw [h] at hreach
  exact hreach.2

private theorem staged_keeps (h : b.staged d m (Script.writer program) fs u = (result, s, u')) :
    KeepsDirectories fs s.fs ∧ s.fs.route? d = fs.route? d ∧
      s.fs.route? (stagingPath d) = fs.route? (stagingPath d) ∧
      (s.fs.route? (stagingPath d) ≠ some r → Kept fs s.fs r ∨ (fs.HasDirectory r ∧ Holds d s.fs r)) := by
  -- a staging path that leads nowhere lets the route be chosen, and one far below `r` serves
  obtain ⟨r₀, hr₀, hfar⟩ : ∃ r₀, (∀ t, fs.route? (stagingPath d) = some t → t = r₀) ∧
      (fs.route? (stagingPath d) ≠ some r → r ≠ r₀ ∧
        (r = r₀.dropLast → ∃ name, fs.route? (stagingPath d) = some (r ++ [name]))) := by
    cases hs : fs.route? (stagingPath d) with
    | none =>
      refine ⟨r ++ [[], []], nofun, fun _ => ⟨by simp, fun h => ?_⟩⟩
      have := congrArg List.length h
      simp at this
    | some t =>
      refine ⟨t, fun _ h => (Option.some.inj h).symm, fun hne => ?_⟩
      have hrt : r ≠ t := fun h => hne (h ▸ rfl)
      refine ⟨hrt, fun h => ?_⟩
      obtain ⟨name, rfl⟩ := eq_append_of_dropLast hrt h
      exact ⟨name, rfl⟩
  obtain ⟨-, hc⟩ := staged_changes h hr₀
  refine ⟨hc.keepsDirectories, hc.route?_eq, hc.route?_eq, fun hne => ?_⟩
  rw [hc.route?_eq] at hne
  obtain ⟨hrr, hholds⟩ := hfar hne
  rcases hc.node r hrr with hn | ⟨hdrop, hd, -⟩
  · refine .inl ⟨hn, fun id hid => hc.file id (fs.known r id hid) fun hid' => ?_⟩
    exact hrr (fs.unique r r₀ id hid hid')
  · obtain ⟨name, hname⟩ := hholds hdrop
    exact .inr ⟨hd, name, .inl (hc.route?_eq.trans hname)⟩

theorem staged_eq_ok {size n : Nat}
    (h : b.staged d m (Script.writer program) fs u = (.ok (size, n), s, u')) :
    ∃ t id, s.fs.stat (stagingPath d) = .ok (t, .file id) ∧ (s.fs.file id).content.size = size := by
  obtain ⟨capacity, s₁, -, ha⟩ := attempts_eq_ok (P := fun _ => True) (fun _ _ _ _ _ _ => trivial) _ trivial h
  obtain ⟨-, -, -, -, -, -, -, placed, -, -, -, -, -, rfl, htrim, -⟩ := attempt_eq_ok ha
  obtain ⟨-, id, -, hid, hs⟩ := Arena.trim_eq_ok htrim
  dsimp only at hs
  obtain ⟨t, ht⟩ := openToWrite_eq_ok.1 hid
  have hpath : placed.arena.path = stagingPath d := by
    obtain ⟨r₀, hr₀⟩ := exists_route fs (stagingPath d)
    rw [← (staged_changes h hr₀).1, hs]
    rfl
  obtain ⟨spot, hl, rfl, hadmits, hn⟩ := stat_eq_ok.1 ht
  rw [hpath] at hl
  have hc : ChangesOnly spot.route placed.fs (placed.fs.setLength id placed.arena.size) := .modifyFile hn _
  refine ⟨spot.route, id, ?_, ?_⟩
  · rw [hs]
    exact stat_eq_ok.2 ⟨spot, locate_mono hc.keepsDirectories hl, rfl, hadmits, hn⟩
  · rw [hs]
    show ((placed.fs.setLength id placed.arena.size).file id).content.size = _
    unfold setLength
    rw [file_modifyFile _ _ _ _ (placed.fs.known _ _ hn), if_pos rfl]
    rfl

end Staged

/-! ### The whole build -/

/-- The staging file that a build left has become the destination. -/
structure Replaced (b : Builder) (d : Path) (m : Metadata) (w : Writer σ) (fs : FileSystem) (u : σ)
    (outcome : Outcome) (fs' : FileSystem) (u' : σ) : Prop where
  path : outcome.path = d
  gone : fs'.pathExists (stagingPath d) = false
  moved : ∃ s id src dst,
    b.staged d m w (makeParent fs d).2 u = (.ok (outcome.size, outcome.attempts), s, u') ∧
      s.fs.stat (stagingPath d) = .ok (src, .file id) ∧ fs'.stat d = .ok (dst, .file id) ∧
      fs'.file id = s.fs.file id ∧ (fs'.file id).content.size = outcome.size

private theorem Replaced.of_rename {b : Builder} {m : Metadata} {program : σ → Script σ} {u u' : σ}
    {s : Arena.State} {size n : Nat}
    (h : b.staged d m (Script.writer program) (makeParent fs d).2 u = (.ok (size, n), s, u'))
    (hr : s.fs.rename (stagingPath d) d = .ok fs') :
    Replaced b d m (Script.writer program) fs u ⟨d, size, n⟩ fs' u' := by
  obtain ⟨src, dst, id, hsrc, -, hren, hstat⟩ := Renamed.of_rename hr (route?_stagingPath_ne s.fs d)
  -- the file that was renamed is the one that the attempts left
  have hfile : fs'.file id = s.fs.file id := by unfold file; rw [hren.files]
  obtain ⟨t, id', ht, hsize⟩ := staged_eq_ok h
  obtain ⟨spot, hl, rfl, -, hn⟩ := stat_eq_ok.1 ht
  obtain rfl : spot.route = src := Option.some.inj ((route?_eq_some.2 ⟨spot, hl, rfl⟩).symm.trans hsrc)
  obtain rfl : id' = id := by simpa using hn.symm.trans hren.source
  refine ⟨rfl, ?_, s, id', spot.route, dst, h, ht, hstat, hfile, by rw [hfile, hsize]⟩
  cases hex : fs'.pathExists (stagingPath d) with
  | false => rfl
  | true =>
    obtain ⟨t, node, ht⟩ := pathExists_eq_true.1 hex
    obtain ⟨spot', hl', rfl, -, hn'⟩ := stat_eq_ok.1 ht
    have hroute : fs'.route? (stagingPath d) = some spot'.route := route?_eq_some.2 ⟨spot', hl', rfl⟩
    rw [hren.route?_eq, hsrc, Option.some.injEq] at hroute
    rw [← hroute, hren.gone] at hn'
    cases hn'

theorem Replaced.of_build {b : Builder} {m : Metadata} {program : σ → Script σ} {u u' : σ} {outcome : Outcome}
    (h : b.build d m (Script.writer program) fs u = (.ok outcome, fs', u')) :
    Replaced b d m (Script.writer program) fs u outcome fs' u' := by
  obtain ⟨-, s, hst, hr, rfl⟩ := build_eq_ok h
  exact Replaced.of_rename hst hr

private theorem rename_keeps (hr : fs.rename (stagingPath d) d = .ok fs')
    (hs : fs'.route? (stagingPath d) ≠ some r) (hd : fs'.route? d ≠ some r) :
    KeepsDirectories fs fs' ∧ (Kept fs fs' r ∨ (fs.HasDirectory r ∧ Holds d fs' r)) := by
  obtain ⟨src, dst, id, hsrc, hdst, hren, -⟩ := Renamed.of_rename hr (route?_stagingPath_ne fs d)
  refine ⟨hren.keepsDirectories, ?_⟩
  have hnsrc : r ≠ src := by rintro rfl; exact hs (hren.route?_eq.trans hsrc)
  have hndst : r ≠ dst := by rintro rfl; exact hd (hren.route?_eq.trans hdst)
  rcases hren.node r hnsrc hndst with hn | ⟨hdrop, hdir, -⟩
  · exact .inl ⟨hn, fun id _ => by unfold file; rw [hren.files]⟩
  · refine .inr ⟨hdir, ?_⟩
    rcases hdrop with hdrop | hdrop
    · obtain ⟨name, rfl⟩ := eq_append_of_dropLast hnsrc hdrop
      exact ⟨name, .inl (hren.route?_eq.trans hsrc)⟩
    · obtain ⟨name, rfl⟩ := eq_append_of_dropLast hndst hdrop
      exact ⟨name, .inr (hren.route?_eq.trans hdst)⟩

/-- What each step of a build keeps, the whole build keeps. -/
theorem build_steps {R : FileSystem → FileSystem → Prop} {b : Builder} {m : Metadata} {program : σ → Script σ}
    (htrans : ∀ {fs₁ fs₂ fs₃}, R fs₁ fs₂ → R fs₂ fs₃ → R fs₁ fs₃) (hmake : ∀ fs, R fs (makeParent fs d).2)
    (hstaged : ∀ {fs result s} {u u' : σ}, b.staged d m (Script.writer program) fs u = (result, s, u') → R fs s.fs)
    (hrename : ∀ {fs fs'}, fs.rename (stagingPath d) d = .ok fs' → R fs fs') (fs : FileSystem) (u : σ) :
    R fs (b.build d m (Script.writer program) fs u).2.1 := by
  have hmade := hmake fs
  rw [build_eq]
  rcases hp : makeParent fs d with ⟨e | _, fs₁⟩ <;> rw [hp] at hmade
  · exact hmade
  dsimp only
  rcases hst : b.staged d m (Script.writer program) fs₁ u with ⟨result, s, u'⟩
  have hdone := htrans hmade (hstaged hst)
  rcases result with e | ⟨size, n⟩
  · exact hdone
  dsimp only
  cases hr : s.fs.rename (stagingPath d) d with
  | error fault => exact hdone
  | ok fs₂ => exact htrans hdone (hrename hr)

theorem build_keepsDirectories (b : Builder) (d : Path) (m : Metadata) (program : σ → Script σ) (fs : FileSystem)
    (u : σ) : KeepsDirectories fs (b.build d m (Script.writer program) fs u).2.1 := by
  refine build_steps .trans (makeParent_keeps · d) (fun hst => (staged_keeps (r := []) hst).1) (fun hr => ?_) fs u
  obtain ⟨src, dst, id, -, -, hren, -⟩ := Renamed.of_rename hr (route?_stagingPath_ne _ d)
  exact hren.keepsDirectories

theorem build_untouched (b : Builder) (d : Path) (m : Metadata) (program : σ → Script σ) (fs : FileSystem)
    (u : σ) (hs : (b.build d m (Script.writer program) fs u).2.1.route? (stagingPath d) ≠ some r)
    (hd : (b.build d m (Script.writer program) fs u).2.1.route? d ≠ some r ∨
      ∃ e, (b.build d m (Script.writer program) fs u).1 = .error e) :
    Untouched d fs (b.build d m (Script.writer program) fs u).2.1 r := by
  have hmade := makeParent_untouched fs d r
  rw [build_eq] at hs hd ⊢
  rcases hp : makeParent fs d with ⟨e | _, fs₁⟩ <;> rw [hp] at hmade
  · exact hmade
  simp only [hp] at hs hd ⊢
  rcases hst : b.staged d m (Script.writer program) fs₁ u with ⟨result, s, u'⟩
  obtain ⟨hk, -, -, hstaged⟩ := staged_keeps (r := r) hst
  simp only [hst] at hs hd ⊢
  rcases result with e | ⟨size, n⟩
  · exact hmade.trans hk (hstaged hs)
  dsimp only at hs hd ⊢
  cases hr : s.fs.rename (stagingPath d) d with
  | error fault =>
    rw [hr] at hs
    exact hmade.trans hk (hstaged hs)
  | ok fs₂ =>
    simp only [hr] at hs hd ⊢
    -- the build has succeeded, so that the destination is left out
    replace hd := hd.resolve_right nofun
    obtain ⟨src, dst, id, -, -, hren, -⟩ := Renamed.of_rename hr (route?_stagingPath_ne s.fs d)
    obtain ⟨hk', hkept⟩ := rename_keeps hr hs hd
    rw [hren.route?_eq] at hs
    exact (hmade.trans hk (hstaged hs)).trans hk' hkept

/-- A build replaces its destination by the finished file or leaves what was there, and leaves all else. -/
theorem build_replaces (b : Builder) (d : Path) (m : Metadata) (program : σ → Script σ) (fs : FileSystem) (u : σ) :
    let built := b.build d m (Script.writer program) fs u
    let fs' := built.2.1
    (∀ r, fs'.route? (stagingPath d) ≠ some r → fs'.route? d ≠ some r → Untouched d fs fs' r) ∧
      (∀ e, built.1 = .error e → ∀ r, fs.route? d = some r ∨ fs'.route? d = some r → Untouched d fs fs' r) ∧
      ∀ outcome, built.1 = .ok outcome → Replaced b d m (Script.writer program) fs u outcome fs' built.2.2 := by
  intro built fs'
  refine ⟨fun r hs hd => ?_, fun e he r hd => ?_, fun outcome ho => ?_⟩
  · exact build_untouched b d m program fs u hs (.inl hd)
  · -- the destination leads where it led before, since no directory has gone
    have hd' : fs'.route? d = some r := hd.elim (route?_mono (build_keepsDirectories b d m program fs u)) id
    have hs : fs'.route? (stagingPath d) ≠ some r := fun hs => route?_stagingPath_ne fs' d r hs hd'
    exact build_untouched b d m program fs u hs (.inr ⟨e, he⟩)
  · refine Replaced.of_build ?_
    rw [← ho]

/-- The directory made for the destination `x/../x` is the destination, and a build that fails leaves it there. -/
theorem destination_can_be_its_own_parent :
    ∃ d built,
      built = (ofSizes 1 2 1 0).build d default (Script.writer fun _ => .finish (.ok .null) ()) (bare ⟨0⟩) () ∧
      built.1 = .error (.capacityLimit 1) ∧ (bare ⟨0⟩).pathExists d = false ∧ built.2.1.isDirectory d = true := by
  refine ⟨.ofString "x/../x", _, rfl, ?_, ?_, ?_⟩
  · decide +kernel
  · decide +kernel
  · decide +kernel

end Bindery.Builder
