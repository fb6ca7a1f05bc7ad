import Bindery.Proofs.Artifact.Destination

/-!
# Readers beside builds

A build writes to its staging file and renames it, so a file that has no name but the destination's is kept as it is,
whether it keeps this name or not (`Builder.build_keepsSecluded`).  Whoever has such a file mapped goes on reading the
same bytes (`Build.Attached.build`).  The destination itself leads to the file that was there at the start, until a
build succeeds, and from then on to the file that the last such build left: builds that fail keep it
(`Build.Session.Sound.kept`).  Over a session of builds and openings, in any order, these two give
`Build.Session.readers_keep_snapshot`.
-/

namespace Bindery

open Steps FileSystem

/-! ### Answers -/

/-- What can be read from a handle is the same in two file systems. -/
structure Arena.SameAnswers (a : Arena) (fs fs' : FileSystem) : Prop where
  get : ∀ layout o, State.get ⟨fs', a⟩ layout o = State.get ⟨fs, a⟩ layout o
  getAll : ∀ layout o count, State.getAll ⟨fs', a⟩ layout o count = State.getAll ⟨fs, a⟩ layout o count
  getText : ∀ o, State.getText ⟨fs', a⟩ o = State.getText ⟨fs, a⟩ o
  contents : State.contents ⟨fs', a⟩ = State.contents ⟨fs, a⟩

theorem Arena.SameAnswers.refl (a : Arena) (fs : FileSystem) : a.SameAnswers fs fs :=
  ⟨fun _ _ => rfl, fun _ _ _ => rfl, fun _ => rfl, rfl⟩

theorem Arena.SameAnswers.trans {a : Arena} {fs₁ fs₂ fs₃ : FileSystem} (h : a.SameAnswers fs₁ fs₂)
    (h' : a.SameAnswers fs₂ fs₃) : a.SameAnswers fs₁ fs₃ where
  get layout o := (h'.get layout o).trans (h.get layout o)
  getAll layout o count := (h'.getAll layout o count).trans (h.getAll layout o count)
  getText o := (h'.getText o).trans (h.getText o)
  contents := h'.contents.trans h.contents

theorem Arena.sameAnswers_of_file {a : Arena} {m : Mapping} {fs fs' : FileSystem} (hm : a.mapping = some m)
    (h : fs'.file m.file = fs.file m.file) : a.SameAnswers fs fs' := by
  have hbytes (pos n : Nat) : State.bytes ⟨fs', a⟩ pos n = State.bytes ⟨fs, a⟩ pos n := by
    unfold State.bytes
    simp only [hm, h]
  have hrange (layout : Layout) (o : Offset) (len : Nat) :
      State.readRange ⟨fs', a⟩ layout o len = State.readRange ⟨fs, a⟩ layout o len := by
    unfold State.readRange
    simp only [hbytes]
  refine ⟨fun layout o => hrange layout o _, fun layout o count => hrange layout o _, fun o => ?_, ?_⟩
  · unfold State.getText
    simp only [hm, h]
  · unfold State.contents
    simp only [hbytes]

namespace Builder

variable {σ : Type} {d : Path} {fs fs' fs₁ fs₂ : FileSystem} {id : Nat} {r : Route}

/-! ### Files beside the destination -/

/-- A file has no name but the destination's, if that is its own. -/
structure Secluded (d : Path) (fs : FileSystem) (id : Nat) : Prop where
  known : id < fs.files.length
  route : ∀ r, fs.node? r = some (.file id) → fs.route? d = some r

theorem Secluded.of_stat (h : fs.stat d = .ok (r, .file id)) : Secluded d fs id := by
  obtain ⟨hr, hn⟩ := route?_of_stat h
  refine ⟨fs.known r id hn, fun t ht => ?_⟩
  rw [fs.unique t r id ht hn]
  exact hr

/-- A file stays as it is, and secluded if it was. -/
def KeepsSecluded (d : Path) (id : Nat) (fs fs' : FileSystem) : Prop :=
  Secluded d fs id → Secluded d fs' id ∧ fs'.file id = fs.file id

theorem KeepsSecluded.trans (h : KeepsSecluded d id fs fs₁) (h' : KeepsSecluded d id fs₁ fs₂) :
    KeepsSecluded d id fs fs₂ := by
  intro hsec
  obtain ⟨hsec₁, hfile₁⟩ := h hsec
  obtain ⟨hsec₂, hfile₂⟩ := h' hsec₁
  exact ⟨hsec₂, hfile₂.trans hfile₁⟩

private theorem keepsSecluded_makeParent (fs : FileSystem) : KeepsSecluded d id fs (makeParent fs d).2 := by
  cases hp : d.parent? with
  | none =>
    rw [makeParent_eq_self fs hp]
    exact fun hsec => ⟨hsec, rfl⟩
  | some p =>
    have h := makeParent_adds fs d hp
    refine fun hsec => ⟨⟨by rw [h.files]; exact hsec.known, fun t ht => ?_⟩, h.file_eq id⟩
    rcases h.node t with hn | ⟨-, ⟨t', hd⟩, -⟩ | ⟨-, ⟨t', hd⟩, -⟩
    · exact route?_mono h.keepsDirectories (hsec.route t (hn ▸ ht))
    · cases ht.symm.trans hd
    · cases ht.symm.trans hd

/-- What happens at another route leaves a secluded file. -/
private theorem keepsSecluded_of_changesOnly (h : ChangesOnly r fs fs') (hne : fs.node? r ≠ some (.file id)) :
    KeepsSecluded d id fs fs' := by
  refine fun hsec => ⟨⟨Nat.lt_of_lt_of_le hsec.known h.files, fun t ht => ?_⟩, h.file id hsec.known hne⟩
  rw [h.route?_eq]
  refine hsec.route t ?_
  by_cases htr : t = r
  · subst htr
    rcases h.same id ht with hn | hnew
    · exact hn
    · exact absurd hsec.known (Nat.not_lt.2 hnew)
  · rcases h.node t htr with hn | ⟨-, -, t', hd⟩
    · rw [← hn, ht]
    · cases ht.symm.trans hd

private theorem keepsSecluded_staged {b : Builder} {m : Metadata} {program : σ → Script σ} {u u' : σ}
    {s : Arena.State} {result : Except Artifact.Error (Nat × Nat)}
    (h : b.staged d m (Script.writer program) fs u = (result, s, u')) : KeepsSecluded d id fs s.fs := by
  intro hsec
  -- if the staging path leads nowhere then any route may be said to change, and one serves that is not the file's
  obtain ⟨r, hr, hne⟩ : ∃ r, (∀ t, fs.route? (stagingPath d) = some t → t = r) ∧ fs.node? r ≠ some (.file id) := by
    cases hs : fs.route? (stagingPath d) with
    | some t =>
      refine ⟨t, fun _ h => (Option.some.inj h).symm, fun hn => ?_⟩
      exact route?_stagingPath_ne fs d t hs (hsec.route t hn)
    | none =>
      by_cases hroot : fs.node? [] = some (.file id)
      · refine ⟨[[]], nofun, fun hn => ?_⟩
        cases fs.unique _ _ id hroot hn
      · exact ⟨[], nofun, hroot⟩
  exact keepsSecluded_of_changesOnly (staged_changes h hr).2 hne hsec

private theorem keepsSecluded_rename (h : fs.rename (stagingPath d) d = .ok fs') : KeepsSecluded d id fs fs' := by
  intro hsec
  obtain ⟨src, dst, staged, hsrc, hdst, hren, -⟩ := Renamed.of_rename h (route?_stagingPath_ne fs d)
  have hne : staged ≠ id := by
    rintro rfl
    exact route?_stagingPath_ne fs d src hsrc (hsec.route src hren.source)
  refine ⟨⟨by rw [hren.files]; exact hsec.known, fun t ht => ?_⟩, by unfold file; rw [hren.files]⟩
  rw [hren.route?_eq]
  by_cases hs : t = src
  · subst hs
    cases ht.symm.trans hren.gone
  by_cases hd : t = dst
  · rw [hd]
    exact hdst
  rcases hren.node t hs hd with hn | ⟨-, -, t', hdir⟩
  · exact hsec.route t (hn ▸ ht)
  · cases ht.symm.trans hdir

/-- A build leaves every file that no path leads to but its destination. -/
theorem build_keepsSecluded (b : Builder) (d : Path) (m : Metadata) (program : σ → Script σ) (fs : FileSystem) (u : σ)
    (id : Nat) : KeepsSecluded d id fs (b.build d m (Script.writer program) fs u).2.1 :=
  build_steps .trans keepsSecluded_makeParent keepsSecluded_staged keepsSecluded_rename fs u

end Builder

/-! ### Opening -/

/-- A handle has the whole of a file mapped, and all of it is allocated if it is mapped for reading. -/
structure Arena.HasWhole (a : Arena) (fs : FileSystem) (m : Mapping) : Prop where
  mapping : a.mapping = some m
  length_eq : m.length = (fs.file m.file).content.size
  size_eq : m.mode = .readOnly → a.size = m.length

/-- All of a file that is mapped for reading can be read. -/
theorem Arena.HasWhole.contents {a : Arena} {fs : FileSystem} {m : Mapping} (h : a.HasWhole fs m)
    (hm : m.mode = .readOnly) : State.contents ⟨fs, a⟩ = .ok (fs.file m.file).content.toList := by
  have hopen : a.isOpen = true := by
    unfold isOpen
    rw [h.mapping]
    rfl
  unfold State.contents State.bytes Content.toList
  simp only [hopen, if_true, h.mapping, h.size_eq hm, h.length_eq]

/-- The ways to open what is at a path. -/
inductive Opening where
  | toRead
  | toWrite
  | artifact

namespace Opening

/-- The handle that a call has opened, and the files that it leaves. -/
def handle : EStateM.Result Arena.Error Arena.State Unit → Option Arena × FileSystem
  | .ok _ s => (some s.arena, s.fs)
  | .error _ s => (none, s.fs)

/-- The handle that is opened, if one is, and the files that are left. -/
def run (fs : FileSystem) (p : Path) : Opening → Option Arena × FileSystem
  | .toRead => handle (Arena.openToRead ⟨fs, .closed p⟩)
  | .toWrite => handle (Arena.openToWrite ⟨fs, .closed p⟩)
  | .artifact => ((Artifact.load fs p).toOption.map Artifact.arena, fs)

variable {fs : FileSystem} {p : Path}

/-- What opening a file answers, and the files that it leaves as they were: no handle, or one that has the whole file
mapped to which the path leads. -/
private def Opens (fs : FileSystem) (p : Path) (opened : Option Arena × FileSystem) : Prop :=
  opened.2 = fs ∧ ∀ a, opened.1 = some a → ∃ r m, fs.stat p = .ok (r, .file m.file) ∧ a.HasWhole fs m

private theorem opens_none : Opens fs p (none, fs) := ⟨rfl, nofun⟩

private theorem opens_some {r : Route} {a : Arena} {m : Arena.Mapping} (hs : fs.stat p = .ok (r, .file m.file))
    (ha : a.HasWhole fs m) : Opens fs p (some a, fs) := by
  refine ⟨rfl, fun a' ha' => ?_⟩
  cases ha'
  exact ⟨r, m, hs, ha⟩

private theorem opens_openToRead (s : Arena.State) : Opens s.fs s.arena.path (handle (Arena.openToRead s)) := by
  unfold Arena.openToRead
  rw [bind_apply, Arena.assertExists_apply]
  by_cases hex : s.fs.pathExists s.arena.path = true
  · rw [if_pos hex]
    dsimp only
    rw [bind_apply, Arena.map_readOnly_apply]
    rcases hopen : s.fs.openToRead s.arena.path with e | (id | t)
    · exact opens_none
    · obtain ⟨r, hs⟩ := openToRead_eq_ok.1 hopen
      exact opens_some (m := ⟨.readOnly, id, (s.fs.file id).content.size⟩) hs ⟨rfl, rfl, fun _ => rfl⟩
    · exact opens_none
  · rw [if_neg hex]
    exact opens_none

private theorem opens_openToWrite (s : Arena.State) : Opens s.fs s.arena.path (handle (Arena.openToWrite s)) := by
  unfold Arena.openToWrite
  rw [bind_apply, Arena.assertExists_apply]
  by_cases hex : s.fs.pathExists s.arena.path = true
  · rw [if_pos hex]
    dsimp only
    rw [Arena.map_readWrite_apply]
    cases hopen : s.fs.openToWrite s.arena.path with
    | error e => exact opens_none
    | ok id =>
      obtain ⟨r, hs⟩ := openToWrite_eq_ok.1 hopen
      exact opens_some (m := ⟨.readWrite, id, (s.fs.file id).content.size⟩) hs ⟨rfl, rfl, nofun⟩
  · rw [if_neg hex]
    exact opens_none

private theorem arena_of_ofMapped {s : Arena.State} {a : Artifact} (h : Artifact.ofMapped s = .ok a) :
    a.arena = s.arena := by
  unfold Artifact.ofMapped at h
  split at h
  · cases h
  split at h
  · cases h
  split at h
  · cases h
  split at h
  · cases h
  · cases h
    rfl

private theorem opens_load (fs : FileSystem) (p : Path) :
    Opens fs p ((Artifact.load fs p).toOption.map Artifact.arena, fs) := by
  have hopens := opens_openToRead ⟨fs, .closed p⟩
  refine ⟨rfl, fun a ha => hopens.2 a ?_⟩
  cases hload : Artifact.load fs p with
  | error e => rw [hload] at ha; cases ha
  | ok artifact =>
    rw [hload] at ha
    cases ha
    unfold Artifact.load at hload
    split at hload
    · cases hload
    · next s hrun =>
      change Arena.openToRead ⟨fs, .closed p⟩ = .ok () s at hrun
      rw [hrun, arena_of_ofMapped hload]
      rfl

theorem run_opens (fs : FileSystem) (p : Path) (way : Opening) :
    (way.run fs p).2 = fs ∧
      ∀ a, (way.run fs p).1 = some a → ∃ r m, fs.stat p = .ok (r, .file m.file) ∧ a.HasWhole fs m := by
  cases way with
  | toRead => exact opens_openToRead ⟨fs, .closed p⟩
  | toWrite => exact opens_openToWrite ⟨fs, .closed p⟩
  | artifact => exact opens_load fs p

end Opening

namespace Build

variable {d : Path} {start fs : FileSystem} {a : Arena}

/-! ### Builds that are asked for -/

/-- A build: its sizes, its metadata, and its writer with the state that this starts from. -/
structure Request where
  {σ : Type}
  builder : Builder
  metadata : Metadata
  program : σ → Script σ
  state : σ

/-- A build that has succeeded, with the files as it left them. -/
structure Published where
  request : Request
  outcome : Outcome
  fs : FileSystem

def Request.run (q : Request) (d : Path) (fs : FileSystem) : Except Artifact.Error Outcome × FileSystem :=
  let built := q.builder.build d q.metadata (Script.writer q.program) fs q.state
  (built.1, built.2.1)

/-- All that a build stores is in a file: the header, what a run of the writer noted, and the metadata. -/
def Request.Fills (q : Request) (content : Content) : Prop :=
  ∃ u s s' root w block, ((q.program u).noting []).run s = (.ok root, s', w) ∧
    (Artifact.blocks q.builder.payloadKind q.metadata w.2.root block w.2.ledger).WrittenIn content

/-- A build came to its outcome and left the files, from some files before it. -/
def Published.Came (p : Published) (d : Path) : Prop := ∃ fs, p.request.run d fs = (.ok p.outcome, p.fs)

private theorem Published.Came.build {p : Published} (h : p.Came d) :
    ∃ fs u', p.request.builder.build d p.request.metadata (Script.writer p.request.program) fs p.request.state =
      (.ok p.outcome, p.fs, u') := by
  obtain ⟨fs, hrun⟩ := h
  obtain ⟨hok, hfs⟩ := Prod.mk.inj hrun
  exact ⟨fs, _, Prod.ext hok (Prod.ext hfs rfl)⟩

/-- A build leaves at its destination a file of the size that it answers, with all that it stores in it if its writer
keeps to what it has allocated. -/
theorem Published.Came.file {p : Published} (h : p.Came d) :
    ∃ r id, p.fs.stat d = .ok (r, .file id) ∧ (p.fs.file id).content.size = p.outcome.size ∧
      ((∀ u, (p.request.program u).Confined []) → p.request.Fills (p.fs.file id).content) := by
  obtain ⟨fs, u', hbuild⟩ := h.build
  obtain ⟨s, id, src, dst, -, -, hstat, -, hsize⟩ := (Builder.Replaced.of_build hbuild).moved
  refine ⟨dst, id, hstat, hsize, fun hc => ?_⟩
  obtain ⟨v, s, s', root, w, block, dst', id', hrun, hstat', hin⟩ := Builder.build_writes hc hbuild
  cases hstat.symm.trans hstat'
  exact ⟨v, s, s', root, w, block, hrun, hin⟩

/-- A file is the one that a build left at its destination, and as the build left it. -/
structure Published.Left (p : Published) (d : Path) (fs : FileSystem) (id : Nat) : Prop where
  came : p.Came d
  placed : ∃ r, p.fs.stat d = .ok (r, .file id)
  file_eq : fs.file id = p.fs.file id
  size_eq : (fs.file id).content.size = p.outcome.size
  fills : (∀ u, (p.request.program u).Confined []) → p.request.Fills (fs.file id).content

/-! ### Handles beside builds -/

/-- A handle has a file mapped that has no name but the destination's. -/
def Attached (d : Path) (fs : FileSystem) (a : Arena) : Prop :=
  ∃ m, a.mapping = some m ∧ Builder.Secluded d fs m.file

theorem attached_of_stat {r : Route} {m : Arena.Mapping} (hs : fs.stat d = .ok (r, .file m.file))
    (hm : a.mapping = some m) : Attached d fs a := ⟨m, hm, .of_stat hs⟩

/-- Whatever a build comes to, a handle goes on answering what it answered. -/
theorem Attached.build (h : Attached d fs a) (q : Request) :
    Attached d (q.run d fs).2 a ∧ a.SameAnswers fs (q.run d fs).2 := by
  obtain ⟨m, hm, hsec⟩ := h
  obtain ⟨hsec', hfile⟩ :=
    Builder.build_keepsSecluded q.builder d q.metadata q.program fs q.state m.file hsec
  exact ⟨⟨m, hm, hsec'⟩, Arena.sameAnswers_of_file hm hfile⟩

/-! ### Sessions -/

/-- A session on a destination: the files, the handles that have been opened, and the last build that succeeded. -/
structure Session where
  fs : FileSystem
  readers : List Arena
  last : Option Published

/-- What happens in a session: a build is run on its destination, or the destination is opened. -/
inductive Event where
  | build (q : Request)
  | opening (way : Opening)

namespace Session

/-- The session after a build.  One that fails leaves its files behind, too. -/
def afterBuild (d : Path) (s : Session) (q : Request) : Session :=
  match q.run d s.fs with
  | (.ok outcome, fs) => ⟨fs, s.readers, some ⟨q, outcome, fs⟩⟩
  | (.error _, fs) => { s with fs }

/-- The session after the destination was opened, or could not be. -/
def afterOpening (d : Path) (s : Session) (way : Opening) : Session :=
  match way.run s.fs d with
  | (some a, fs) => ⟨fs, a :: s.readers, s.last⟩
  | (none, fs) => { s with fs }

def next (d : Path) (s : Session) : Event → Session
  | .build q => s.afterBuild d q
  | .opening way => s.afterOpening d way

def run (d : Path) (s : Session) (events : List Event) : Session := events.foldl (next d) s

variable {s s₁ s₂ : Session}

/-- The files as the last build left them that succeeded, or as they were at the start. -/
def base (start : FileSystem) (s : Session) : FileSystem :=
  match s.last with
  | some p => p.fs
  | none => start

/-- What holds at every point of a session: no build can reach the file that a handle has mapped, and but for the
staging file, the files are as the last build left them that succeeded. -/
structure Sound (d : Path) (start : FileSystem) (s : Session) : Prop where
  attached : ∀ a ∈ s.readers, Attached d s.fs a
  kept : KeepsFiles (fun r => s.fs.route? (Builder.stagingPath d) ≠ some r) (s.base start) s.fs
  came : ∀ p, s.last = some p → p.Came d

/-- Every handle is there still, and answers what it answered. -/
def Keeps (s s' : Session) : Prop := ∀ a ∈ s.readers, a ∈ s'.readers ∧ a.SameAnswers s.fs s'.fs

theorem Keeps.refl (s : Session) : s.Keeps s := fun a ha => ⟨ha, .refl a s.fs⟩

theorem Keeps.trans (h : s.Keeps s₁) (h' : s₁.Keeps s₂) : s.Keeps s₂ := by
  intro a ha
  obtain ⟨ha₁, hsame₁⟩ := h a ha
  obtain ⟨ha₂, hsame₂⟩ := h' a ha₁
  exact ⟨ha₂, hsame₁.trans hsame₂⟩

theorem sound_start {readers : List Arena} (h : ∀ a ∈ readers, Attached d start a) :
    Sound d start ⟨start, readers, none⟩ where
  attached := h
  kept := .refl _ start
  came _ hp := by cases hp

/-! ### One event -/

theorem afterBuild_of_ok {q : Request} {outcome : Outcome} (h : (q.run d s.fs).1 = .ok outcome) :
    s.afterBuild d q = ⟨(q.run d s.fs).2, s.readers, some ⟨q, outcome, (q.run d s.fs).2⟩⟩ := by
  unfold Session.afterBuild
  split
  · next hrun =>
    rw [hrun] at h ⊢
    cases h
    rfl
  · next hrun =>
    rw [hrun] at h
    cases h

theorem afterBuild_of_error {q : Request} {e : Artifact.Error} (h : (q.run d s.fs).1 = .error e) :
    s.afterBuild d q = { s with fs := (q.run d s.fs).2 } := by
  unfold Session.afterBuild
  split
  · next hrun =>
    rw [hrun] at h
    cases h
  · next hrun => rw [hrun]

private theorem Sound.kept_of_error (h : s.Sound d start) {q : Request} {e : Artifact.Error}
    (he : (q.run d s.fs).1 = .error e) :
    KeepsFiles (fun r => (q.run d s.fs).2.route? (Builder.stagingPath d) ≠ some r) (s.base start) (q.run d s.fs).2 := by
  have hbuild := Builder.build_keepsFiles q.builder d q.metadata q.program s.fs q.state
  change (q.builder.build d q.metadata (Script.writer q.program) s.fs q.state).1 = _ at he
  rw [he] at hbuild
  -- the staging path leads at least where it led before
  refine (h.kept.mono fun r hr hbefore => ?_).trans (hbuild.mono fun r hr => ⟨hr, .inr ⟨e, rfl⟩⟩)
  exact hr (route?_mono hbuild.toKeepsDirectories hbefore)

private theorem Sound.afterBuild (h : s.Sound d start) (q : Request) :
    (s.afterBuild d q).Sound d start ∧ s.Keeps (s.afterBuild d q) := by
  have hreaders (a) (ha : a ∈ s.readers) := (h.attached a ha).build q
  cases hrun : (q.run d s.fs).1 with
  | error e =>
    rw [afterBuild_of_error hrun]
    refine ⟨⟨fun a ha => (hreaders a ha).1, h.kept_of_error hrun, h.came⟩, fun a ha => ?_⟩
    exact ⟨ha, (hreaders a ha).2⟩
  | ok outcome =>
    rw [afterBuild_of_ok hrun]
    refine ⟨⟨fun a ha => (hreaders a ha).1, .refl _ _, fun p hp => ?_⟩, fun a ha => ⟨ha, (hreaders a ha).2⟩⟩
    cases hp
    exact ⟨s.fs, Prod.ext hrun rfl⟩

private theorem Sound.afterOpening (h : s.Sound d start) (way : Opening) :
    (s.afterOpening d way).Sound d start ∧ s.Keeps (s.afterOpening d way) := by
  obtain ⟨hfs, hopened⟩ := way.run_opens s.fs d
  unfold Session.afterOpening
  rcases hrun : way.run s.fs d with ⟨_ | a, fs⟩ <;> rw [hrun] at hfs hopened <;> cases hfs
  · exact ⟨⟨h.attached, h.kept, h.came⟩, .refl s⟩
  · obtain ⟨r, m, hs, hwhole⟩ := hopened a rfl
    have ha : Attached d s.fs a := attached_of_stat hs hwhole.mapping
    refine ⟨⟨List.forall_mem_cons.2 ⟨ha, h.attached⟩, h.kept, h.came⟩, fun a' ha' => ?_⟩
    exact ⟨List.mem_cons_of_mem a ha', .refl a' s.fs⟩

theorem Sound.next (h : s.Sound d start) (e : Event) : (s.next d e).Sound d start ∧ s.Keeps (s.next d e) := by
  cases e with
  | build q => exact h.afterBuild q
  | opening way => exact h.afterOpening way

/-! ### Whole sessions -/

theorem Sound.run (h : s.Sound d start) (events : List Event) :
    (s.run d events).Sound d start ∧ s.Keeps (s.run d events) := by
  induction events generalizing s with
  | nil => exact ⟨h, .refl s⟩
  | cons e events ih =>
    obtain ⟨hnext, hkeeps⟩ := h.next e
    obtain ⟨hrun, hkeeps'⟩ := ih hnext
    exact ⟨hrun, hkeeps.trans hkeeps'⟩

/-- What a session shows at its destination: the file that the last build left that succeeded, or, before there was
one, a file that was there at the start. -/
structure Shows (d : Path) (start : FileSystem) (s : Session) (id : Nat) : Prop where
  original : s.last = none →
    ∃ r, s.fs.route? d = some r ∧ start.node? r = some (.file id) ∧ s.fs.file id = start.file id
  left : ∀ p, s.last = some p → p.Left d s.fs id

theorem Sound.shows (h : s.Sound d start) {r : Route} {id : Nat} (hs : s.fs.stat d = .ok (r, .file id)) :
    s.Shows d start id := by
  obtain ⟨hr, hn⟩ := route?_of_stat hs
  have hkept : s.fs.route? (Builder.stagingPath d) ≠ some r := fun hr' => Builder.route?_stagingPath_ne s.fs d r hr' hr
  have hbase := (h.kept.node r hkept id).1 hn
  have hfile := h.kept.file r hkept id hbase
  refine ⟨fun hnone => ?_, fun p hp => ?_⟩
  · unfold base at hbase hfile
    rw [hnone] at hbase hfile
    exact ⟨r, hr, hbase, hfile⟩
  · obtain ⟨r', id', hstat, hsize, hfills⟩ := (h.came p hp).file
    have hkeeps := h.kept.toKeepsDirectories
    unfold base at hbase hfile hkeeps
    rw [hp] at hbase hfile hkeeps
    -- the destination still leads to the route at which the build left its file
    obtain ⟨hr', hn'⟩ := route?_of_stat hstat
    cases hr.symm.trans (route?_mono hkeeps hr')
    cases hbase.symm.trans hn'
    exact ⟨h.came p hp, ⟨r, hstat⟩, hfile, by rw [hfile]; exact hsize, by rw [hfile]; exact hfills⟩

/-- Handles go on answering what they answered, however many builds are run on the file that they have mapped, and
whatever these come to.  A handle that is opened in between has the whole file of one build mapped, the last that
succeeded, or the file that was there at the start. -/
theorem readers_keep_snapshot (d : Path) (fs : FileSystem) (readers : List Arena)
    (hreaders : ∀ a ∈ readers, ∃ r m, fs.stat d = .ok (r, .file m.file) ∧ a.mapping = some m)
    (before after : List Event) :
    let s := (Session.mk fs readers none).run d before
    let s' := s.run d after
    (∀ a ∈ s.readers, a ∈ s'.readers ∧ a.SameAnswers s.fs s'.fs) ∧
      ∀ way a, (Opening.run s.fs d way).1 = some a →
        ∃ m, a.HasWhole s.fs m ∧ s.Shows d fs m.file ∧
          (m.mode = .readOnly → Arena.State.contents ⟨s.fs, a⟩ = .ok (s.fs.file m.file).content.toList) := by
  intro s s'
  have hstart : ∀ a ∈ readers, Attached d fs a := by
    intro a ha
    obtain ⟨r, m, hs, hm⟩ := hreaders a ha
    exact attached_of_stat hs hm
  obtain ⟨hsound, -⟩ := (sound_start hstart).run before
  refine ⟨(hsound.run after).2, fun way a ha => ?_⟩
  obtain ⟨r, m, hs, hwhole⟩ := (way.run_opens s.fs d).2 a ha
  exact ⟨m, hwhole, hsound.shows hs, hwhole.contents⟩

/-- A build of a text that succeeds at its second attempt. -/
def writtenRequest : Request :=
  ⟨.ofSizes 64 2 4096 7, default, Builder.writtenText, ()⟩

/-- A build whose writer gives up. -/
def refusedRequest : Request :=
  ⟨.ofSizes 64 2 4096 7, default, fun _ : Unit => .finish (.error (.unwritable "no")) (), ()⟩

/-- The file that was there at the start is still read after three builds, and the file of the one that succeeded is
opened after the one that failed behind it. -/
theorem snapshot_beside_three_builds :
    let d : Path := .ofString "a"
    let fs : FileSystem := (bare ⟨0⟩).addFile [[97]] ⟨.ofList [118, 49], ⟨5⟩⟩
    let a : Arena := ⟨d, some ⟨.readOnly, 0, 2⟩, 2⟩
    let s := (Session.mk fs [a] none).run d [.build refusedRequest, .build writtenRequest, .build refusedRequest]
    fs.stat d = .ok ([[97]], .file 0) ∧ a ∈ s.readers ∧ Arena.State.contents ⟨s.fs, a⟩ = .ok [118, 49] ∧
      ∃ a' m, (Opening.artifact.run s.fs d).1 = some a' ∧ a'.HasWhole s.fs m ∧ m.length = 71 ∧
        writtenRequest.Fills (s.fs.file m.file).content := by
  intro d fs a s
  have hstat : fs.stat d = .ok ([[97]], .file 0) := by decide +kernel
  have hreaders : ∀ a' ∈ [a], ∃ r m, fs.stat d = .ok (r, .file m.file) ∧ a'.mapping = some m :=
    List.forall_mem_singleton.2 ⟨[[97]], ⟨.readOnly, 0, 2⟩, hstat, rfl⟩
  obtain ⟨hkept, -⟩ := readers_keep_snapshot d fs [a] hreaders []
    [.build refusedRequest, .build writtenRequest, .build refusedRequest]
  obtain ⟨hmem, hsame⟩ := hkept a (List.mem_singleton.2 rfl)
  have hcontents : Arena.State.contents ⟨fs, a⟩ = .ok [118, 49] := by decide +kernel
  obtain ⟨-, hopened⟩ := readers_keep_snapshot d fs [a] hreaders
    [.build refusedRequest, .build writtenRequest, .build refusedRequest] []
  obtain ⟨a', ha'⟩ : ∃ a', (Opening.artifact.run s.fs d).1 = some a' := Option.isSome_iff_exists.1 (by decide +kernel)
  obtain ⟨m, hwhole, hshows, -⟩ := hopened .artifact a' ha'
  -- the last build fails, and the one before it succeeds
  let s₁ := (Session.mk fs [a] none).afterBuild d refusedRequest
  have hok : (writtenRequest.run d s₁.fs).1 = .ok ⟨d, 71, 2⟩ := by decide +kernel
  have herror : (refusedRequest.run d (s₁.afterBuild d writtenRequest).fs).1 = .error (.unwritable "no") := by
    decide +kernel
  have hlast : s.last = some ⟨writtenRequest, ⟨d, 71, 2⟩, (writtenRequest.run d s₁.fs).2⟩ := by
    show ((s₁.afterBuild d writtenRequest).afterBuild d refusedRequest).last = _
    rw [afterBuild_of_error herror, afterBuild_of_ok hok]
  have hleft := hshows.left _ hlast
  exact ⟨hstat, hmem, hsame.contents.trans hcontents, a', m, ha', hwhole, hwhole.length_eq.trans hleft.size_eq,
    hleft.fills Builder.confined_writtenText⟩

end Session

end Build

end Bindery
