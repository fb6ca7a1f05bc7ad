import Bindery.Proofs.CommandLine.Build
import Bindery.Proofs.Freshness.Completeness

/-!
# Plans and their sources

A source that is located is a file that is there, and is loaded (`Source.locate_eq_some`); one that is not found has no
path.  So the table that a plan's sources are compiled into is one of ids and texts: those of the plan's ids that are
found as plain text, in their order (`Plan.entries_job`).
-/

namespace Bindery

open FileSystem

variable {fs : FileSystem} {p : Path}

/-! ### Located sources -/

namespace Source

variable {resolver : Resolver} {id : String}

theorem locate_eq_some (h : (locate fs resolver id).path = some p) :
    locate fs resolver id = ⟨id, some p, true⟩ ∧ fs.isFile p = true := by
  unfold locate at h ⊢
  dsimp only at h ⊢
  split at h
  · next hf =>
    cases h
    rw [if_pos hf]
    exact ⟨rfl, hf⟩
  · cases h

/-- Nothing is under the first root. -/
example :
    let fs := (bare ⟨0⟩).addFile [Text.encode "luna.txt"] ⟨.ofList (Text.encode "v1"), ⟨0⟩⟩
    let locator : FallbackLocator := ⟨⟨⟨"dict", "", ".txt"⟩, .ofString "a"⟩, some (.ofString ".")⟩
    locate fs (.fallback locator) "luna" = ⟨"luna", some (.ofString "./luna.txt"), true⟩ := by
  decide +kernel

theorem locate_eq_none (h : (locate fs resolver id).path = none) : locate fs resolver id = ⟨id, none, false⟩ := by
  unfold locate at h ⊢
  dsimp only at h ⊢
  split at h
  · cases h
  · next hf => rw [if_neg hf]

@[simp] theorem id_locate (fs : FileSystem) (resolver : Resolver) (id : String) : (locate fs resolver id).id = id := by
  unfold locate
  dsimp only
  split <;> rfl

end Source

namespace CommandLine

variable {i : Invocation} {kind : String} {ids : List String} {output : Option String} {plan : Plan}

/-! ### Plans -/

namespace Plan

/-- Where the source of an id is found. -/
def located? (p : Plan) (fs : FileSystem) (id : String) : Option Path :=
  (Source.locate fs (.fallback p.locator) id).path

/-- The text of the source of an id, if it is found and is plain text. -/
def text? (p : Plan) (fs : FileSystem) (id : String) : Option String := (p.located? fs id).bind fs.plainText?

/-- The string table of ids: those that have a text, with it, in the order of the ids. -/
def table (p : Plan) (fs : FileSystem) (ids : List String) : List StringTable.Entry :=
  ids.filterMap fun id => (p.text? fs id).map (id, ·)

theorem text?_locate (p : Plan) (fs : FileSystem) (id : String) :
    (Source.locate fs (.fallback p.locator) id).text? fs = p.text? fs id := by
  unfold text? located?
  cases hp : (Source.locate fs (.fallback p.locator) id).path with
  | none => rw [Source.locate_eq_none hp]; rfl
  | some path => rw [(Source.locate_eq_some hp).1]; rfl

theorem entries_job (p : Plan) (fs : FileSystem) : (p.job fs).entries fs = p.table fs p.ids := by
  unfold Job.entries Plan.job table
  rw [List.filterMap_map]
  congr 1
  funext id
  simp only [Function.comp_apply, text?_locate, Source.id_locate]

/-- The sources of a plan, by a record of those of another, which were read: the ids are the same, and the source of
each agrees with the stamp that it had. -/
theorem isFresh_record_iff {t₁ t₂ : Tracker} {plan₁ plan₂ : Plan} {fs₁ fs₂ : FileSystem} :
    t₂.isFresh fs₂ (t₁.record fs₁ ((plan₁.job fs₁).sourcesRead fs₁)) (plan₂.job fs₂).sources = true ↔
      (∀ id, id ∈ plan₁.ids ↔ id ∈ plan₂.ids) ∧
        (∀ id ∈ plan₂.ids, t₂.staleness? fs₂
          (((Source.locate fs₁ (.fallback plan₁.locator) id).afterReading fs₁).stamp fs₁)
          (Source.locate fs₂ (.fallback plan₂.locator) id) = none) ∧
        Version.order t₁.engineVersion t₂.engineVersion ≠ .gt := by
  have hread : (plan₁.job fs₁).sourcesRead fs₁ =
      plan₁.ids.map (Source.afterReading fs₁ ∘ Source.locate fs₁ (.fallback plan₁.locator)) := List.map_map
  rw [hread]
  exact Tracker.isFresh_record_map_iff (fun id => Source.id_locate fs₁ _ id) (fun id => Source.id_locate fs₂ _ id)

theorem ids_make (h : Plan.make fs i.configuration kind ids output = .ok plan) : plan.ids = ids := by
  unfold Plan.make at h
  cases hd : configurationDirectory fs i.configuration with
  | error e => rw [hd] at h; cases h
  | ok dir =>
    cases hl : (Configuration.load fs dir).mapError Failure.configuration with
    | error e => simp [hd, hl, bind, Except.bind] at h
    | ok c =>
      cases hk : (c.locator kind).mapError Failure.configuration with
      | error e => simp [hd, hl, hk, bind, Except.bind] at h
      | ok locator =>
        cases ha : artifactPath c kind ids output with
        | error e => simp [hd, hl, hk, ha, bind, Except.bind] at h
        | ok artifact =>
          simp only [hd, hl, hk, ha, bind, Except.bind, pure, Except.pure] at h
          cases h
          rfl

end Plan

/-- A build that compiles and succeeds leaves the table of its ids. -/
theorem table_of_runBuild {time : String} {force : Bool}
    (hplan : Plan.make fs i.configuration kind ids output = .ok plan) (h : Compiles plan fs force)
    (hexit : (runBuild fs time i kind ids output force).exitCode = 0) :
    StringTable.StoredAt (runBuild fs time i kind ids output force).fs plan.artifact (plan.table fs ids) := by
  obtain ⟨o, hcompile⟩ := compile_of_runBuild hplan h hexit
  have htable := (Job.compiledAt_of_compile hcompile).table
  rwa [Plan.entries_job, Plan.ids_make hplan] at htable

end CommandLine

end Bindery
