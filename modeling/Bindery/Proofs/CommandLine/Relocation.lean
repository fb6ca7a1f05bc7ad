import Bindery.Proofs.CommandLine.Sources
import Bindery.Proofs.FileSystem.Upwards
import Bindery.Proofs.Locator.Fallback

/-!
# What a build is made of is found again

Where configurations are kept, the one that was loaded is found again and is the same: a configuration that is named,
by itself or by its directory, as well as the nearest one upwards (`configurationDirectory_eq`).  With it, all that is
planned is planned again (`Plan.make_eq`).  An id is located at the same path if its two candidate paths lead to kept
files at most, and to nothing new (`Source.locate_eq`).
-/

namespace Bindery

open FileSystem

variable {fs fs' : FileSystem} {kept : Route → Prop} {dir : Path} {text : String}

namespace Configuration

/-- The name of a configuration's file, as directories hold it. -/
def fileBytes : Name := Text.encode fileName

theorem locate_fileIn {spot : Spot} :
    fs.locate (fileIn dir) = .ok spot ↔
      (0 ∉ (fileIn dir).bytes ∧ (fileIn dir).isEmpty = false ∧ (fileIn dir).bytes.length < pathLimit) ∧
        ∃ r, fs.walk (fs.startOf dir) (stepsOf dir) = .ok r ∧ spot = .entry r fileBytes false := by
  have hrel : (Path.ofString fileName).isAbsolute = false := by decide
  have hsteps : stepsOf (fileIn dir) = stepsOf dir ++ [fileBytes] := by
    unfold fileIn
    rw [stepsOf_join hrel]
    exact congrArg _ (by decide)
  have hstart : fs.startOf (fileIn dir) = fs.startOf dir := startOf_join hrel
  have hspot (r : Route) : spotAt r fileBytes ((fileIn dir).bytes.getLast? = some Path.slash) =
      .entry r fileBytes false := by
    have hlast : (fileIn dir).bytes.getLast? = fileBytes.getLast? := by
      unfold fileIn Path.join
      rw [if_neg (by simp [hrel])]
      split
      · exact List.getLast?_append_of_ne_nil _ (by decide)
      · rw [List.getLast?_append_of_ne_nil _ (List.cons_ne_nil _ _)]
        decide
    rw [hlast]
    rfl
  rw [locate_eq_ok, hsteps, hstart]
  constructor
  · rintro ⟨h0, h1, h2, ⟨hnil, -⟩ | ⟨before, last, r, hs, hw, rfl⟩⟩
    · simp at hnil
    · obtain ⟨rfl, hl⟩ := List.append_inj' hs rfl
      obtain rfl : fileBytes = last := by simpa using hl
      exact ⟨⟨h0, h1, h2⟩, r, hw, hspot r⟩
  · rintro ⟨⟨h0, h1, h2⟩, r, hw, rfl⟩
    exact ⟨h0, h1, h2, .inr ⟨_, _, r, rfl, hw, (hspot r).symm⟩⟩

/-! ### Configurations -/

section

variable (hk : KeepsFiles kept fs fs') (hkept : ∀ r, kept (r ++ [fileBytes]))

include hk hkept

/-- A configuration is the same where its file is kept. -/
theorem sameFile {r : Route} {id : Nat} (h : fs.stat (fileIn dir) = .ok (r, .file id)) :
    SameFile fs fs' (fileIn dir) := by
  obtain ⟨spot, hl, rfl, -⟩ := stat_eq_ok.1 h
  obtain ⟨-, r, -, rfl⟩ := locate_fileIn.1 hl
  exact hk.sameFile h (hkept r)

/-- In the directories from the working one upwards no configuration comes to be. -/
private theorem isFile_eq (hwd : fs.HasWorkingDirectory) (hdir : dir ∈ fs.workingPath.ancestors) :
    fs'.isFile (fileIn dir) = fs.isFile (fileIn dir) := by
  rw [Bool.eq_iff_iff]
  constructor
  · intro h
    obtain ⟨r, id, hs⟩ := isFile_eq_true.1 h
    obtain ⟨spot, hl, rfl, ha, hn⟩ := stat_eq_ok.1 hs
    obtain ⟨hbytes, r, hw, rfl⟩ := locate_fileIn.1 hl
    obtain ⟨habs, hpre⟩ := mem_ancestors (p := fs.workingPath) rfl hdir
    have hstart (fs : FileSystem) : fs.startOf dir = [] := by unfold startOf; rw [if_pos habs]
    rw [hwd.stepsOf_workingPath] at hpre
    rw [hstart] at hw
    have hw' := hwd.walk_of_walk hpre hw
    rw [← hstart fs] at hw'
    have hl' := locate_fileIn.2 ⟨hbytes, r, hw', rfl⟩
    exact isFile_eq_true.2 ⟨_, id, stat_eq_ok.2 ⟨_, hl', rfl, ha, (hk.node _ (hkept r) id).1 hn⟩⟩
  · intro h
    obtain ⟨r, id, hs⟩ := isFile_eq_true.1 h
    obtain ⟨r', id', -, hs', -⟩ := sameFile hk hkept hs
    exact isFile_eq_true.2 ⟨r', id', hs'⟩

theorem findDirectory?_eq (hwd : fs.HasWorkingDirectory) :
    findDirectory? fs' fs'.workingPath = findDirectory? fs fs.workingPath := by
  have hpath : fs'.workingPath = fs.workingPath := by unfold workingPath; rw [hk.workingDirectory]
  unfold findDirectory?
  rw [hpath, ← List.head?_filter, ← List.head?_filter,
    List.filter_congr fun dir hdir => isFile_eq hk hkept hwd hdir]

theorem load_eq {c : Configuration} (h : load fs dir = .ok c) :
    load fs' dir = .ok c ∧ ∃ r id, fs.stat (fileIn dir) = .ok (r, .file id) := by
  unfold load at h ⊢
  cases ht : fs.readText (fileIn dir) with
  | error fault => rw [ht] at h; cases h
  | ok text =>
    obtain ⟨r, id, hs⟩ : ∃ r id, fs.stat (fileIn dir) = .ok (r, .file id) := by
      unfold readText at ht
      cases hr : fs.read (fileIn dir) with
      | error fault => rw [hr] at ht; cases ht
      | ok bytes =>
        obtain ⟨r, id, hs, -⟩ := read_eq_ok.1 hr
        exact ⟨r, id, hs⟩
    rw [(sameFile hk hkept hs).readText_eq, ht]
    rw [ht] at h
    exact ⟨h, r, id, hs⟩

end

end Configuration

namespace CommandLine

open Bindery.Configuration

variable {configuration : Option String} {kind : String} {ids : List String} {output : Option String} {plan : Plan}
  (hk : KeepsFiles kept fs fs') (hkept : ∀ r, kept (r ++ [fileBytes])) (hwd : fs.HasWorkingDirectory)
  (hnamed : ∀ named r id, configuration = some named → fs.stat (.ofString named) = .ok (r, .file id) →
    ∃ id, fs'.node? r = some (.file id))

include hk hkept hwd hnamed

theorem configurationDirectory_eq (h : configurationDirectory fs configuration = .ok dir) {r : Route} {id : Nat}
    (hs : fs.stat (fileIn dir) = .ok (r, .file id)) : configurationDirectory fs' configuration = .ok dir := by
  cases configuration with
  | none =>
    unfold configurationDirectory at h ⊢
    dsimp only at h ⊢
    rw [findDirectory?_eq hk hkept hwd]
    cases hf : findDirectory? fs fs.workingPath with
    | none => rw [hf] at h; cases h
    | some dir' => rw [hf] at h; exact h
  | some named =>
    have hfile : fs'.isFile (.ofString named) = fs.isFile (.ofString named) := by
      cases hf : fs.isFile (.ofString named) with
      | true =>
        obtain ⟨r', id', hs'⟩ := isFile_eq_true.1 hf
        obtain ⟨id'', hn⟩ := hnamed named r' id' rfl hs'
        obtain ⟨spot, hl, rfl, ha, -⟩ := stat_eq_ok.1 hs'
        have ha' : spot.Admits (.file id'') := by
          cases spot with
          | directory r => trivial
          | entry dir name slashed => exact ⟨ha.1, fun h => by obtain ⟨t, ht⟩ := ha.2 h; cases ht⟩
        exact isFile_eq_true.2 ⟨_, id'', stat_eq_ok.2 ⟨spot, locate_mono hk.toKeepsDirectories hl, rfl, ha', hn⟩⟩
      | false =>
        -- the way to the configuration goes on behind the path that is named
        have hdir : dir = .ofString named := by
          unfold configurationDirectory at h
          dsimp only at h
          rw [hf] at h
          exact (Except.ok.inj h).symm
        subst hdir
        obtain ⟨spot, hl, -⟩ := stat_eq_ok.1 hs
        obtain ⟨-, r', hw, -⟩ := locate_fileIn.1 hl
        have hw' := walk_mono hk.toKeepsDirectories hw
        have hstart : fs'.startOf (.ofString named) = fs.startOf (.ofString named) := by
          unfold startOf
          rw [hk.workingDirectory]
        exact (hwd.of_keeps hk.toKeepsDirectories).isFile_eq_false (hstart ▸ hw')
    unfold configurationDirectory at h ⊢
    dsimp only at h ⊢
    rw [hfile]
    exact h

/-- What was planned is planned again. -/
theorem Plan.make_eq (h : Plan.make fs configuration kind ids output = .ok plan) :
    Plan.make fs' configuration kind ids output = .ok plan := by
  unfold Plan.make at h ⊢
  cases hd : configurationDirectory fs configuration with
  | error e => rw [hd] at h; cases h
  | ok dir =>
    cases hl : Configuration.load fs dir with
    | error e => rw [hd] at h; simp [hl, Except.mapError, bind, Except.bind] at h
    | ok c =>
      obtain ⟨hl', r, id, hs⟩ := load_eq hk hkept hl
      rw [configurationDirectory_eq hk hkept hwd hnamed hd hs]
      rw [hd] at h
      simp only [bind, Except.bind, hl, hl'] at h ⊢
      exact h

end CommandLine

/-! ### Sources -/

theorem Source.mem_candidates_of_locate {l : FallbackLocator} {id : String} {p : Path}
    (h : (locate fs (.fallback l) id).path = some p) : p ∈ l.candidates id := by
  unfold locate at h
  dsimp only at h
  split at h
  · cases h
    exact l.resolve_mem_candidates fs id
  · cases h

/-- An id is located at the same path if its candidates are kept at most, and lead to nothing new. -/
theorem Source.locate_eq {l : FallbackLocator} {id : String} (hk : KeepsFiles kept fs fs')
    (hroute : ∀ c ∈ l.candidates id, ∀ r, fs'.route? c = some r → kept r)
    (hnew : ∀ c ∈ l.candidates id, fs.pathExists c = false → fs'.pathExists c = false) :
    locate fs' (.fallback l) id = locate fs (.fallback l) id := by
  have hsame (c : Path) (hc : c ∈ l.candidates id) := hk.isFile_eq (hroute c hc) (hnew c hc)
  have hresolve : l.resolve fs' id = l.resolve fs id := by
    have hfallback : (l.fallbackPath? id).filter fs'.pathExists = (l.fallbackPath? id).filter fs.pathExists := by
      cases hf : l.fallbackPath? id with
      | none => rfl
      | some c =>
        have hc : c ∈ l.candidates id := by simp [FallbackLocator.candidates, hf]
        simp [Option.filter, (hsame c hc).2]
    unfold FallbackLocator.resolve
    rw [(hsame _ List.mem_cons_self).2, hfallback]
  unfold locate Resolver.resolve
  dsimp only
  rw [hresolve, (hsame _ (l.resolve_mem_candidates fs id)).1]

end Bindery
