import Bindery.Configuration.Loading
import Bindery.Proofs.Path.Components
import Mathlib.Data.List.Nodup

/-!
# Configurations without a flaw

The search for a flaw finds none exactly in a configuration that can be used (`Configuration.flaw?_eq_none`), and what
it finds in another one is there (`Configuration.isIn_of_flaw?`).  In a configuration that can be used no two kinds have
the same name, so the first kind of a name is the only one, and is what a locator is made of
(`Configuration.kind?_eq_some`).
-/

namespace Bindery.Configuration

/-- A configuration that can be used: sources have a place, every kind a name of its own, and the capacities of arenas
grow from some bytes to no more than offsets reach. -/
structure Usable (c : Configuration) : Prop where
  userData : c.paths.userData.isEmpty = false
  named : ∀ k ∈ c.kinds, k.name ≠ ""
  distinct : (c.kinds.map Kind.name).Nodup
  one_le_initial : 1 ≤ c.sizes.initialCapacity
  two_le_growth : 2 ≤ c.sizes.growthFactor
  initial_le_max : c.sizes.initialCapacity ≤ c.sizes.maxCapacity
  max_le : c.sizes.maxCapacity ≤ 0xFFFFFFFF

variable {c : Configuration} {kinds : List Kind} {seen : List String} {k : Kind} {name : String}

/-! ### Flaws -/

/-- No flaw is found in kinds, after others, if they have names which differ from each other and from those before. -/
theorem kindsFlaw?_eq_none :
    kindsFlaw? seen kinds = none ↔
      (∀ k ∈ kinds, k.name ≠ "") ∧ (kinds.map Kind.name).Nodup ∧ ∀ k ∈ kinds, k.name ∉ seen := by
  induction kinds generalizing seen with
  | nil => simp [kindsFlaw?]
  | cons k rest ih =>
    unfold kindsFlaw?
    by_cases hname : k.name = ""
    · simp [hname]
    by_cases hseen : k.name ∈ seen
    · simp [hname, hseen]
    -- a later kind differs from this one and from those before exactly if it is not among them all
    have hlater : (∀ k' ∈ rest, k'.name ∉ k.name :: seen) ↔
        k.name ∉ rest.map Kind.name ∧ ∀ k' ∈ rest, k'.name ∉ seen := by
      simp only [List.mem_cons, not_or, List.mem_map, not_exists, not_and, forall_and]
    rw [if_neg hname, if_neg hseen, ih, hlater, List.forall_mem_cons, List.forall_mem_cons, List.map_cons,
      List.nodup_cons]
    constructor
    · rintro ⟨hnames, hdistinct, hfirst, hnew⟩
      exact ⟨⟨hname, hnames⟩, ⟨hfirst, hdistinct⟩, hseen, hnew⟩
    · rintro ⟨⟨-, hnames⟩, ⟨hfirst, hdistinct⟩, -, hnew⟩
      exact ⟨hnames, hdistinct, hfirst, hnew⟩

theorem Sizes.flaw?_eq_none {s : Sizes} :
    s.flaw? = none ↔ 1 ≤ s.initialCapacity ∧ 2 ≤ s.growthFactor ∧ s.initialCapacity ≤ s.maxCapacity ∧
      s.maxCapacity ≤ 0xFFFFFFFF := by
  have hlimit : Arena.maxCapacity = 0xFFFFFFFF := rfl
  unfold Sizes.flaw?
  split_ifs <;> simp <;> omega

theorem flaw?_eq_none : c.flaw? = none ↔ c.Usable := by
  unfold flaw?
  split
  · next hempty =>
    refine iff_of_false nofun fun h => ?_
    rw [h.userData] at hempty
    cases hempty
  · next hpath =>
    rw [Option.or_eq_none_iff, kindsFlaw?_eq_none, Sizes.flaw?_eq_none]
    constructor
    · rintro ⟨⟨hnamed, hdistinct, -⟩, hinitial, hgrowth, hle, hmax⟩
      exact ⟨eq_false_of_ne_true hpath, hnamed, hdistinct, hinitial, hgrowth, hle, hmax⟩
    · intro h
      exact ⟨⟨h.named, h.distinct, fun _ _ => List.not_mem_nil⟩, h.one_le_initial, h.two_le_growth, h.initial_le_max,
        h.max_le⟩

/-! ### Reasons -/

/-- What a flaw says of a configuration. -/
def Flaw.IsIn (c : Configuration) : Flaw → Prop
  | .missingField field =>
    field = "paths.user_data_dir" ∧ c.paths.userData.isEmpty = true ∨
      field = "resource_kinds.name" ∧ ∃ k ∈ c.kinds, k.name = ""
  | .repeatedKind name => 2 ≤ (c.kinds.map Kind.name).count name
  | .noInitialCapacity => c.sizes.initialCapacity = 0
  | .smallGrowthFactor factor => c.sizes.growthFactor = factor ∧ factor < 2
  | .unreachableCapacity capacity => c.sizes.maxCapacity = capacity ∧ Arena.maxCapacity < capacity
  | .largeInitialCapacity initial limit =>
    c.sizes.initialCapacity = initial ∧ c.sizes.maxCapacity = limit ∧ limit < initial

/-- The flaw that is found in kinds is a name that is missing, or one that is there twice, counting the names before. -/
theorem kindsFlaw?_eq_some {f : Flaw} (h : kindsFlaw? seen kinds = some f) :
    (f = .missingField "resource_kinds.name" ∧ ∃ k ∈ kinds, k.name = "") ∨
      ∃ name, f = .repeatedKind name ∧ 2 ≤ (seen ++ kinds.map Kind.name).count name := by
  induction kinds generalizing seen with
  | nil => cases h
  | cons k rest ih =>
    unfold kindsFlaw? at h
    split at h
    · next hname =>
      cases h
      exact .inl ⟨rfl, k, List.mem_cons_self, hname⟩
    split at h
    · next hseen =>
      cases h
      have hbefore : 0 < seen.count k.name := List.count_pos_iff.2 hseen
      refine .inr ⟨k.name, rfl, ?_⟩
      rw [List.count_append, List.map_cons, List.count_cons_self]
      omega
    · rcases ih h with ⟨hf, k', hk', hname⟩ | ⟨name, hf, hcount⟩
      · exact .inl ⟨hf, k', List.mem_cons_of_mem _ hk', hname⟩
      · have hperm : (k.name :: seen ++ rest.map Kind.name).Perm (seen ++ (k :: rest).map Kind.name) :=
          List.perm_middle.symm
        exact .inr ⟨name, hf, hperm.count_eq name ▸ hcount⟩

/-- A configuration is refused for nothing that it does not have. -/
theorem isIn_of_flaw? {f : Flaw} (h : c.flaw? = some f) : f.IsIn c := by
  unfold flaw? at h
  split at h
  · next hempty =>
    cases h
    exact .inl ⟨rfl, hempty⟩
  rcases Option.or_eq_some_iff.1 h with hkinds | ⟨-, hsizes⟩
  · rcases kindsFlaw?_eq_some hkinds with ⟨rfl, hunnamed⟩ | ⟨name, rfl, hcount⟩
    · exact .inr ⟨rfl, hunnamed⟩
    · exact hcount
  · unfold Sizes.flaw? at hsizes
    split_ifs at hsizes with hinitial hgrowth hmax hle <;> cases hsizes
    · exact hinitial
    · exact ⟨rfl, hgrowth⟩
    · exact ⟨rfl, hmax⟩
    · exact ⟨rfl, rfl, hle⟩

/-! ### Kinds by name -/

/-- Where names are distinct, the kind of a name is the one that has it. -/
theorem kind?_eq_some (h : (c.kinds.map Kind.name).Nodup) : c.kind? name = some k ↔ k ∈ c.kinds ∧ k.name = name := by
  unfold kind?
  constructor
  · intro hk
    exact ⟨List.mem_of_find?_eq_some hk, by simpa using List.find?_some hk⟩
  · rintro ⟨hk, rfl⟩
    have hsome : (c.kinds.find? (·.name = k.name)).isSome = true := by
      rw [List.find?_isSome]
      exact ⟨k, hk, decide_eq_true rfl⟩
    obtain ⟨k', hk'⟩ := Option.isSome_iff_exists.1 hsome
    have hname : k'.name = k.name := by simpa using List.find?_some hk'
    rw [hk', List.inj_on_of_nodup_map h (List.mem_of_find?_eq_some hk') hk hname]

theorem kind?_eq_none : c.kind? name = none ↔ ∀ k ∈ c.kinds, k.name ≠ name := by
  simp [kind?]

theorem locator_of_kind? (h : c.kind? name = some k) :
    c.locator name = .ok ⟨⟨k, c.paths.userData⟩, c.paths.sharedData⟩ := by
  rw [locator, locator?, h]
  rfl

theorem locator_of_not_declared (h : ∀ k ∈ c.kinds, k.name ≠ name) : c.locator name = .error (.unknownKind name) := by
  rw [locator, locator?, kind?_eq_none.2 h]
  rfl

/-! ### Loaded configurations -/

/-- Moving relative roots behind a directory keeps a configuration one that can be used. -/
theorem Usable.anchor (h : c.Usable) (dir : Path) : (c.anchor dir).Usable :=
  { h with userData := Path.isEmpty_join h.userData }

theorem usable_of_ofText {text : String} (h : ofText text = .ok c) : c.Usable := by
  unfold ofText at h
  split at h
  · cases h
  · split at h
    · cases h
    · next hflaw =>
      cases h
      exact flaw?_eq_none.1 hflaw

theorem usable_of_load {fs : FileSystem} {dir : Path} (h : load fs dir = .ok c) : c.Usable := by
  unfold load at h
  cases hread : fs.readText (fileIn dir) with
  | error fault => rw [hread] at h; cases h
  | ok text =>
    rw [hread] at h
    cases htext : ofText text with
    | error e => simp only [htext] at h; cases h
    | ok c' =>
      simp only [htext] at h
      cases h
      exact (usable_of_ofText htext).anchor dir

/-- A configuration, with any number of kinds, is accepted exactly if it can be used, refused for a flaw that it has,
and loaded from a file only if it is accepted.  In one that is accepted the locator of a declared kind's name is made of
that kind and of the configured roots, and there is none of another name. -/
theorem accepted_iff_usable_and_locators_are_exact (c : Configuration) :
    (c.flaw? = none ↔ c.Usable) ∧ (∀ f, c.flaw? = some f → f.IsIn c) ∧
    (∀ fs dir, load fs dir = .ok c → c.flaw? = none) ∧
    (c.flaw? = none →
      (∀ k ∈ c.kinds, c.locator k.name = .ok ⟨⟨k, c.paths.userData⟩, c.paths.sharedData⟩) ∧
      ∀ name, (∀ k ∈ c.kinds, k.name ≠ name) → c.locator name = .error (.unknownKind name)) := by
  refine ⟨flaw?_eq_none, fun f => isIn_of_flaw?, fun fs dir hload => flaw?_eq_none.2 (usable_of_load hload),
    fun haccepted => ⟨fun k hk => ?_, fun name => locator_of_not_declared⟩⟩
  have husable := flaw?_eq_none.1 haccepted
  exact locator_of_kind? ((kind?_eq_some husable.distinct).2 ⟨hk, rfl⟩)

/-- Two kinds that differ in their names alone, at the bounds of all sizes; and three, the third with the name of the
first. -/
theorem kinds_of_two_names_and_of_one :
    ∃ c c' : Configuration,
      c.kinds = [⟨"dict", "", ".yaml"⟩, ⟨"dict2", "", ".yaml"⟩] ∧ c.sizes = ⟨0xFFFFFFFF, 2, 0xFFFFFFFF⟩ ∧
      c.flaw? = none ∧
      c.locator "dict2" = .ok ⟨⟨⟨"dict2", "", ".yaml"⟩, .ofString "user"⟩, some (.ofString "shared")⟩ ∧
      c.locator "Dict" = .error (.unknownKind "Dict") ∧
      c'.kinds = c.kinds ++ [⟨"dict", "a", ".txt"⟩] ∧ c'.flaw? ≠ none := by
  let paths : Paths := ⟨.ofString "user", some (.ofString "shared"), .ofString "build"⟩
  let kinds : List Kind := [⟨"dict", "", ".yaml"⟩, ⟨"dict2", "", ".yaml"⟩]
  let c : Configuration := ⟨paths, kinds, ⟨0xFFFFFFFF, 2, 0xFFFFFFFF⟩, true, ⟨"", "", ""⟩⟩
  let c' : Configuration := { c with kinds := kinds ++ [⟨"dict", "a", ".txt"⟩] }
  have haccepted : c.flaw? = none := by decide +kernel
  obtain ⟨-, -, -, hlocators⟩ := accepted_iff_usable_and_locators_are_exact c
  obtain ⟨hfound, hunknown⟩ := hlocators haccepted
  obtain ⟨hexact, -⟩ := accepted_iff_usable_and_locators_are_exact c'
  refine ⟨c, c', rfl, rfl, haccepted, hfound ⟨"dict2", "", ".yaml"⟩ (by decide), hunknown "Dict" (by decide), rfl,
    fun h => ?_⟩
  have hrepeated : ¬ (c'.kinds.map Kind.name).Nodup := by decide
  exact hrepeated (hexact.1 h).distinct

end Bindery.Configuration
