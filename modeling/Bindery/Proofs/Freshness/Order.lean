import Bindery.Proofs.Freshness
import Mathlib.Data.List.Nodup

/-!
# Sources in any order

A comparison of sources with a record says one thing at most of each id: that it is no longer used, if the record has
it and no source does (`stale_of_not_listed`), or what there is to say of its source (`stale_of_listed`).  It says the
same of the sources in any other order, and they make the same record, if their ids differ
(`order_of_sources_is_indifferent`).
-/

namespace Bindery.Tracker

variable {t : Tracker} {fs : FileSystem} {r : BuildRecord} {s : Source} {sources sources' : List Source} {id : String}

/-! ### What a comparison says of an id -/

/-- What a comparison says of ids that the sources do not have. -/
private def gone (r : BuildRecord) (sources : List Source) : List (String × Staleness) :=
  (r.resources.keys.filter fun id => !sources.any (·.id = id)).map (·, .removed)

/-- What a comparison says of sources. -/
private def differing (t : Tracker) (fs : FileSystem) (r : BuildRecord) (sources : List Source) :
    List (String × Staleness) :=
  sources.filterMap fun s => (t.reason? fs r s).map (s.id, ·)

private theorem stale_eq : (t.check fs r sources).stale = gone r sources ++ differing t fs r sources := rfl

private theorem any_id_eq_true : sources.any (·.id = id) = true ↔ id ∈ sources.map Source.id := by
  simp

private theorem filter_gone_of_mem (h : id ∈ sources.map Source.id) :
    (gone r sources).filter (·.1 = id) = [] := by
  rw [List.filter_eq_nil_iff]
  intro p hp hid
  obtain ⟨k, hk, rfl⟩ := List.mem_map.1 hp
  obtain rfl : k = id := by simpa using hid
  have hnone := (List.mem_filter.1 hk).2
  rw [any_id_eq_true.2 h] at hnone
  cases hnone

private theorem filter_gone_of_recorded (hkey : id ∈ r.resources.keys) (h : id ∉ sources.map Source.id) :
    (gone r sources).filter (·.1 = id) = [(id, .removed)] := by
  have hnone : sources.any (·.id = id) = false := by
    rw [Bool.eq_false_iff]
    exact fun hany => h (any_id_eq_true.1 hany)
  have hmem : id ∈ r.resources.keys.filter fun id => !sources.any (·.id = id) := by
    rw [List.mem_filter, hnone]
    exact ⟨hkey, rfl⟩
  -- no key stands twice in a map
  have hone : (r.resources.keys.filter fun id => !sources.any (·.id = id)).filter (· = id) = [id] := by
    rw [List.filter_eq, List.count_eq_one_of_mem (r.resources.nodup_keys.filter _) hmem, List.replicate_one]
  unfold gone
  rw [List.filter_map]
  exact congrArg (List.map (·, Staleness.removed)) hone

private theorem filter_differing_of_not_mem (h : id ∉ sources.map Source.id) :
    (differing t fs r sources).filter (·.1 = id) = [] := by
  rw [List.filter_eq_nil_iff]
  intro p hp hid
  obtain ⟨s, hs, hreason⟩ := List.mem_filterMap.1 hp
  obtain ⟨reason, -, rfl⟩ := Option.map_eq_some_iff.1 hreason
  have : s.id = id := by simpa using hid
  exact h (this ▸ List.mem_map_of_mem hs)

private theorem filter_differing_of_mem (hids : (sources.map Source.id).Nodup) (hs : s ∈ sources) :
    (differing t fs r sources).filter (·.1 = s.id) = ((t.reason? fs r s).map (s.id, ·)).toList := by
  obtain ⟨front, behind, rfl⟩ := List.append_of_mem hs
  rw [List.map_append, List.map_cons, List.nodup_append, List.nodup_cons] at hids
  obtain ⟨-, ⟨hbehind, -⟩, hfront⟩ := hids
  have hparts : differing t fs r (front ++ s :: behind) =
      differing t fs r front ++ (((t.reason? fs r s).map (s.id, ·)).toList ++ differing t fs r behind) := by
    unfold differing
    rw [List.filterMap_append, List.filterMap_cons]
    cases t.reason? fs r s <;> rfl
  have hnot : s.id ∉ front.map Source.id := fun hmem => hfront _ hmem _ List.mem_cons_self rfl
  rw [hparts, List.filter_append, List.filter_append, filter_differing_of_not_mem hnot,
    filter_differing_of_not_mem hbehind, List.nil_append, List.append_nil]
  cases t.reason? fs r s <;> simp

/-- Of an id that no source has, a comparison says that it is no longer used, if it was recorded, and nothing else. -/
theorem stale_of_not_listed {stamp : Stamp} (hrecorded : r.get? id = some stamp) (h : id ∉ sources.map Source.id) :
    (t.check fs r sources).stale.filter (·.1 = id) = [(id, .removed)] := by
  rw [stale_eq, List.filter_append, filter_gone_of_recorded (SortedMap.mem_keys_of_get? hrecorded) h,
    filter_differing_of_not_mem h]
  rfl

/-- Of the id of a source, a comparison says what there is to say of that source, if no other source has the id. -/
theorem stale_of_listed (hids : (sources.map Source.id).Nodup) (hs : s ∈ sources) :
    (t.check fs r sources).stale.filter (·.1 = s.id) = ((t.reason? fs r s).map (s.id, ·)).toList := by
  rw [stale_eq, List.filter_append, filter_gone_of_mem (List.mem_map_of_mem hs), filter_differing_of_mem hids hs]
  rfl

/-! ### Permutations -/

theorem distribution_record (t : Tracker) (fs : FileSystem) (sources : List Source) :
    (t.record fs sources).distribution = t.distribution := by
  have h (r : BuildRecord) :
      (sources.foldl (fun r s => r.insert s.id (s.stamp fs)) r).distribution = r.distribution := by
    induction sources generalizing r with
    | nil => rfl
    | cons s sources ih => exact ih _
  exact h _

theorem record_perm (hids : (sources.map Source.id).Nodup) (h : sources'.Perm sources) :
    t.record fs sources' = t.record fs sources := by
  have hids' : (sources'.map Source.id).Nodup := (h.map Source.id).nodup_iff.2 hids
  have hget (id : String) : (t.record fs sources').get? id = (t.record fs sources).get? id := by
    refine Option.ext fun stamp => ?_
    rw [get?_record hids', get?_record hids]
    simp only [h.mem_iff]
  have hresources : (t.record fs sources').resources = (t.record fs sources).resources := SortedMap.ext_get? hget
  have hengine := (engineVersion_record t fs sources').trans (engineVersion_record t fs sources).symm
  have hdistribution := (distribution_record t fs sources').trans (distribution_record t fs sources).symm
  generalize t.record fs sources' = r' at hresources hengine hdistribution ⊢
  generalize t.record fs sources = r at hresources hengine hdistribution ⊢
  cases r
  cases r'
  congr

theorem stale_perm (t : Tracker) (fs : FileSystem) (r : BuildRecord) (h : sources'.Perm sources) :
    (t.check fs r sources').stale.Perm (t.check fs r sources).stale := by
  have hgone : gone r sources' = gone r sources := by
    unfold gone
    congr 2
    funext id
    congr 1
    rw [Bool.eq_iff_iff, any_id_eq_true, any_id_eq_true, (h.map Source.id).mem_iff]
  rw [stale_eq, stale_eq, hgone]
  exact (h.filterMap _).append_left _

/-- Sources whose ids differ make the same record in every order, and compared with any record they are fresh or not,
and differ from it for the same reasons.  An id that was recorded and is no source's, and one that is a source's and was
not recorded, are told of once each, and of neither is anything else told. -/
theorem order_of_sources_is_indifferent (t : Tracker) (fs : FileSystem) (hids : (sources.map Source.id).Nodup)
    (h : sources'.Perm sources) :
    t.record fs sources' = t.record fs sources ∧
      ∀ r : BuildRecord,
        t.isFresh fs r sources' = t.isFresh fs r sources ∧
        (t.check fs r sources').newerEngine = (t.check fs r sources).newerEngine ∧
        (t.check fs r sources').stale.Perm (t.check fs r sources).stale ∧
        (∀ id stamp, r.get? id = some stamp → id ∉ sources.map Source.id →
          (t.check fs r sources).stale.filter (·.1 = id) = [(id, .removed)]) ∧
        ∀ s ∈ sources, r.get? s.id = none →
          (t.check fs r sources).stale.filter (·.1 = s.id) = [(s.id, .notRecorded)] := by
  refine ⟨record_perm hids h, fun r => ?_⟩
  have hstale := stale_perm t fs r h
  have hnewer : (t.check fs r sources').newerEngine = (t.check fs r sources).newerEngine := rfl
  refine ⟨?_, hnewer, hstale, fun id stamp hrecorded hnot => stale_of_not_listed hrecorded hnot, fun s hs hnone => ?_⟩
  · unfold isFresh Freshness.isFresh
    rw [hnewer, Bool.eq_iff_iff, Bool.and_eq_true, Bool.and_eq_true, List.isEmpty_iff, List.isEmpty_iff,
      ← List.length_eq_zero_iff, ← List.length_eq_zero_iff, hstale.length_eq]
  · rw [stale_of_listed hids hs, reason?, hnone]
    rfl

/-- One of three sources was modified and one is new, and a fourth was there before. -/
theorem three_sources_in_reverse :
    let fs := (FileSystem.bare ⟨0⟩).addFile [Text.encode "a"] ⟨.ofList [1, 2, 3], .ofSeconds 6⟩
    let t : Tracker := ⟨"1", "", true⟩
    let sources : List Source :=
      [⟨"a", some (.ofString "a"), true⟩, ⟨"b", some (.ofString "b"), true⟩, ⟨"c", none, false⟩]
    let r := ((((BuildRecord.ofEngine "1" "").insert "a" ⟨5, none⟩).insert "c" .blank).insert "d" ⟨5, none⟩)
    t.record fs sources.reverse = t.record fs sources ∧
      (t.check fs r sources).stale = [("d", .removed), ("a", .timestampChanged 5 6), ("b", .notRecorded)] ∧
      (t.check fs r sources.reverse).stale = [("d", .removed), ("b", .notRecorded), ("a", .timestampChanged 5 6)] ∧
      (t.check fs r sources.reverse).stale.Perm (t.check fs r sources).stale ∧
      (t.check fs r sources).stale.filter (·.1 = "d") = [("d", .removed)] ∧
      (t.check fs r sources).stale.filter (·.1 = "b") = [("b", .notRecorded)] := by
  intro fs t sources r
  obtain ⟨hrecord, hcheck⟩ := order_of_sources_is_indifferent t fs (show (sources.map Source.id).Nodup by decide)
    sources.reverse_perm
  obtain ⟨-, -, hperm, hremoved, hnew⟩ := hcheck r
  exact ⟨hrecord, by decide +kernel, by decide +kernel, hperm, hremoved "d" ⟨5, none⟩ (by decide) (by decide),
    hnew ⟨"b", some (.ofString "b"), true⟩ (by decide) (by decide)⟩

end Bindery.Tracker
