import Bindery.Proofs.SortedMap
import Bindery.Provenance

/-!
# Stamps of provenance

The key of a field is a stem, a slash and a name without one.  So the last slash of a key tells its stem from its name
(`Provenance.key_inj`), and stamps under different stems have no key in common, even where one stem is a part of the
other.  A stamp lies over what was there before it (`Provenance.get?_stamp`); hence it hides a stamp under its own stem,
leaves all keys but its own, and may change places with a stamp under another stem
(`Provenance.stamps_overwrite_frame_and_commute`).
-/

namespace Bindery

/-! ### Entries under a stem -/

namespace Metadata

variable {m : Metadata} {stem key rest value : String}

theorem restOfKey?_eq_some : restOfKey? stem key = some rest ↔ key = stem ++ "/" ++ rest := by
  have htext : key = stem ++ "/" ++ rest ↔ key.toList = stem.toList ++ ['/'] ++ rest.toList := by
    rw [← String.toList_inj, String.toList_append, String.toList_append]
    rfl
  have hlength : stem.toList.length + 1 = (stem.toList ++ ['/']).length := by simp
  rw [htext, restOfKey?, hlength]
  split
  · next hfront =>
    obtain ⟨chars, hchars⟩ := List.isPrefixOf_iff_prefix.1 hfront
    rw [← hchars, List.drop_left, Option.some_inj, List.append_cancel_left_eq, ← String.toList_inj,
      String.toList_ofList]
  · next hfront =>
    refine iff_of_false nofun fun hkey => hfront ?_
    rw [hkey, List.isPrefixOf_iff_prefix]
    exact List.prefix_append _ _

theorem mem_under : (rest, value) ∈ m.under stem ↔ m.entries.get? (stem ++ "/" ++ rest) = some value := by
  unfold under
  rw [List.mem_filterMap, SortedMap.get?_eq_some_iff]
  constructor
  · rintro ⟨⟨key, value'⟩, hmem, hrest⟩
    obtain ⟨rest', hkey, hpair⟩ := Option.map_eq_some_iff.1 hrest
    cases hpair
    rwa [← restOfKey?_eq_some.1 hkey]
  · intro hmem
    exact ⟨_, hmem, by rw [restOfKey?_eq_some.2 rfl]; rfl⟩

theorem map_fst_under (m : Metadata) (stem : String) :
    (m.under stem).map Prod.fst = m.entries.keys.filterMap (restOfKey? stem) := by
  unfold under SortedMap.keys
  rw [List.map_filterMap, List.filterMap_map]
  congr 1
  funext e
  cases h : restOfKey? stem e.1 <;> simp [h]

/-- No two entries under a stem have the same rest of the key. -/
theorem nodup_under (m : Metadata) (stem : String) : ((m.under stem).map Prod.fst).Nodup := by
  rw [map_fst_under]
  refine m.entries.nodup_keys.filterMap fun key key' rest hkey hkey' => ?_
  rw [restOfKey?_eq_some.1 hkey, restOfKey?_eq_some.1 hkey']

end Metadata

namespace Provenance

variable {p q : Provenance} {o o' : Build.Occasion} {m : SortedMap String String} {key name name' value : String}

/-! ### Keys -/

/-- What is behind the last slash of a text, read from the end. -/
private theorem takeWhile_reverse_append_slash (stem : List Char) {name : List Char} (h : '/' ∉ name) :
    (stem ++ '/' :: name).reverse.takeWhile (· ≠ '/') = name.reverse := by
  have hname : ∀ c ∈ name.reverse, decide (c ≠ '/') = true := fun c hc =>
    decide_eq_true fun hslash => h (hslash ▸ List.mem_reverse.1 hc)
  rw [List.reverse_append, List.reverse_cons, List.append_assoc, List.takeWhile_append_of_pos hname]
  simp

theorem toList_key (p : Provenance) (name : String) : (p.key name).toList = p.stem.toList ++ '/' :: name.toList := by
  rw [key, String.toList_append, String.toList_append, List.append_assoc]
  rfl

/-- A key tells its stem and its name, whatever slashes are in the stem. -/
theorem key_inj (hname : '/' ∉ name.toList) (hname' : '/' ∉ name'.toList) (h : p.key name = q.key name') :
    p.stem = q.stem ∧ name = name' := by
  have hchars := congrArg String.toList h
  rw [toList_key, toList_key] at hchars
  have hbehind := congrArg (fun chars => chars.reverse.takeWhile (· ≠ '/')) hchars
  simp only [takeWhile_reverse_append_slash _ hname, takeWhile_reverse_append_slash _ hname'] at hbehind
  rw [List.reverse_inj, String.toList_inj] at hbehind
  subst hbehind
  exact ⟨String.toList_inj.1 (List.append_cancel_right hchars), rfl⟩

/-- The names of the fields. -/
def names : List String :=
  ["generator", "modified_time", "distribution_code_name", "distribution_version", "engine_version"]

theorem map_fst_fields (p : Provenance) (o : Build.Occasion) : (p.fields o).map Prod.fst = names := rfl

theorem slash_not_mem_name (h : name ∈ names) : '/' ∉ name.toList := by
  have hall : ∀ name ∈ names, '/' ∉ name.toList := by decide
  exact hall name h

/-! ### What a stamp writes -/

/-- What a stamp writes into an empty map. -/
theorem get?_stamp_empty :
    (p.stamp o .empty).get? key = some value ↔ ∃ f ∈ p.fields o, p.key f.1 = key ∧ f.2 = value := by
  have hnames : ((p.fields o).map Prod.fst).Nodup := by
    rw [map_fst_fields]
    decide
  refine SortedMap.get?_foldl_insert_of_agree fun f hf g hg hkey => ?_
  have hname {f} (hf : f ∈ p.fields o) : f.1 ∈ names := map_fst_fields p o ▸ List.mem_map_of_mem hf
  have hsame := (key_inj (slash_not_mem_name (hname hf)) (slash_not_mem_name (hname hg)) hkey).2
  rw [List.inj_on_of_nodup_map hnames hf hg hsame]

theorem isSome_get?_stamp_empty :
    ((p.stamp o .empty).get? key).isSome = true ↔ ∃ name ∈ names, p.key name = key := by
  rw [Option.isSome_iff_exists, ← map_fst_fields p o]
  simp only [get?_stamp_empty, List.mem_map]
  constructor
  · rintro ⟨_, f, hf, hkey, -⟩
    exact ⟨f.1, ⟨f, hf, rfl⟩, hkey⟩
  · rintro ⟨_, ⟨f, hf, rfl⟩, hkey⟩
    exact ⟨f.2, f, hf, hkey, rfl⟩

/-- A stamp lies over what was there before. -/
theorem get?_stamp (p : Provenance) (o : Build.Occasion) (m : SortedMap String String) (key : String) :
    (p.stamp o m).get? key = ((p.stamp o .empty).get? key).or (m.get? key) :=
  SortedMap.get?_foldl_insert (p.fields o) m key

theorem get?_stamp_of_field {f : String × String} (hf : f ∈ p.fields o) :
    (p.stamp o m).get? (p.key f.1) = some f.2 := by
  rw [get?_stamp, get?_stamp_empty.2 ⟨f, hf, rfl, rfl⟩, Option.some_or]

/-! ### Stamps one after the other -/

theorem get?_stamp_of_forall_ne (h : ∀ name ∈ names, p.key name ≠ key) : (p.stamp o m).get? key = m.get? key := by
  have hnone : (p.stamp o .empty).get? key = none := by
    rw [← Option.not_isSome_iff_eq_none, isSome_get?_stamp_empty]
    rintro ⟨name, hname, hkey⟩
    exact h name hname hkey
  rw [get?_stamp, hnone, Option.none_or]

/-- A stamp hides one that was made under the same stem before it. -/
theorem stamp_stamp (h : q.stem = p.stem) : q.stamp o' (p.stamp o m) = q.stamp o' m := by
  have hkey (name : String) : q.key name = p.key name := by rw [Provenance.key, Provenance.key, h]
  refine SortedMap.ext_get? fun key => ?_
  rw [get?_stamp q o' (p.stamp o m), get?_stamp q o' m]
  cases hq : (q.stamp o' .empty).get? key with
  | some value => rw [Option.some_or, Option.some_or]
  | none =>
    -- then the key is not one of the earlier stamp either
    rw [Option.none_or, Option.none_or]
    refine get?_stamp_of_forall_ne fun name hname hp => ?_
    have hsome : ((q.stamp o' .empty).get? key).isSome = true :=
      isSome_get?_stamp_empty.2 ⟨name, hname, (hkey name).trans hp⟩
    rw [hq] at hsome
    cases hsome

/-- Under different stems it does not matter which stamp is made first. -/
theorem stamp_comm (h : q.stem ≠ p.stem) : q.stamp o' (p.stamp o m) = p.stamp o (q.stamp o' m) := by
  refine SortedMap.ext_get? fun key => ?_
  by_cases hp : ∃ name ∈ names, p.key name = key
  · have hq : ∀ name ∈ names, q.key name ≠ key := by
      rintro name hname hkey
      obtain ⟨name', hname', rfl⟩ := hp
      exact h (key_inj (slash_not_mem_name hname) (slash_not_mem_name hname') hkey).1
    rw [get?_stamp_of_forall_ne hq, get?_stamp p o m, get?_stamp p o (q.stamp o' m), get?_stamp_of_forall_ne hq]
  · have hp : ∀ name ∈ names, p.key name ≠ key := fun name hname hkey => hp ⟨name, hname, hkey⟩
    rw [get?_stamp_of_forall_ne hp, get?_stamp q o' m, get?_stamp q o' (p.stamp o m), get?_stamp_of_forall_ne hp]

/-- Two stamps, under stems that may be any texts.  Under one stem the second stamp leaves what it would have left
alone.  A stamp changes no key but those of its five fields.  Under two stems the order of the stamps does not matter.
Afterwards there is one entry under a stem for every key that begins with the stem and a slash, and under the stamp's
own stem the five fields are among them, with the values of the stamp. -/
theorem stamps_overwrite_frame_and_commute (m : Metadata) (p q : Provenance) (o o' : Build.Occasion) :
    (q.stem = p.stem → q.stamp o' (p.stamp o m.entries) = q.stamp o' m.entries) ∧
    (∀ key, (∀ name ∈ names, key ≠ p.stem ++ "/" ++ name) → (p.stamp o m.entries).get? key = m.entries.get? key) ∧
    (q.stem ≠ p.stem → q.stamp o' (p.stamp o m.entries) = p.stamp o (q.stamp o' m.entries)) ∧
    let stamped : Metadata := { m with entries := p.stamp o m.entries }
    (∀ stem, ((stamped.under stem).map Prod.fst).Nodup ∧ ∀ rest value, (rest, value) ∈ stamped.under stem ↔
      stamped.entries.get? (stem ++ "/" ++ rest) = some value) ∧
    (p.fields o).map Prod.fst = names ∧ ∀ f ∈ p.fields o, f ∈ stamped.under p.stem := by
  refine ⟨stamp_stamp, fun key hkey => ?_, stamp_comm,
    fun stem => ⟨Metadata.nodup_under _ stem, fun rest value => Metadata.mem_under⟩, map_fst_fields p o, fun f hf => ?_⟩
  · exact get?_stamp_of_forall_ne fun name hname => (hkey name hname).symm
  · exact Metadata.mem_under.2 (get?_stamp_of_field hf)

/-- Stamps under a stem and under a stem in its own tree, over an entry in that tree, and a second stamp under the
first stem. -/
theorem stamps_in_one_tree :
    ∃ (m : Metadata) (p q r : Provenance) (o o' : Build.Occasion),
      q.stem = p.stem ++ "/x" ∧ r.stem = p.stem ∧ m.entries.get? "a/x/note" = some "kept" ∧
      q.stamp o' (p.stamp o m.entries) = p.stamp o (q.stamp o' m.entries) ∧
      r.stamp o' (p.stamp o m.entries) = r.stamp o' m.entries ∧
      (p.stamp o m.entries).get? "a/x/note" = some "kept" := by
  let m : Metadata := (Metadata.ofRecord default).insert "a/x/note" "kept"
  let p : Provenance := ⟨"a", "one"⟩
  let q : Provenance := ⟨"a/x", "two"⟩
  let r : Provenance := ⟨"a", "three"⟩
  let o : Build.Occasion := ⟨"Tue Nov 14 22:13:20 2023", "Stonebridge", "0.3.0", "0.1.0"⟩
  let o' : Build.Occasion := ⟨"Tue Mar  5 08:00:09 2024", "", "", "0.2.0"⟩
  have hnote : m.entries.get? "a/x/note" = some "kept" := SortedMap.get?_insert_self _ _ _
  obtain ⟨-, hframe, hcomm, -⟩ := stamps_overwrite_frame_and_commute m p q o o'
  obtain ⟨hagain, -⟩ := stamps_overwrite_frame_and_commute m p r o o'
  exact ⟨m, p, q, r, o, o', by decide, rfl, hnote, hcomm (by decide), hagain rfl,
    (hframe _ (by decide)).trans hnote⟩

end Provenance

end Bindery
