import Bindery.SortedMap
import Mathlib.Data.List.Nodup

/-!
# Building sorted maps

A sorted map is what its own pairs build when they are stored one after the other (`foldl_insert_entries`), and of
pairs in which a key always has the same value every one is found (`get?_foldl_insert_of_agree`).  Pairs that are stored
in a map lie over those that were in it (`get?_foldl_insert`).
-/

namespace Bindery.SortedMap

variable {κ : Type u} {α : Type v} {β : Type w} [Ord κ]

/-! ### In the order of keys -/

private theorem place_of_forall_lt [Std.OrientedOrd κ] {k : κ} {v : α} {l : List (κ × α)}
    (h : ∀ p ∈ l, compare p.1 k = .lt) : place k v l = l ++ [(k, v)] := by
  induction l with
  | nil => rfl
  | cons p l ih =>
    have hk : compare k p.1 = .gt := Std.OrientedCmp.gt_of_lt (h p List.mem_cons_self)
    unfold place
    rw [hk]
    show p :: place k v l = _
    rw [ih fun q hq => h q (List.mem_cons_of_mem _ hq), List.cons_append]

variable [Std.LawfulEqOrd κ] [Std.TransOrd κ]

private theorem entries_foldl_insert (l : List (κ × α)) (m : SortedMap κ α)
    (h : (m.entries ++ l).Pairwise fun a b => compare a.1 b.1 = .lt) :
    (l.foldl (fun m p => m.insert p.1 p.2) m).entries = m.entries ++ l := by
  induction l generalizing m with
  | nil => simp
  | cons p l ih =>
    have hm : (m.insert p.1 p.2).entries = m.entries ++ [p] :=
      place_of_forall_lt fun q hq => (List.pairwise_append.1 h).2.2 q hq p List.mem_cons_self
    rw [List.append_cons] at h
    rw [List.foldl_cons, ih _ (by rw [hm]; exact h), hm, ← List.append_cons]

theorem foldl_insert_entries (m : SortedMap κ α) :
    m.entries.foldl (fun m p => m.insert p.1 p.2) empty = m := by
  have h : (m.entries.foldl (fun m p => m.insert p.1 p.2) empty).entries = m.entries :=
    entries_foldl_insert m.entries empty m.sorted
  generalize m.entries.foldl (fun m p => m.insert p.1 p.2) empty = n at h ⊢
  cases m
  cases n
  cases h
  rfl

/-! ### In any order -/

omit [Std.TransOrd κ] in
theorem mem_keys_of_get? {m : SortedMap κ α} {k : κ} {v : α} (h : m.get? k = some v) : k ∈ m.keys := by
  have hl (l : List (κ × α)) (h : lookup k l = some v) : k ∈ l.map Prod.fst := by
    induction l with
    | nil => cases h
    | cons p l ih =>
      unfold lookup at h
      split at h
      · next hk => rw [Std.LawfulEqCmp.eq_of_compare hk]; exact List.mem_cons_self
      · exact List.mem_cons_of_mem _ (ih h)
  exact hl m.entries h

omit [Std.TransOrd κ] in
theorem get?_of_mem_keys {m : SortedMap κ α} {k : κ} (h : k ∈ m.keys) : ∃ v, m.get? k = some v := by
  have hl (l : List (κ × α)) (h : k ∈ l.map Prod.fst) : ∃ v, lookup k l = some v := by
    induction l with
    | nil => cases h
    | cons p l ih =>
      by_cases hk : compare k p.1 = .eq
      · exact ⟨p.2, by rw [lookup, if_pos hk]⟩
      · rcases List.mem_cons.1 h with rfl | h
        · exact absurd Std.ReflCmp.compare_self hk
        · rw [lookup, if_neg hk]
          exact ih h
  exact hl m.entries h

omit [Std.TransOrd κ] in
theorem get?_eq_some_iff {m : SortedMap κ α} {k : κ} {v : α} : m.get? k = some v ↔ (k, v) ∈ m.entries := by
  have hl (l : List (κ × α)) (hsorted : l.Pairwise fun a b => compare a.1 b.1 = .lt) :
      lookup k l = some v ↔ (k, v) ∈ l := by
    induction l with
    | nil => simp [lookup]
    | cons p l ih =>
      unfold lookup
      split
      · next hk =>
        cases Std.LawfulEqCmp.eq_of_compare hk
        constructor
        · rintro ⟨rfl⟩
          exact List.mem_cons_self
        · intro h
          rcases List.mem_cons.1 h with h | h
          · exact congrArg (fun p => some p.2) h.symm
          · -- a later pair has a larger key
            have hlt := List.rel_of_pairwise_cons hsorted h
            cases hk.symm.trans hlt
      · next hk =>
        rw [ih hsorted.of_cons, List.mem_cons]
        refine ⟨.inr, fun h => h.resolve_left ?_⟩
        rintro rfl
        exact hk Std.ReflCmp.compare_self
  exact hl m.entries m.sorted

omit [Std.TransOrd κ] in
theorem nodup_keys (m : SortedMap κ α) : m.keys.Nodup := by
  unfold keys
  rw [List.Nodup, List.pairwise_map]
  refine m.sorted.imp fun {p q} hlt he => ?_
  have heq : compare p.1 q.1 = .eq := he ▸ Std.ReflCmp.compare_self
  cases hlt.symm.trans heq

variable {key : β → κ} {value : β → α}

/-- What is found is one of the pairs that were stored. -/
theorem exists_of_get?_foldl_insert {l : List β} {k : κ} {v : α}
    (h : (l.foldl (fun m b => m.insert (key b) (value b)) (empty : SortedMap κ α)).get? k = some v) :
    ∃ b ∈ l, key b = k ∧ value b = v := by
  suffices hs : ∀ m : SortedMap κ α, (l.foldl (fun m b => m.insert (key b) (value b)) m).get? k = some v →
      (∃ b ∈ l, key b = k ∧ value b = v) ∨ m.get? k = some v from (hs empty h).resolve_right (by simp)
  clear h
  induction l with
  | nil => exact fun m h => .inr h
  | cons b l ih =>
    intro m h
    rcases ih (m.insert (key b) (value b)) h with ⟨c, hc, hv⟩ | h
    · exact .inl ⟨c, List.mem_cons_of_mem _ hc, hv⟩
    · by_cases hk : key b = k
      · subst hk
        rw [get?_insert_self] at h
        exact .inl ⟨b, List.mem_cons_self, rfl, Option.some.inj h⟩
      · rw [get?_insert_of_ne _ _ (Ne.symm hk)] at h
        exact .inr h

/-- Of pairs in which a key always has the same value every one is found, and nothing else is. -/
theorem get?_foldl_insert_of_agree {l : List β} (h : ∀ b ∈ l, ∀ c ∈ l, key b = key c → value b = value c) {k : κ}
    {v : α} : (l.foldl (fun m b => m.insert (key b) (value b)) (empty : SortedMap κ α)).get? k = some v ↔
      ∃ b ∈ l, key b = k ∧ value b = v := by
  suffices hs : ∀ m : SortedMap κ α, (l.foldl (fun m b => m.insert (key b) (value b)) m).get? k = some v ↔
      (∃ b ∈ l, key b = k ∧ value b = v) ∨ ((∀ b ∈ l, key b ≠ k) ∧ m.get? k = some v) by
    rw [hs]
    simp
  induction l with
  | nil => simp
  | cons b l ih =>
    intro m
    have hl : ∀ c ∈ l, ∀ d ∈ l, key c = key d → value c = value d := fun c hc d hd =>
      h c (List.mem_cons_of_mem _ hc) d (List.mem_cons_of_mem _ hd)
    rw [List.foldl_cons, ih hl]
    by_cases hk : key b = k
    · subst hk
      rw [get?_insert_self]
      have hb : ∀ c ∈ l, key c = key b → value c = value b := fun c hc he =>
        h c (List.mem_cons_of_mem _ hc) b List.mem_cons_self he
      constructor
      · rintro (⟨c, hc, he, hv⟩ | ⟨-, hv⟩)
        · exact .inl ⟨c, List.mem_cons_of_mem _ hc, he, hv⟩
        · exact .inl ⟨b, List.mem_cons_self, rfl, Option.some.inj hv⟩
      · rintro (⟨c, hc, he, hv⟩ | ⟨hne, -⟩)
        · have hvb : value b = v := by
            rcases List.mem_cons.1 hc with rfl | hc
            · exact hv
            · rw [← hb c hc he, hv]
          by_cases hmore : ∃ d ∈ l, key d = key b
          · obtain ⟨d, hd, hde⟩ := hmore
            exact .inl ⟨d, hd, hde, (hb d hd hde).trans hvb⟩
          · exact .inr ⟨fun d hd hde => hmore ⟨d, hd, hde⟩, congrArg some hvb⟩
        · exact absurd rfl (hne b List.mem_cons_self)
    · rw [get?_insert_of_ne _ _ (Ne.symm hk)]
      simp [hk]

/-- Pairs that are stored in a map hide what it had under their keys, and nothing else. -/
theorem get?_foldl_insert (l : List β) (m : SortedMap κ α) (k : κ) :
    (l.foldl (fun m b => m.insert (key b) (value b)) m).get? k =
      ((l.foldl (fun m b => m.insert (key b) (value b)) empty).get? k).or (m.get? k) := by
  induction l generalizing m with
  | nil => rfl
  | cons b l ih =>
    have hfirst : (m.insert (key b) (value b)).get? k =
        ((empty.insert (key b) (value b)).get? k).or (m.get? k) := by
      by_cases hk : k = key b
      · subst hk
        rw [get?_insert_self, get?_insert_self, Option.some_or]
      · rw [get?_insert_of_ne _ _ hk, get?_insert_of_ne _ _ hk, get?_empty, Option.none_or]
    rw [List.foldl_cons, List.foldl_cons, ih, ih (empty.insert _ _), hfirst, Option.or_assoc]

end Bindery.SortedMap
