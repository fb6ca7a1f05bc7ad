/-!
# Sorted maps

Finite maps kept as a list of pairs in strictly increasing order of their keys, so that two maps
with the same lookups are the same value (`SortedMap.ext_get?`).
-/

namespace Bindery

/-- A finite map, its pairs in strictly increasing order of keys. -/
structure SortedMap (κ : Type u) (α : Type v) [Ord κ] where
  entries : List (κ × α)
  sorted : entries.Pairwise fun a b => compare a.1 b.1 = .lt

namespace SortedMap

variable {κ : Type u} {α : Type v} [Ord κ]

instance [DecidableEq κ] [DecidableEq α] : DecidableEq (SortedMap κ α) := fun a b =>
  decidable_of_iff (a.entries = b.entries)
    ⟨fun h => by cases a; cases b; cases h; rfl, fun h => h ▸ rfl⟩

def empty : SortedMap κ α := ⟨[], .nil⟩

instance : Inhabited (SortedMap κ α) := ⟨empty⟩

/-- The value first paired with a key. -/
def lookup (k : κ) : List (κ × α) → Option α
  | [] => none
  | (k', v) :: rest => if compare k k' = .eq then some v else lookup k rest

/-- The value stored under a key. -/
def get? (m : SortedMap κ α) (k : κ) : Option α := lookup k m.entries

def keys (m : SortedMap κ α) : List κ := m.entries.map Prod.fst

def size (m : SortedMap κ α) : Nat := m.entries.length

def filter (m : SortedMap κ α) (keep : κ → α → Bool) : SortedMap κ α :=
  ⟨m.entries.filter fun p => keep p.1 p.2, m.sorted.filter _⟩

def erase (m : SortedMap κ α) (k : κ) : SortedMap κ α :=
  m.filter fun k' _ => compare k k' ≠ .eq

@[simp] theorem get?_empty (k : κ) : (empty : SortedMap κ α).get? k = none := rfl

private theorem lookup_eq_none_of_lt {k : κ} :
    ∀ {l : List (κ × α)}, (∀ p ∈ l, compare k p.1 = .lt) → lookup k l = none
  | [], _ => rfl
  | (k', v) :: rest, h => by
    have := h (k', v) List.mem_cons_self
    simp only [lookup, this, reduceCtorEq, if_false]
    exact lookup_eq_none_of_lt fun p hp => h p (List.mem_cons_of_mem _ hp)

/-- Puts a pair in its place and drops an older one with the same key. -/
def place (k : κ) (v : α) : List (κ × α) → List (κ × α)
  | [] => [(k, v)]
  | (k', v') :: rest =>
    match compare k k' with
    | .lt => (k, v) :: (k', v') :: rest
    | .eq => (k, v) :: rest
    | .gt => (k', v') :: place k v rest

theorem mem_place {k : κ} {v : α} {p : κ × α} :
    ∀ {l : List (κ × α)}, p ∈ place k v l → p = (k, v) ∨ p ∈ l
  | [], h => by simpa [place] using h
  | (k', v') :: rest, h => by
    unfold place at h
    split at h
    · simpa using h
    · rcases List.mem_cons.1 h with rfl | h
      · exact .inl rfl
      · exact .inr (List.mem_cons_of_mem _ h)
    · rcases List.mem_cons.1 h with rfl | h
      · exact .inr List.mem_cons_self
      · exact (mem_place h).imp id (List.mem_cons_of_mem _)

section Lawful

variable [Std.LawfulEqOrd κ]

private theorem lookup_place_self (k : κ) (v : α) :
    ∀ l : List (κ × α), lookup k (place k v l) = some v
  | [] => by simp [place, lookup, Std.ReflCmp.compare_self]
  | (k', v') :: rest => by
    unfold place
    split
    · simp [lookup, Std.ReflCmp.compare_self]
    · simp [lookup, Std.ReflCmp.compare_self]
    · next h => simp [lookup, h, lookup_place_self k v rest]

private theorem lookup_place_other {k j : κ} (v : α) (h : j ≠ k) :
    ∀ l : List (κ × α), lookup j (place k v l) = lookup j l
  | [] => by simp [place, lookup, h]
  | (k', v') :: rest => by
    unfold place
    split
    · simp [lookup, h]
    · next heq =>
      cases Std.LawfulEqCmp.eq_of_compare heq
      simp [lookup, h]
    · simp [lookup, lookup_place_other v h rest]

private theorem lookup_filter (keep : κ → α → Bool) (k : κ) :
    ∀ {l : List (κ × α)}, l.Pairwise (fun a b => compare a.1 b.1 = .lt) →
      lookup k (l.filter fun p => keep p.1 p.2) = (lookup k l).filter (keep k)
  | [], _ => rfl
  | (k', v) :: rest, h => by
    have ih := lookup_filter keep k h.of_cons
    by_cases hk : k = k'
    · subst hk
      have hrest : lookup k (rest.filter fun p => keep p.1 p.2) = none := by
        rw [ih]
        suffices hl : lookup k rest = none by simp [hl]
        have hall := fun p (hp : p ∈ rest) => List.rel_of_pairwise_cons h hp
        clear ih h
        induction rest with
        | nil => rfl
        | cons q rest ih =>
          obtain ⟨k', v'⟩ := q
          have := hall (k', v') List.mem_cons_self
          simp only [lookup, this, reduceCtorEq, if_false]
          exact ih fun p hp => hall p (List.mem_cons_of_mem _ hp)
      by_cases hv : keep k v <;> simp [lookup, hv, hrest, Option.filter, Std.ReflCmp.compare_self]
    · by_cases hv : keep k' v <;> simp [lookup, hv, hk, ih]

theorem get?_filter (m : SortedMap κ α) (keep : κ → α → Bool) (k : κ) :
    (m.filter keep).get? k = (m.get? k).filter (keep k) := lookup_filter keep k m.sorted

@[simp] theorem get?_erase_self (m : SortedMap κ α) (k : κ) : (m.erase k).get? k = none := by
  simp only [erase, get?_filter, Std.ReflCmp.compare_self]
  cases m.get? k <;> rfl

theorem get?_erase_of_ne (m : SortedMap κ α) {k j : κ} (h : j ≠ k) :
    (m.erase k).get? j = m.get? j := by
  simp only [erase, get?_filter]
  cases m.get? j with
  | none => rfl
  | some v => simp [Option.filter, Ne.symm h]

theorem get?_erase [DecidableEq κ] (m : SortedMap κ α) (k j : κ) :
    (m.erase k).get? j = if j = k then none else m.get? j := by
  split
  · next h => rw [h, get?_erase_self]
  · next h => exact get?_erase_of_ne m h

variable [Std.TransOrd κ]

theorem sorted_place (k : κ) (v : α) :
    ∀ {l : List (κ × α)}, l.Pairwise (fun a b => compare a.1 b.1 = .lt) →
      (place k v l).Pairwise fun a b => compare a.1 b.1 = .lt
  | [], _ => by simp [place]
  | (k', v') :: rest, h => by
    have hr := fun p (hp : p ∈ rest) => List.rel_of_pairwise_cons h hp
    unfold place
    split
    · next hlt =>
      refine h.cons fun p hp => ?_
      rcases List.mem_cons.1 hp with rfl | hp
      · exact hlt
      · exact Std.TransCmp.lt_trans hlt (hr p hp)
    · next heq =>
      cases Std.LawfulEqCmp.eq_of_compare heq
      exact h.of_cons.cons fun p hp => hr p hp
    · next hgt =>
      refine (sorted_place k v h.of_cons).cons fun p hp => ?_
      rcases mem_place hp with rfl | hp
      · exact Std.OrientedCmp.lt_of_gt hgt
      · exact hr p hp

/-- Stores a value under a key, replacing an earlier one. -/
def insert (m : SortedMap κ α) (k : κ) (v : α) : SortedMap κ α :=
  ⟨place k v m.entries, sorted_place k v m.sorted⟩

/-- Stores pairs one after the other; of two with the same key the later stays. -/
def ofList (pairs : List (κ × α)) : SortedMap κ α :=
  pairs.foldl (fun m p => m.insert p.1 p.2) empty

/-! ### Lookups -/

@[simp] theorem get?_insert_self (m : SortedMap κ α) (k : κ) (v : α) :
    (m.insert k v).get? k = some v := lookup_place_self k v _

theorem get?_insert_of_ne (m : SortedMap κ α) {k j : κ} (v : α) (h : j ≠ k) :
    (m.insert k v).get? j = m.get? j := lookup_place_other v h _

theorem get?_insert [DecidableEq κ] (m : SortedMap κ α) (k j : κ) (v : α) :
    (m.insert k v).get? j = if j = k then some v else m.get? j := by
  split
  · next h => rw [h, get?_insert_self]
  · next h => exact get?_insert_of_ne m v h

/-! ### Extensionality -/

private theorem entries_ext :
    ∀ {l₁ l₂ : List (κ × α)}, l₁.Pairwise (fun a b => compare a.1 b.1 = .lt) →
      l₂.Pairwise (fun a b => compare a.1 b.1 = .lt) →
      (∀ k, lookup k l₁ = lookup k l₂) → l₁ = l₂
  | [], [], _, _, _ => rfl
  | [], (k, v) :: _, _, _, h => by simpa [lookup, Std.ReflCmp.compare_self] using h k
  | (k, v) :: _, [], _, _, h => by simpa [lookup, Std.ReflCmp.compare_self] using h k
  | (k₁, v₁) :: r₁, (k₂, v₂) :: r₂, h₁, h₂, h => by
    have hr₁ := fun p (hp : p ∈ r₁) => List.rel_of_pairwise_cons h₁ hp
    have hr₂ := fun p (hp : p ∈ r₂) => List.rel_of_pairwise_cons h₂ hp
    have hk : k₁ = k₂ := by
      cases hc : compare k₁ k₂ with
      | eq => exact Std.LawfulEqCmp.eq_of_compare hc
      | lt =>
        have h1 := h k₁
        rw [lookup_eq_none_of_lt (l := (k₂, v₂) :: r₂) fun p hp => by
          rcases List.mem_cons.1 hp with rfl | hp
          · exact hc
          · exact Std.TransCmp.lt_trans hc (hr₂ p hp)] at h1
        simp [lookup, Std.ReflCmp.compare_self] at h1
      | gt =>
        have hc' := Std.OrientedCmp.lt_of_gt hc
        have h1 := h k₂
        rw [lookup_eq_none_of_lt (l := (k₁, v₁) :: r₁) fun p hp => by
          rcases List.mem_cons.1 hp with rfl | hp
          · exact hc'
          · exact Std.TransCmp.lt_trans hc' (hr₁ p hp)] at h1
        simp [lookup, Std.ReflCmp.compare_self] at h1
    subst hk
    have hv : v₁ = v₂ := by simpa [lookup, Std.ReflCmp.compare_self] using h k₁
    subst hv
    congr 1
    refine entries_ext h₁.of_cons h₂.of_cons fun k => ?_
    by_cases hk : k = k₁
    · subst hk
      rw [lookup_eq_none_of_lt hr₁, lookup_eq_none_of_lt hr₂]
    · simpa [lookup, hk] using h k

/-- Maps with the same lookups are equal. -/
theorem ext_get? {m₁ m₂ : SortedMap κ α} (h : ∀ k, m₁.get? k = m₂.get? k) : m₁ = m₂ := by
  cases m₁; cases m₂
  congr
  exact entries_ext (by assumption) (by assumption) h

end Lawful

end SortedMap

end Bindery
