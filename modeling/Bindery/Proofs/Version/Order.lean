import Bindery.Freshness

/-!
# The order of versions

Every part of the comparison of two versions is transitive, and answers the opposite with the two exchanged; so does
the whole (`instTransCmpOrder`).  Two versions are level if both are empty, or neither is and their components are the
same (`order_eq_eq_iff`).  If a record is too new to an engine, it is to all engines that do not come behind that one
(`order_is_total_preorder`).
-/

namespace Bindery

namespace Version

variable {x y : String}

/-! ### Components -/

instance : Std.TransCmp compareComponent :=
  inferInstanceAs (Std.TransCmp (compareLex (compareOn number) compare))

/-- The text of a component decides where its number does not. -/
instance : Std.LawfulEqCmp compareComponent where
  eq_of_compare h := Std.LawfulEqCmp.eq_of_compare (Ordering.then_eq_eq.1 h).2

@[simp] theorem components_empty : components "" = [] := by decide

/-! ### Versions -/

private instance instTransCmpComponents :
    Std.TransCmp fun x y => List.compareLex compareComponent (components x) (components y) where
  eq_swap := Std.OrientedCmp.eq_swap
  isLE_trans := Std.TransCmp.isLE_trans

instance instTransCmpOrder : Std.TransCmp order :=
  inferInstanceAs (Std.TransCmp (compareLex (compareOn fun x => decide (x ≠ ""))
    fun x y => List.compareLex compareComponent (components x) (components y)))

theorem order_eq_eq_iff :
    order x y = .eq ↔ x = "" ∧ y = "" ∨ x ≠ "" ∧ y ≠ "" ∧ components x = components y := by
  have hsplit : order x y = .eq ↔ (x = "" ↔ y = "") ∧ components x = components y := by
    unfold order
    rw [Ordering.then_eq_eq, Std.LawfulEqCmp.compare_eq_iff_eq, Std.LawfulEqCmp.compare_eq_iff_eq, decide_eq_decide,
      Decidable.not_iff_not]
  rw [hsplit]
  by_cases hx : x = "" <;> by_cases hy : y = "" <;> simp [hx, hy]

end Version

/-! ### Engines -/

namespace Tracker

variable {t t' : Tracker} {fs fs' : FileSystem} {r : BuildRecord} {sources sources' : List Source}

theorem isSome_newerEngine_iff :
    (t.check fs r sources).newerEngine.isSome ↔ Version.order r.engineVersion t.engineVersion = .gt := by
  unfold check
  dsimp only
  split <;> simp [*]

theorem isSome_newerEngine_of_isLE (h : (Version.order t'.engineVersion t.engineVersion).isLE)
    (hnewer : (t.check fs r sources).newerEngine.isSome) : (t'.check fs' r sources').newerEngine.isSome := by
  rw [isSome_newerEngine_iff] at hnewer ⊢
  rw [Std.OrientedCmp.gt_iff_lt] at hnewer ⊢
  exact Std.TransCmp.lt_of_isLE_of_lt h hnewer

end Tracker

namespace Version

/-- Versions are compared by a total preorder, of which versions without text and versions of the same components are
the classes.  The engines to which a record is too new are, with any of them, all that come before it. -/
theorem order_is_total_preorder :
    (∀ x y, order x y = (order y x).swap) ∧
      (∀ x y z, (order x y).isLE → (order y z).isLE → (order x z).isLE) ∧
      (∀ x y, order x y = .eq ↔ x = "" ∧ y = "" ∨ x ≠ "" ∧ y ≠ "" ∧ components x = components y) ∧
      ∀ (r : BuildRecord) (t t' : Tracker) (fs fs' : FileSystem) (sources sources' : List Source),
        (order t'.engineVersion t.engineVersion).isLE → (t.check fs r sources).newerEngine.isSome →
          (t'.check fs' r sources').newerEngine.isSome :=
  ⟨fun _ _ => Std.OrientedCmp.eq_swap, fun _ _ _ => Std.TransCmp.isLE_trans, fun _ _ => order_eq_eq_iff,
    fun _ _ _ _ _ _ _ => Tracker.isSome_newerEngine_of_isLE⟩

/-- Versions in order by the number of a component, by its text and by their length, two that are level, and a record
that is too new to an engine and to one before it. -/
theorem versions_in_order :
    let fs := FileSystem.bare ⟨0⟩
    let r := BuildRecord.ofEngine "1.10a.0" ""
    order "1.9" "1.10" = (order "1.10" "1.9").swap ∧
      (order "1.9" "1.10").isLE ∧ (order "1.10" "1.10a").isLE ∧ (order "1.9" "1.10a").isLE ∧
      order "1..10" ".1.10." = .eq ∧
      (Tracker.check ⟨"1.10a", "", true⟩ fs r []).newerEngine.isSome ∧
      (Tracker.check ⟨"1.10", "", true⟩ fs r [⟨"a", none, false⟩]).newerEngine.isSome := by
  obtain ⟨hswap, htrans, hlevel, hlower⟩ := order_is_total_preorder
  have hlt : (order "1.9" "1.10").isLE := by decide
  have hlt' : (order "1.10" "1.10a").isLE := by decide
  have hnewer : (Tracker.check ⟨"1.10a", "", true⟩ (.bare ⟨0⟩) (.ofEngine "1.10a.0" "") []).newerEngine.isSome :=
    Tracker.isSome_newerEngine_iff.2 (by decide)
  exact ⟨hswap _ _, hlt, hlt', htrans _ _ _ hlt hlt', (hlevel _ _).2 (.inr (by decide)), hnewer,
    hlower _ _ _ _ _ _ _ hlt' hnewer⟩

end Version

end Bindery
