import Bindery.Proofs.Version.Order

/-!
# Numbers in versions

The number by which a component is compared is what its leading digits denote, but no more than `numberLimit`
(`number_eq_min`).  From there on components are compared as text, which is by their numbers as well if they have
equally many digits (`lt_of_denoted_lt`).  So the first two components that differ decide by what their digits denote,
below the limit or with equally many digits, and else by their text (`order_of_denoted_lt`).
-/

namespace Bindery.Version

variable {a b x y : String} {before xs ys : List String}

/-! ### Digits -/

/-- The digits that a component begins with. -/
def digits (component : String) : List Char := component.toList.takeWhile Char.isDigit

/-- The number that the digits denote that a component begins with, however many there are. -/
def denoted (component : String) : Nat := Nat.ofDigitChars 10 (digits component) 0

theorem isDigit_of_mem_digits {d : Char} (h : d ∈ digits a) : d.isDigit = true :=
  List.all_eq_true.1 List.all_takeWhile d h

theorem exists_toList_eq (a : String) : ∃ rest, a.toList = digits a ++ rest :=
  ⟨_, List.takeWhile_append_dropWhile.symm⟩

/-- A sum that stops at the limit at every digit is the sum of all digits, stopped at the limit. -/
private theorem foldl_number (ds : List Char) (n : Nat) :
    ds.foldl (fun n d => min (n * 10 + (d.toNat - 48)) numberLimit) (min n numberLimit) =
      min (Nat.ofDigitChars 10 ds n) numberLimit := by
  induction ds generalizing n with
  | nil => rfl
  | cons d ds ih =>
    have hstep : min (min n numberLimit * 10 + (d.toNat - 48)) numberLimit =
        min (10 * n + (d.toNat - '0'.toNat)) numberLimit := by
      have hzero : '0'.toNat = 48 := rfl
      omega
    rw [List.foldl_cons, hstep, ih, Nat.ofDigitChars_cons]

theorem number_eq_min (component : String) : number component = min (denoted component) numberLimit :=
  foldl_number (digits component) 0

/-! ### Numbers and texts -/

private theorem toNat_of_isDigit {d : Char} (h : d.isDigit = true) : 48 ≤ d.toNat ∧ d.toNat ≤ 57 :=
  Char.isDigit_iff_toNat.1 h

/-- Of texts that begin with equally many digits, put behind two numbers, the one that makes the lesser number is the
lesser text, unless its number was the lesser one before. -/
private theorem lt_of_ofDigitChars_lt {ds es : List Char} (rest rest' : List Char) (hlen : ds.length = es.length)
    (hds : ∀ d ∈ ds, d.isDigit = true) (hes : ∀ e ∈ es, e.isDigit = true) {m n : Nat}
    (h : Nat.ofDigitChars 10 ds m < Nat.ofDigitChars 10 es n) : m < n ∨ m = n ∧ ds ++ rest < es ++ rest' := by
  induction ds generalizing es m n with
  | nil =>
    obtain rfl : es = [] := List.length_eq_zero_iff.1 hlen.symm
    exact .inl h
  | cons d ds ih =>
    cases es with
    | nil => cases hlen
    | cons e es =>
      rw [Nat.ofDigitChars_cons, Nat.ofDigitChars_cons] at h
      have hd := toNat_of_isDigit (hds d List.mem_cons_self)
      have he := toNat_of_isDigit (hes e List.mem_cons_self)
      have hzero : '0'.toNat = 48 := rfl
      rw [List.cons_append, List.cons_append, List.cons_lt_cons_iff]
      by_cases hmn : m < n
      · exact .inl hmn
      refine .inr ?_
      rcases ih (Nat.succ.inj hlen) (fun d hd => hds d (List.mem_cons_of_mem _ hd))
        (fun e he => hes e (List.mem_cons_of_mem _ he)) h with hlt | ⟨heq, hlt⟩
      · have hde : d.toNat < e.toNat := by omega
        exact ⟨by omega, .inl hde⟩
      · have hde : d = e := Char.toNat_inj.1 (by omega)
        exact ⟨by omega, .inr ⟨hde, hlt⟩⟩

private theorem compare_eq_lt_iff : compare a b = .lt ↔ a < b := compareOfLessAndEq_eq_lt

/-- With equally many digits, the lesser number is the lesser text. -/
theorem lt_of_denoted_lt (hlen : (digits a).length = (digits b).length) (h : denoted a < denoted b) : a < b := by
  obtain ⟨rest, ha⟩ := exists_toList_eq a
  obtain ⟨rest', hb⟩ := exists_toList_eq b
  rw [String.lt_iff, ha, hb]
  rcases lt_of_ofDigitChars_lt rest rest' hlen (fun _ => isDigit_of_mem_digits) (fun _ => isDigit_of_mem_digits) h with
    hlt | ⟨-, hlt⟩
  · exact absurd hlt (Nat.lt_irrefl 0)
  · exact hlt

/-! ### Components -/

theorem compareComponent_of_denoted_lt (h : denoted a < denoted b) :
    compareComponent a b = if denoted a < numberLimit then .lt else compare a b := by
  unfold compareComponent
  rw [number_eq_min, number_eq_min]
  split
  · next ha =>
    have hlt : min (denoted a) numberLimit < min (denoted b) numberLimit := by omega
    rw [Nat.compare_eq_lt.2 hlt]
    rfl
  · next ha =>
    have heq : min (denoted a) numberLimit = min (denoted b) numberLimit := by omega
    rw [Nat.compare_eq_eq.2 heq]
    rfl

private theorem compareLex_append (before xs ys : List String) :
    List.compareLex compareComponent (before ++ xs) (before ++ ys) = List.compareLex compareComponent xs ys := by
  induction before with
  | nil => rfl
  | cons a before ih =>
    rw [List.cons_append, List.cons_append, List.compareLex_cons_cons, compareComponent_self, ih]
    rfl

/-- The first two components that are not level decide. -/
theorem order_of_components (hx : components x = before ++ a :: xs) (hy : components y = before ++ b :: ys)
    (h : compareComponent a b ≠ .eq) : order x y = compareComponent a b := by
  have hne {z : String} {cs : List String} {c : String} (hz : components z = before ++ c :: cs) : z ≠ "" := by
    rintro rfl
    rw [components_empty] at hz
    simp at hz
  have htext : compare (decide (x ≠ "")) (decide (y ≠ "")) = .eq := by
    rw [decide_eq_true (hne hx), decide_eq_true (hne hy)]
    rfl
  unfold order
  rw [htext, hx, hy, compareLex_append, List.compareLex_cons_cons]
  cases hc : compareComponent a b with
  | eq => exact absurd hc h
  | lt => rfl
  | gt => rfl

/-! ### Versions -/

/-- Of versions whose components are the same up to two of which the first denotes a lesser number, the first comes
before the second if that number is below the limit, or if its text comes first; so it does if both numbers have equally
many digits.  Otherwise it comes behind. -/
theorem order_of_denoted_lt (hx : components x = before ++ a :: xs) (hy : components y = before ++ b :: ys)
    (h : denoted a < denoted b) :
    (order x y = .lt ↔ denoted a < numberLimit ∨ a < b) ∧
      ((digits a).length = (digits b).length → order x y = .lt) ∧
      (order x y = .gt ↔ numberLimit ≤ denoted a ∧ b < a) := by
  have hne : compareComponent a b ≠ .eq := by
    intro heq
    rw [Std.LawfulEqCmp.eq_of_compare heq] at h
    exact Nat.lt_irrefl _ h
  have horder := order_of_components hx hy hne
  rw [compareComponent_of_denoted_lt h] at horder
  have hlt : order x y = .lt ↔ denoted a < numberLimit ∨ a < b := by
    rw [horder]
    split
    · next ha => exact iff_of_true rfl (.inl ha)
    · next ha => rw [compare_eq_lt_iff, or_iff_right ha]
  refine ⟨hlt, fun hlen => hlt.2 (.inr (lt_of_denoted_lt hlen h)), ?_⟩
  rw [horder]
  split
  · next ha => exact iff_of_false nofun fun hle => absurd ha (Nat.not_lt.2 hle.1)
  · next ha => rw [Std.OrientedCmp.gt_iff_lt, compare_eq_lt_iff, and_iff_right (Nat.not_lt.1 ha)]

/-- Numbers of one digit and of two, the last one below the limit and one above it, and two that are above it and have
equally many digits. -/
theorem numbers_around_limit :
    order "1.9" "1.10" = .lt ∧ order "1.18446744073709551614.2" "1.18446744073709551616.1" = .lt ∧
      order "2..99999999999999999998rc" "2.99999999999999999999" = .lt := by
  refine ⟨?_, ?_, ?_⟩
  · have hx : components "1.9" = ["1"] ++ "9" :: [] := by decide
    have hy : components "1.10" = ["1"] ++ "10" :: [] := by decide
    exact (order_of_denoted_lt hx hy (by decide)).1.2 (.inl (by decide))
  · have hx : components "1.18446744073709551614.2" = ["1"] ++ "18446744073709551614" :: ["2"] := by decide
    have hy : components "1.18446744073709551616.1" = ["1"] ++ "18446744073709551616" :: ["1"] := by decide
    exact (order_of_denoted_lt hx hy (by decide)).1.2 (.inl (by decide))
  · have hx : components "2..99999999999999999998rc" = ["2"] ++ "99999999999999999998rc" :: [] := by decide
    have hy : components "2.99999999999999999999" = ["2"] ++ "99999999999999999999" :: [] := by decide
    exact (order_of_denoted_lt hx hy (by decide)).2.1 (by decide)

/-- A number of twenty digits comes behind one of twenty-one, since both are above the limit. -/
theorem twenty_digits_behind_more :
    components "99999999999999999999" = ["99999999999999999999"] ∧
      components "100000000000000000000" = ["100000000000000000000"] ∧
      denoted "99999999999999999999" < denoted "100000000000000000000" ∧
      order "99999999999999999999" "100000000000000000000" = .gt := by
  decide

end Bindery.Version
