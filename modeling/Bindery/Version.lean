/-!
# Version order

Dotted version texts such as `1.9.0` and `1.10`. A text is its list of non-empty components; two
components compare by their leading decimal digits and then as text, and a list that runs out
first is the lesser. The empty text comes before every other.
-/

namespace Bindery.Version

/-- The largest number a run of digits can denote; longer runs stop there. -/
def numberLimit : Nat := 0xFFFFFFFFFFFFFFFF

/-- The non-empty pieces between dots. -/
def components (version : String) : List String :=
  ((version.toList.splitOn '.').filter (· ≠ [])).map String.ofList

/-- The number that the leading digits of a component denote, zero when there are none. -/
def number (component : String) : Nat :=
  (component.toList.takeWhile Char.isDigit).foldl
    (fun n d => min (n * 10 + (d.toNat - 48)) numberLimit) 0

/-- Compares two components, by number first and then as text. -/
def compareComponent (a b : String) : Ordering :=
  (compare (number a) (number b)).then (compare a b)

def order (x y : String) : Ordering :=
  (compare (decide (x ≠ "")) (decide (y ≠ ""))).then
    (List.compareLex compareComponent (components x) (components y))

/-! ### A version and itself -/

theorem compareComponent_self (a : String) : compareComponent a a = .eq := by
  simp [compareComponent, Std.ReflCmp.compare_self]

@[simp] theorem order_self (x : String) : order x x = .eq := by
  have : Std.ReflCmp compareComponent := ⟨compareComponent_self _⟩
  simp [order, Std.ReflCmp.compare_self]

end Bindery.Version
