import Bindery.Proofs.Path.Beneath

/-!
# Paths of several components

A path is nested if it has more components than one, which is to say that there is something above the last one
(`isNested_iff`).  Text put at the end of a path takes no component away (`length_components_le_append`), so nested
paths stay nested (`IsNested.append`).
-/

namespace Bindery.Path

variable {p : Path} {last first : List UInt8} {pieces front rest : List (List UInt8)}

/-- The path has more components than one. -/
def IsNested (p : Path) : Prop := 2 ≤ p.components.length

instance (p : Path) : Decidable p.IsNested := inferInstanceAs (Decidable (_ ≤ _))

/-! ### What is above the last component -/

theorem split_fst (p : Path) :
    p.split.1 = if p.isAbsolute then some .root else if p.pieces.head? = some dot then some .current else none := by
  unfold split
  split
  · rfl
  split <;> rfl

theorem startText_split_eq_nil : startText p.split.1 = [] ↔ p.split.1 = none := by
  rw [split_fst]
  split
  · simp [startText]
  split <;> simp [startText, dot]

/-- A list of pieces without those at its end that are no components is empty, or its last piece is a component. -/
private theorem trimEnd_eq (pieces : List (List UInt8)) :
    trimEnd pieces = [] ∨ ∃ front last c, trimEnd pieces = front ++ [last] ∧ componentOfPiece last = some c := by
  rcases List.eq_nil_or_concat (trimEnd pieces) with h | ⟨front, last, h⟩
  · exact .inl h
  · rw [List.concat_eq_append] at h
    have hlast : (trimEnd pieces).getLast? = some last := by rw [h, List.getLast?_concat]
    obtain ⟨c, hc⟩ := Option.ne_none_iff_exists'.1 (getLast?_trimEnd hlast)
    exact .inr ⟨front, last, c, h, hc⟩

private theorem joinPieces_trimEnd_eq_nil :
    joinPieces (trimEnd pieces) = [] ↔ pieces.filterMap componentOfPiece = [] := by
  rw [← filterMap_trimEnd]
  rcases trimEnd_eq pieces with h | ⟨front, last, c, h, hc⟩
  · rw [h]
    exact iff_of_true rfl rfl
  · rw [h]
    refine iff_of_false ?_ (by simp [List.filterMap_append, List.filterMap_cons_some hc])
    by_cases hfront : front = []
    · rw [hfront, List.nil_append, joinPieces, List.intercalate_singleton]
      rintro rfl
      cases hc
    · rw [joinPieces_append hfront (List.cons_ne_nil _ _)]
      simp

private theorem parent?_of_trimEnd_eq_nil (h : trimEnd (p.split.2.splitOn slash) = []) :
    p.parent? = if p.split.1 = some .current then some ⟨[]⟩ else none := by
  unfold parent?
  rw [h]
  rfl

private theorem parent?_of_trimEnd_eq_append (h : trimEnd (p.split.2.splitOn slash) = front ++ [last]) :
    p.parent? = some ⟨startText p.split.1 ++ joinPieces (trimEnd front)⟩ := by
  unfold parent?
  rw [h, List.reverse_append, List.reverse_singleton, List.singleton_append]
  dsimp only
  rw [List.reverse_reverse]

/-- What is put together of the start and the pieces before the last component is empty if there is no component in
it. -/
private theorem isEmpty_startText_append :
    (⟨startText p.split.1 ++ joinPieces (trimEnd front)⟩ : Path).isEmpty = true ↔
      p.split.1.toList ++ front.filterMap componentOfPiece = [] := by
  rw [isEmpty, List.isEmpty_iff, List.append_eq_nil_iff, List.append_eq_nil_iff, startText_split_eq_nil,
    joinPieces_trimEnd_eq_nil, Option.toList_eq_nil_iff]

/-- Something is above the last component of a nested path, and only of such a one. -/
theorem isNested_iff : p.IsNested ↔ ∃ above, p.parent? = some above ∧ above.isEmpty = false := by
  have hcomponents :
      p.components = p.split.1.toList ++ (trimEnd (p.split.2.splitOn slash)).filterMap componentOfPiece := by
    rw [filterMap_trimEnd, components]
  unfold IsNested
  rw [hcomponents]
  rcases trimEnd_eq (p.split.2.splitOn slash) with h | ⟨front, last, c, h, hc⟩
  · rw [h, parent?_of_trimEnd_eq_nil h, List.filterMap_nil, List.append_nil]
    refine iff_of_false ?_ ?_
    · cases p.split.1 <;> simp
    · rintro ⟨above, habove, hne⟩
      split at habove
      · obtain rfl := Option.some.inj habove
        cases hne
      · cases habove
  · rw [h, parent?_of_trimEnd_eq_append h, List.filterMap_append, List.filterMap_cons_some hc, List.filterMap_nil,
      ← List.append_assoc, List.length_append, List.length_singleton]
    simp only [Option.some.injEq, exists_eq_left']
    rw [Bool.eq_false_iff, ne_eq, isEmpty_startText_append, ← List.length_eq_zero_iff]
    omega

/-! ### Text at the end -/

/-- The last piece of a text goes on with the first one of the text put behind it. -/
private theorem exists_splitOn_append (xs ys : List UInt8) :
    ∃ front last first rest, xs.splitOn slash = front ++ [last] ∧
      (xs ++ ys).splitOn slash = front ++ (last ++ first) :: rest := by
  induction xs with
  | nil =>
    obtain ⟨first, rest, hs⟩ := List.exists_cons_of_ne_nil (List.splitOn_ne_nil slash ys)
    exact ⟨[], [], first, rest, rfl, hs⟩
  | cons b xs ih =>
    obtain ⟨front, last, first, rest, hxs, happend⟩ := ih
    rw [List.cons_append, List.splitOn_cons_eq_if_modifyHead, List.splitOn_cons_eq_if_modifyHead, hxs, happend]
    split
    · exact ⟨[] :: front, last, first, rest, rfl, rfl⟩
    · cases front with
      | nil => exact ⟨[], b :: last, first, rest, rfl, rfl⟩
      | cons piece front => exact ⟨(b :: piece) :: front, last, first, rest, rfl, rfl⟩

private theorem exists_pieces_append (p : Path) (text : String) :
    ∃ front last first rest, p.pieces = front ++ [last] ∧
      (p.append text).pieces = front ++ (last ++ first) :: rest :=
  exists_splitOn_append p.bytes (Text.encode text)

private theorem componentOfPiece_append_ne_none (h : componentOfPiece last ≠ none) :
    componentOfPiece (last ++ first) ≠ none := by
  rw [ne_eq, componentOfPiece_eq_none] at h ⊢
  rintro (hnil | hdot)
  · exact h (.inl (List.append_eq_nil_iff.1 hnil).1)
  · rcases List.append_eq_singleton_iff.1 hdot with ⟨hlast, -⟩ | ⟨hlast, -⟩
    · exact h (.inl hlast)
    · exact h (.inr hlast)

private theorem length_filterMap_le_append :
    ((front ++ [last]).filterMap componentOfPiece).length ≤
      ((front ++ (last ++ first) :: rest).filterMap componentOfPiece).length := by
  rw [List.filterMap_append, List.filterMap_append, List.length_append, List.length_append]
  refine Nat.add_le_add_left ?_ _
  cases hlast : componentOfPiece last with
  | none =>
    rw [List.filterMap_cons_none hlast]
    exact Nat.zero_le _
  | some c =>
    have happend : componentOfPiece (last ++ first) ≠ none := componentOfPiece_append_ne_none (by simp [hlast])
    obtain ⟨c', hc'⟩ := Option.ne_none_iff_exists'.1 happend
    rw [List.filterMap_cons_some hlast, List.filterMap_cons_some hc']
    exact Nat.succ_le_succ (Nat.zero_le _)

theorem isEmpty_append (hp : p.isEmpty = false) (text : String) : (p.append text).isEmpty = false := by
  obtain ⟨bytes⟩ := p
  cases bytes with
  | nil => cases hp
  | cons b bytes => rfl

theorem isAbsolute_append (hp : p.isEmpty = false) (text : String) : (p.append text).isAbsolute = p.isAbsolute := by
  obtain ⟨bytes⟩ := p
  cases bytes with
  | nil => cases hp
  | cons b bytes => rfl

private theorem length_start_le_append (hp : p.isEmpty = false) (hdot : p.pieces ≠ [dot]) (text : String) :
    p.split.1.toList.length ≤ (p.append text).split.1.toList.length := by
  obtain ⟨front, last, first, rest, hpieces, happend⟩ := exists_pieces_append p text
  rw [split_fst, split_fst, isAbsolute_append hp, happend, hpieces]
  split
  · exact Nat.le_refl _
  · cases front with
    | nil =>
      have hlast : last ≠ dot := fun hlast => hdot (by rw [hpieces, hlast]; rfl)
      rw [if_neg (by simpa using hlast)]
      exact Nat.zero_le _
    | cons piece front => exact Nat.le_refl _

/-- Text put at the end of a path takes no component away. -/
theorem length_components_le_append (p : Path) (text : String) :
    p.components.length ≤ (p.append text).components.length := by
  cases hp : p.isEmpty with
  | true =>
    rw [components_of_isEmpty hp]
    exact Nat.zero_le _
  | false =>
    by_cases hdot : p.pieces = [dot]
    -- the dot can become part of a name, which is a component in its place
    · have hpos := List.length_pos_iff.2 (components_ne_nil (isEmpty_append hp text))
      rw [components_eq, hdot]
      cases p.split.1 with
      | none => exact Nat.zero_le _
      | some c => exact hpos
    · obtain ⟨front, last, first, rest, hpieces, happend⟩ := exists_pieces_append p text
      rw [components_eq, components_eq, List.length_append, List.length_append]
      refine Nat.add_le_add (length_start_le_append hp hdot text) ?_
      rw [hpieces, happend]
      exact length_filterMap_le_append

theorem IsNested.append (h : p.IsNested) (text : String) : (p.append text).IsNested :=
  Nat.le_trans h (length_components_le_append p text)

end Bindery.Path
