import Bindery.Path.Basic
import Mathlib.Data.List.Basic

/-!
# Components of paths

A path's components are its start, where that is one, and those of its pieces (`components_eq`).  The pieces of a path
put behind another one follow the pieces of that (`pieces_join`), and so do its components (`components_join`).
-/

namespace Bindery.Path

variable {p q : Path} {piece : List UInt8} {pieces : List (List UInt8)}

/-! ### Pieces -/

theorem not_mem_of_mem_splitOn {a : UInt8} {bytes : List UInt8} (h : piece ∈ bytes.splitOn a) : a ∉ piece := by
  induction bytes generalizing piece with
  | nil =>
    obtain rfl : piece = [] := by simpa using h
    simp
  | cons b bytes ih =>
    rw [List.splitOn_cons_eq_if_modifyHead] at h
    split at h
    · rcases List.mem_cons.1 h with rfl | h
      · simp
      · exact ih h
    · next hb =>
      cases hs : bytes.splitOn a with
      | nil => rw [hs] at h; cases h
      | cons first rest =>
        rw [hs, List.modifyHead_cons] at h
        rcases List.mem_cons.1 h with rfl | h
        · have hfirst : a ∉ first := ih (hs ▸ List.mem_cons_self)
          have hne : a ≠ b := fun h => hb (by simp [h])
          simp [hfirst, hne]
        · exact ih (hs ▸ List.mem_cons_of_mem _ h)

theorem joinPieces_pieces (p : Path) : joinPieces p.pieces = p.bytes := List.intercalate_splitOn slash

theorem joinPieces_append {pieces' : List (List UInt8)} (h : pieces ≠ []) (h' : pieces' ≠ []) :
    joinPieces (pieces ++ pieces') = joinPieces pieces ++ slash :: joinPieces pieces' := by
  unfold joinPieces
  induction pieces with
  | nil => exact absurd rfl h
  | cons piece pieces ih =>
    cases pieces with
    | nil =>
      rw [List.singleton_append, List.intercalate_cons_of_ne_nil h', List.intercalate_singleton, List.append_assoc]
      rfl
    | cons next pieces =>
      rw [List.cons_append, List.cons_append, List.intercalate_cons_cons, List.intercalate_cons_cons,
        ← List.cons_append, ih (List.cons_ne_nil _ _), List.append_assoc, List.append_assoc, List.append_assoc]

theorem pieces_joinPieces (h : ∀ piece ∈ pieces, slash ∉ piece) (hne : pieces ≠ []) :
    (⟨joinPieces pieces⟩ : Path).pieces = pieces :=
  List.splitOn_intercalate slash h hne

/-! ### Pieces that are no components -/

theorem componentOfPiece_eq_none : componentOfPiece piece = none ↔ piece = [] ∨ piece = dot := by
  unfold componentOfPiece
  split
  · next h => exact iff_of_true rfl h
  · next h =>
    refine iff_of_false ?_ h
    split <;> simp

theorem trimFront_cons_of_eq_none (h : componentOfPiece piece = none) :
    trimFront (piece :: pieces) = trimFront pieces := by
  unfold trimFront
  rw [List.dropWhile_cons_of_pos (by rw [h]; rfl)]

theorem trimFront_cons_of_eq_some {c : Component} (h : componentOfPiece piece = some c) :
    trimFront (piece :: pieces) = piece :: pieces := by
  unfold trimFront
  rw [List.dropWhile_cons_of_neg (by rw [h]; simp)]

@[simp] theorem filterMap_trimFront (pieces : List (List UInt8)) :
    (trimFront pieces).filterMap componentOfPiece = pieces.filterMap componentOfPiece := by
  induction pieces with
  | nil => rfl
  | cons piece pieces ih =>
    cases h : componentOfPiece piece with
    | none => rw [trimFront_cons_of_eq_none h, ih, List.filterMap_cons_none h]
    | some c => rw [trimFront_cons_of_eq_some h]

@[simp] theorem filterMap_trimEnd (pieces : List (List UInt8)) :
    (trimEnd pieces).filterMap componentOfPiece = pieces.filterMap componentOfPiece := by
  rw [trimEnd, List.filterMap_reverse, filterMap_trimFront, ← List.filterMap_reverse, List.reverse_reverse]

/-! ### The start of a path -/

theorem isAbsolute_eq_true : p.isAbsolute = true ↔ ∃ bytes, p.bytes = slash :: bytes := by
  unfold isAbsolute
  rw [decide_eq_true_eq, List.head?_eq_some_iff]

private theorem pieces_eq_cons {b : UInt8} {bytes : List UInt8} (habs : ¬ p.isAbsolute = true)
    (hp : p.bytes = b :: bytes) :
    ∃ first rest, bytes.splitOn slash = first :: rest ∧ p.pieces = (b :: first) :: rest := by
  obtain ⟨first, rest, hs⟩ := List.exists_cons_of_ne_nil (List.splitOn_ne_nil slash bytes)
  have hb : (b == slash) = false := beq_eq_false_iff_ne.2 fun hb => habs (isAbsolute_eq_true.2 ⟨bytes, hb ▸ hp⟩)
  refine ⟨first, rest, hs, ?_⟩
  rw [pieces, hp, List.splitOn_cons_eq_if_modifyHead, hb, if_neg Bool.false_ne_true, hs, List.modifyHead_cons]

/-- Behind the start there are the same components as in the path's pieces. -/
theorem trimFront_split (p : Path) : trimFront (p.split.2.splitOn slash) = trimFront p.pieces := by
  unfold split
  split
  · next habs =>
    obtain ⟨bytes, hp⟩ := isAbsolute_eq_true.1 habs
    rw [pieces, hp, List.splitOn_cons_eq_if_modifyHead, if_pos (beq_self_eq_true slash)]
    exact (trimFront_cons_of_eq_none rfl).symm
  split
  · next habs hdot =>
    cases hp : p.bytes with
    | nil => rw [pieces, hp] at hdot; cases hdot
    | cons b bytes =>
      obtain ⟨first, rest, hs, hpieces⟩ := pieces_eq_cons habs hp
      rw [hpieces] at hdot
      obtain ⟨rfl, rfl⟩ := List.cons.inj (Option.some.inj hdot)
      rw [hpieces]
      show trimFront (bytes.splitOn slash) = trimFront (dot :: rest)
      rw [hs, trimFront_cons_of_eq_none rfl, trimFront_cons_of_eq_none rfl]
  · rfl

theorem components_eq (p : Path) : p.components = p.split.1.toList ++ p.pieces.filterMap componentOfPiece := by
  rw [components, ← filterMap_trimFront, trimFront_split, filterMap_trimFront]

theorem components_ne_nil (h : p.isEmpty = false) : p.components ≠ [] := by
  rw [components_eq]
  unfold split
  split
  · simp
  split
  · simp
  · next habs hdot =>
    cases hp : p.bytes with
    | nil => rw [isEmpty, hp] at h; cases h
    | cons b bytes =>
      obtain ⟨first, rest, -, hpieces⟩ := pieces_eq_cons habs hp
      have hfirst : componentOfPiece (b :: first) ≠ none := by
        rw [hpieces] at hdot
        rw [ne_eq, componentOfPiece_eq_none]
        exact fun hnone => hnone.elim (List.cons_ne_nil _ _) fun hnone => hdot (congrArg some hnone)
      obtain ⟨c, hc⟩ := Option.ne_none_iff_exists'.1 hfirst
      rw [hpieces, List.filterMap_cons_some hc]
      simp

theorem components_of_isEmpty (h : p.isEmpty = true) : p.components = [] := by
  obtain ⟨bytes⟩ := p
  obtain rfl : bytes = [] := List.isEmpty_iff.1 h
  rfl

theorem isEmpty_of_isAbsolute (h : p.isAbsolute = true) : p.isEmpty = false := by
  obtain ⟨bytes, hp⟩ := isAbsolute_eq_true.1 h
  rw [isEmpty, hp]
  rfl

/-! ### Joined paths -/

theorem join_of_isEmpty (hp : p.isEmpty = true) : p.join q = q := by
  have hbytes : p.bytes = [] := List.isEmpty_iff.1 hp
  unfold join
  rw [hp, hbytes]
  split <;> rfl

theorem isEmpty_join (hq : q.isEmpty = false) : (p.join q).isEmpty = false := by
  unfold isEmpty at hq ⊢
  rw [List.isEmpty_eq_false_iff] at hq ⊢
  unfold join
  split
  · exact hq
  split
  · exact List.append_ne_nil_of_right_ne_nil _ hq
  · exact List.append_ne_nil_of_right_ne_nil _ (List.cons_ne_nil _ _)

theorem isAbsolute_join (hq : q.isAbsolute = false) : (p.join q).isAbsolute = p.isAbsolute := by
  unfold join
  rw [if_neg (by simp [hq])]
  obtain ⟨bytes⟩ := p
  cases bytes with
  | nil => simpa [isAbsolute, isEmpty] using hq
  | cons b bytes => split <;> simp [isAbsolute]

theorem pieces_join (hp : p.isEmpty = false) (hq : q.isAbsolute = false) :
    ∃ before, before ≠ [] ∧ (p.join q).pieces = before ++ q.pieces ∧
      (p.pieces = before ∨ p.pieces = before ++ [[]]) := by
  have hsplit (bytes : List UInt8) : (bytes ++ slash :: q.bytes).splitOn slash = bytes.splitOn slash ++ q.pieces :=
    List.splitOn_append_cons_self _ _
  unfold join
  rw [if_neg (by simp [hq]), hp, Bool.false_or]
  split
  · next h =>
    rw [decide_eq_true_eq] at h
    obtain ⟨bytes, hbytes⟩ := List.getLast?_eq_some_iff.1 h
    refine ⟨bytes.splitOn slash, List.splitOn_ne_nil _ _, ?_, .inr ?_⟩
    · rw [← hsplit, pieces, hbytes, List.append_assoc]
      rfl
    · rw [pieces, hbytes]
      exact List.splitOn_append_cons_self _ _
  · exact ⟨p.pieces, List.splitOn_ne_nil _ _, hsplit p.bytes, .inl rfl⟩

/-- The pieces of a joined path, with the components of those before the second path's. -/
theorem exists_pieces_join (hp : p.isEmpty = false) (hq : q.isAbsolute = false) :
    ∃ before, (p.join q).pieces = before ++ q.pieces ∧
      before.filterMap componentOfPiece = p.pieces.filterMap componentOfPiece := by
  obtain ⟨before, -, hjoin, hbefore⟩ := pieces_join hp hq
  refine ⟨before, hjoin, ?_⟩
  rcases hbefore with hbefore | hbefore
  · rw [hbefore]
  · rw [hbefore, List.filterMap_append]
    exact (List.append_nil _).symm

theorem split_join (hp : p.isEmpty = false) (hq : q.isAbsolute = false) : (p.join q).split.1 = p.split.1 := by
  obtain ⟨before, hne, hjoin, hbefore⟩ := pieces_join hp hq
  have hhead : (p.join q).pieces.head? = p.pieces.head? := by
    cases before with
    | nil => exact absurd rfl hne
    | cons first rest => rcases hbefore with hbefore | hbefore <;> rw [hjoin, hbefore] <;> rfl
  unfold split
  rw [isAbsolute_join hq, hhead]
  split
  · rfl
  split <;> rfl

theorem components_join (hp : p.isEmpty = false) (hq : q.isAbsolute = false) :
    (p.join q).components = p.components ++ q.pieces.filterMap componentOfPiece := by
  obtain ⟨before, hjoin, hnames⟩ := exists_pieces_join hp hq
  rw [components_eq, components_eq, split_join hp hq, hjoin, List.filterMap_append, hnames, List.append_assoc]

end Bindery.Path
