import Bindery.Proofs.Path.Components
import Bindery.Proofs.Text.Utf8

/-!
# Paths beneath roots

A path is beneath a root if its components begin with the root's.  Just then it has a part beneath the root
(`isSome_stripRoot?`), which is what is left of its pieces, less those at both ends that are no components
(`stripRoot?_eq_some_iff`).  Such a part is trimmed (`trimmed_of_stripRoot?`), and a trimmed path is the part beneath
the root of the path that it makes with the root (`stripRoot?_join`).
-/

namespace Bindery.Path

variable {p q root : Path} {piece : List UInt8} {pieces before after : List (List UInt8)} {cs : List Component}

/-- The path's components begin with the root's. -/
def IsBeneath (p root : Path) : Prop := root.components <+: p.components

instance (p root : Path) : Decidable (p.IsBeneath root) := inferInstanceAs (Decidable (_ <+: _))

/-- The path is empty, or neither the first nor the last of its pieces is empty or a dot. -/
def Trimmed (p : Path) : Prop :=
  p.isEmpty = true ∨ ∀ piece ∈ [p.pieces.head?, p.pieces.getLast?], piece ≠ some [] ∧ piece ≠ some dot

instance (p : Path) : Decidable p.Trimmed := inferInstanceAs (Decidable (_ ∨ _))

theorem isBeneath_of_components_eq (h : p.components = root.components) : p.IsBeneath root :=
  ⟨[], (List.append_nil _).trans h.symm⟩

theorem IsBeneath.trans {inner : Path} (h : p.IsBeneath inner) (h' : inner.IsBeneath root) : p.IsBeneath root :=
  List.IsPrefix.trans h' h

theorem IsBeneath.isEmpty_eq_false (h : p.IsBeneath root) (hroot : root.isEmpty = false) : p.isEmpty = false := by
  rw [Bool.eq_false_iff]
  intro hempty
  rw [IsBeneath, components_of_isEmpty hempty] at h
  exact components_ne_nil hroot (List.prefix_nil.1 h)

/-! ### Trimmed pieces -/

theorem head?_trimFront (h : (trimFront pieces).head? = some piece) : componentOfPiece piece ≠ none := by
  induction pieces with
  | nil => cases h
  | cons first pieces ih =>
    cases hfirst : componentOfPiece first with
    | none =>
      rw [trimFront_cons_of_eq_none hfirst] at h
      exact ih h
    | some c =>
      rw [trimFront_cons_of_eq_some hfirst] at h
      obtain rfl := Option.some.inj h
      rw [hfirst]
      simp

theorem getLast?_trimEnd (h : (trimEnd pieces).getLast? = some piece) : componentOfPiece piece ≠ none := by
  rw [trimEnd, List.getLast?_reverse] at h
  exact head?_trimFront h

theorem trimFront_of_head? (h : ∀ piece, pieces.head? = some piece → componentOfPiece piece ≠ none) :
    trimFront pieces = pieces := by
  cases pieces with
  | nil => rfl
  | cons piece pieces =>
    obtain ⟨c, hc⟩ := Option.ne_none_iff_exists'.1 (h piece rfl)
    exact trimFront_cons_of_eq_some hc

theorem trimEnd_of_getLast? (h : ∀ piece, pieces.getLast? = some piece → componentOfPiece piece ≠ none) :
    trimEnd pieces = pieces := by
  rw [trimEnd, trimFront_of_head? (by simpa only [List.head?_reverse] using h), List.reverse_reverse]

theorem trimEnd_cons_of_eq_some {c : Component} (h : componentOfPiece piece = some c) :
    trimEnd (piece :: pieces) = piece :: trimEnd pieces := by
  have hlast : trimFront [piece] = [piece] := trimFront_cons_of_eq_some h
  unfold trimEnd
  unfold trimFront at hlast ⊢
  rw [List.reverse_cons, List.dropWhile_append, hlast]
  split
  · next hnil => rw [List.isEmpty_iff.1 hnil]; rfl
  · exact List.reverse_concat

theorem head?_trimEnd_trimFront (h : (trimEnd (trimFront pieces)).head? = some piece) :
    componentOfPiece piece ≠ none := by
  cases hfront : trimFront pieces with
  | nil => rw [hfront] at h; cases h
  | cons first rest =>
    have hfirst : componentOfPiece first ≠ none := head?_trimFront (by rw [hfront]; rfl)
    obtain ⟨c, hc⟩ := Option.ne_none_iff_exists'.1 hfirst
    rw [hfront, trimEnd_cons_of_eq_some hc] at h
    obtain rfl := Option.some.inj h
    exact hfirst

theorem mem_of_mem_trimmed (h : piece ∈ trimEnd (trimFront pieces)) : piece ∈ pieces := by
  rw [trimEnd, List.mem_reverse] at h
  have hmem := (List.dropWhile_sublist _).subset h
  exact (List.dropWhile_sublist _).subset (List.mem_reverse.1 hmem)

/-! ### Trimmed paths -/

theorem trimmed_iff :
    p.Trimmed ↔ p.isEmpty = true ∨
      (∀ piece, p.pieces.head? = some piece → componentOfPiece piece ≠ none) ∧
        ∀ piece, p.pieces.getLast? = some piece → componentOfPiece piece ≠ none := by
  have hend (o : Option (List UInt8)) :
      (o ≠ some [] ∧ o ≠ some dot) ↔ ∀ piece, o = some piece → componentOfPiece piece ≠ none := by
    cases o with
    | none => simp
    | some piece => simp [componentOfPiece_eq_none]
  unfold Trimmed
  rw [List.forall_mem_cons, List.forall_mem_singleton, hend, hend]

theorem Trimmed.isAbsolute (h : p.Trimmed) : p.isAbsolute = false := by
  rw [Bool.eq_false_iff]
  intro habs
  obtain ⟨bytes, hp⟩ := isAbsolute_eq_true.1 habs
  rcases h with h | h
  · rw [isEmpty, hp] at h
    cases h
  · refine (h p.pieces.head? List.mem_cons_self).1 ?_
    rw [pieces, hp, List.splitOn_cons_eq_if_modifyHead, if_pos (beq_self_eq_true slash)]
    rfl

theorem Trimmed.components_eq (h : p.Trimmed) : p.components = p.pieces.filterMap componentOfPiece := by
  have hdot : p.pieces.head? ≠ some dot := by
    rcases h with h | h
    · rw [pieces, List.isEmpty_iff.1 h]
      decide
    · exact (h _ List.mem_cons_self).2
  have hsplit : p.split.1 = none := by
    unfold split
    rw [if_neg (by simp [h.isAbsolute]), if_neg hdot]
  rw [Path.components_eq, hsplit]
  rfl

/-- Of a trimmed path nothing more is trimmed. -/
theorem Trimmed.joinPieces_eq (h : p.Trimmed) : joinPieces (trimEnd (trimFront p.pieces)) = p.bytes := by
  rcases trimmed_iff.1 h with h | ⟨hhead, hlast⟩
  · have hp : p.bytes = [] := List.isEmpty_iff.1 h
    rw [pieces, hp]
    rfl
  · rw [trimFront_of_head? hhead, trimEnd_of_getLast? hlast, joinPieces_pieces]

/-- Pieces put together, less those at both ends that are no components. -/
theorem trimmed_joinPieces (h : ∀ piece ∈ pieces, slash ∉ piece) :
    (⟨joinPieces (trimEnd (trimFront pieces))⟩ : Path).Trimmed ∧
      (⟨joinPieces (trimEnd (trimFront pieces))⟩ : Path).pieces.filterMap componentOfPiece =
        pieces.filterMap componentOfPiece := by
  rw [trimmed_iff, ← filterMap_trimFront pieces, ← filterMap_trimEnd (trimFront pieces)]
  by_cases hne : trimEnd (trimFront pieces) = []
  · rw [hne]
    exact ⟨.inl rfl, rfl⟩
  · rw [pieces_joinPieces (fun piece hmem => h piece (mem_of_mem_trimmed hmem)) hne]
    exact ⟨.inr ⟨fun piece => head?_trimEnd_trimFront, fun piece => getLast?_trimEnd⟩, rfl⟩

/-! ### Paths that are text -/

theorem isText_joinPieces : Text.IsText (joinPieces pieces) ↔ ∀ piece ∈ pieces, Text.IsText piece := by
  have happend (xs ys : List UInt8) : Text.IsText (xs ++ slash :: ys) ↔ Text.IsText xs ∧ Text.IsText ys :=
    Text.isText_append_cons (a := '/') (by decide)
  unfold joinPieces
  induction pieces with
  | nil => exact iff_of_true ⟨"", rfl⟩ (List.forall_mem_nil _)
  | cons piece pieces ih =>
    cases pieces with
    | nil => rw [List.intercalate_singleton, List.forall_mem_singleton]
    | cons next pieces =>
      rw [List.intercalate_cons_cons, List.append_assoc, List.singleton_append, happend, List.forall_mem_cons]
      exact and_congr_right' ih

theorem isText_of_mem_pieces (h : Text.IsText p.bytes) (hpiece : piece ∈ p.pieces) : Text.IsText piece := by
  rw [← joinPieces_pieces] at h
  exact isText_joinPieces.1 h piece hpiece

theorem isText_join (hp : Text.IsText p.bytes) (hq : Text.IsText q.bytes) : Text.IsText (p.join q).bytes := by
  unfold join
  split
  · exact hq
  split
  · exact hp.append hq
  · exact (Text.isText_append_cons (a := '/') (by decide)).2 ⟨hp, hq⟩

/-! ### Components taken off -/

private theorem map_stripPieces?_congr {pieces' : List (List UInt8)} (h : trimFront pieces = trimFront pieces') :
    (stripPieces? cs pieces).map trimFront = (stripPieces? cs pieces').map trimFront := by
  cases cs with
  | nil => exact congrArg some h
  | cons c cs =>
    unfold stripPieces?
    rw [h]

theorem map_stripPieces? (before after : List (List UInt8)) :
    (stripPieces? (before.filterMap componentOfPiece) (before ++ after)).map trimFront = some (trimFront after) := by
  induction before with
  | nil => rfl
  | cons piece before ih =>
    cases hpiece : componentOfPiece piece with
    | none =>
      rw [List.filterMap_cons_none hpiece, ← ih]
      exact map_stripPieces?_congr (trimFront_cons_of_eq_none hpiece)
    | some c =>
      rw [List.filterMap_cons_some hpiece, List.cons_append, stripPieces?, trimFront_cons_of_eq_some hpiece]
      dsimp only
      rw [if_pos hpiece, ih]

theorem prefix_of_stripPieces? {rest : List (List UInt8)} (h : stripPieces? cs pieces = some rest) :
    cs <+: pieces.filterMap componentOfPiece := by
  induction cs generalizing pieces with
  | nil => exact List.nil_prefix
  | cons c cs ih =>
    rw [stripPieces?] at h
    cases hfront : trimFront pieces with
    | nil => rw [hfront] at h; cases h
    | cons piece tail =>
      rw [hfront] at h
      dsimp only at h
      split at h
      · next hpiece =>
        rw [← filterMap_trimFront, hfront, List.filterMap_cons_some hpiece]
        exact List.cons_prefix_cons.2 ⟨rfl, ih h⟩
      · cases h

/-! ### The part beneath a root -/

theorem stripRoot?_congr {root' : Path} (h : root.components = root'.components) :
    root.stripRoot? p = root'.stripRoot? p := by
  unfold stripRoot?
  rw [h]

private theorem stripRoot?_of_start (hroot : root.components ≠ []) (h : p.split.1.toList ++ cs = root.components) :
    root.stripRoot? p = (stripPieces? cs (p.split.2.splitOn slash)).map fun rest =>
      ⟨joinPieces (trimEnd (trimFront rest))⟩ := by
  unfold stripRoot?
  rw [← h] at hroot ⊢
  cases hstart : p.split.1 with
  | none =>
    rw [hstart] at hroot
    cases cs with
    | nil => exact absurd rfl hroot
    | cons c cs => rfl
  | some start => exact if_pos rfl

private theorem stripRoot?_of_append (hroot : root.components ≠ []) (hp : p.pieces = before ++ after)
    (h : p.split.1.toList ++ before.filterMap componentOfPiece = root.components) :
    root.stripRoot? p = some ⟨joinPieces (trimEnd (trimFront after))⟩ := by
  have hstrip : (stripPieces? (before.filterMap componentOfPiece) (p.split.2.splitOn slash)).map trimFront =
      some (trimFront after) := by
    rw [map_stripPieces?_congr (trimFront_split p), hp, map_stripPieces?]
  obtain ⟨rest, hrest, htrim⟩ := Option.map_eq_some_iff.1 hstrip
  rw [stripRoot?_of_start hroot h, hrest, Option.map_some, htrim]

private theorem isBeneath_of_stripRoot? (h : root.stripRoot? p = some q) : p.IsBeneath root := by
  show root.components <+: p.split.1.toList ++ (p.split.2.splitOn slash).filterMap componentOfPiece
  unfold stripRoot? at h
  generalize root.components = cs at h ⊢
  cases cs with
  | nil => exact List.nil_prefix
  | cons c cs =>
    cases hstart : p.split.1 with
    | none =>
      rw [hstart] at h
      obtain ⟨rest, hrest, -⟩ := Option.map_eq_some_iff.1 h
      exact prefix_of_stripPieces? hrest
    | some start =>
      rw [hstart] at h
      dsimp only at h
      split at h
      · next hc =>
        obtain ⟨rest, hrest, -⟩ := Option.map_eq_some_iff.1 h
        exact List.cons_prefix_cons.2 ⟨hc.symm, prefix_of_stripPieces? hrest⟩
      · cases h

private theorem exists_of_prefix {start : Option Component} (hcs : cs ≠ [])
    (h : cs <+: start.toList ++ pieces.filterMap componentOfPiece) :
    ∃ before after, pieces = before ++ after ∧ start.toList ++ before.filterMap componentOfPiece = cs := by
  have hnames {names : List Component} (h : names <+: pieces.filterMap componentOfPiece) :
      ∃ before after, pieces = before ++ after ∧ before.filterMap componentOfPiece = names := by
    obtain ⟨more, hmore⟩ := h
    obtain ⟨before, after, hp, hbefore, -⟩ := List.filterMap_eq_append_iff.1 hmore.symm
    exact ⟨before, after, hp, hbefore⟩
  cases start with
  | none => exact hnames h
  | some start =>
    cases cs with
    | nil => exact absurd rfl hcs
    | cons c cs =>
      obtain ⟨rfl, hrest⟩ := List.cons_prefix_cons.1 h
      obtain ⟨before, after, hp, rfl⟩ := hnames hrest
      exact ⟨before, after, hp, rfl⟩

private theorem IsBeneath.exists_pieces (hroot : root.components ≠ []) (h : p.IsBeneath root) :
    ∃ before after, p.pieces = before ++ after ∧
      p.split.1.toList ++ before.filterMap componentOfPiece = root.components := by
  refine exists_of_prefix hroot ?_
  rw [← components_eq]
  exact h

theorem stripRoot?_eq_some_iff (hroot : root.isEmpty = false) :
    root.stripRoot? p = some q ↔
      ∃ before after, p.pieces = before ++ after ∧
        p.split.1.toList ++ before.filterMap componentOfPiece = root.components ∧
          q = ⟨joinPieces (trimEnd (trimFront after))⟩ := by
  have hne := components_ne_nil hroot
  constructor
  · intro h
    obtain ⟨before, after, hp, hbefore⟩ := (isBeneath_of_stripRoot? h).exists_pieces hne
    have hstrip := stripRoot?_of_append hne hp hbefore
    exact ⟨before, after, hp, hbefore, Option.some.inj (h.symm.trans hstrip)⟩
  · rintro ⟨before, after, hp, hbefore, rfl⟩
    exact stripRoot?_of_append hne hp hbefore

theorem isSome_stripRoot? (hroot : root.isEmpty = false) :
    (root.stripRoot? p).isSome = true ↔ p.IsBeneath root := by
  rw [Option.isSome_iff_exists]
  constructor
  · rintro ⟨q, hq⟩
    exact isBeneath_of_stripRoot? hq
  · intro h
    obtain ⟨before, after, hp, hbefore⟩ := h.exists_pieces (components_ne_nil hroot)
    exact ⟨_, stripRoot?_of_append (components_ne_nil hroot) hp hbefore⟩

/-- The part of a path beneath a root is trimmed, and the path's components are the root's and those of this part. -/
theorem trimmed_of_stripRoot? (hroot : root.isEmpty = false) (h : root.stripRoot? p = some q) :
    q.Trimmed ∧ p.components = root.components ++ q.pieces.filterMap componentOfPiece := by
  obtain ⟨before, after, hp, hbefore, rfl⟩ := (stripRoot?_eq_some_iff hroot).1 h
  have hafter : ∀ piece ∈ after, slash ∉ piece := by
    intro piece hmem
    have hpiece : piece ∈ p.pieces := hp ▸ List.mem_append_right _ hmem
    exact not_mem_of_mem_splitOn hpiece
  obtain ⟨htrim, hnames⟩ := trimmed_joinPieces hafter
  refine ⟨htrim, ?_⟩
  rw [hnames, components_eq, hp, List.filterMap_append, ← hbefore, List.append_assoc]

theorem isText_of_stripRoot? (hroot : root.isEmpty = false) (h : root.stripRoot? p = some q)
    (hp : Text.IsText p.bytes) : Text.IsText q.bytes := by
  obtain ⟨before, after, hpieces, -, rfl⟩ := (stripRoot?_eq_some_iff hroot).1 h
  refine isText_joinPieces.2 fun piece hmem => isText_of_mem_pieces hp ?_
  rw [hpieces]
  exact List.mem_append_right _ (mem_of_mem_trimmed hmem)

/-- A trimmed path is the part beneath a root of what it makes with the root. -/
theorem stripRoot?_join (hroot : root.isEmpty = false) (hq : q.Trimmed) : root.stripRoot? (root.join q) = some q := by
  obtain ⟨before, hjoin, hbefore⟩ := exists_pieces_join hroot hq.isAbsolute
  refine (stripRoot?_eq_some_iff hroot).2 ⟨before, q.pieces, hjoin, ?_, ?_⟩
  · rw [split_join hroot hq.isAbsolute, components_eq root, hbefore]
  · rw [hq.joinPieces_eq]

/-- Beneath a root, what a trimmed path makes with another root properly beneath it ends with a slash and this path. -/
theorem stripRoot?_join_of_isBeneath {inner : Path} (hroot : root.isEmpty = false) (hinner : inner.IsBeneath root)
    (hne : inner.components ≠ root.components) (hq : q.Trimmed) (hqe : q.isEmpty = false) :
    ∃ bytes, root.stripRoot? (inner.join q) = some ⟨bytes ++ slash :: q.bytes⟩ := by
  have hempty := hinner.isEmpty_eq_false hroot
  obtain ⟨outer, hjoin, houter⟩ := exists_pieces_join hempty hq.isAbsolute
  obtain ⟨before, mid, rfl, hbefore⟩ : ∃ before mid, outer = before ++ mid ∧
      inner.split.1.toList ++ before.filterMap componentOfPiece = root.components := by
    refine exists_of_prefix (components_ne_nil hroot) ?_
    rw [houter, ← components_eq]
    exact hinner
  have hpieces : q.pieces ≠ [] := List.splitOn_ne_nil _ _
  -- something of the inner root is left
  have hmid : trimFront mid ≠ [] := by
    intro hnil
    apply hne
    rw [components_eq, ← houter, List.filterMap_append, ← filterMap_trimFront mid, hnil, List.filterMap_nil,
      List.append_nil, hbefore]
  have hfront : trimFront (mid ++ q.pieces) = trimFront mid ++ q.pieces := by
    unfold trimFront at hmid ⊢
    rw [List.dropWhile_append, if_neg (by simpa using hmid)]
  have hends : trimEnd (trimFront mid ++ q.pieces) = trimFront mid ++ q.pieces := by
    refine trimEnd_of_getLast? fun piece hpiece => ?_
    rw [List.getLast?_append_of_ne_nil _ hpieces] at hpiece
    exact ((trimmed_iff.1 hq).resolve_left (by simp [hqe])).2 piece hpiece
  refine ⟨joinPieces (trimFront mid), (stripRoot?_eq_some_iff hroot).2 ⟨before, mid ++ q.pieces, ?_, ?_, ?_⟩⟩
  · rw [hjoin, List.append_assoc]
  · rw [split_join hempty hq.isAbsolute, hbefore]
  · rw [hfront, hends, joinPieces_append hmid hpieces, joinPieces_pieces]

end Bindery.Path
