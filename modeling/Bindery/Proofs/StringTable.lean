import Bindery.Proofs.Artifact.Noting
import Bindery.Proofs.FileSystem.SameFile
import Bindery.StringTable
import Mathlib.Data.List.Forall2

/-!
# String tables read back

The entries of a table are the texts of the sources that have one, in their order (`gather_eq`).  The writer of a
string table is a script that allocates and does nothing else (`write_eq_writer`).  A run of it that
succeeds leaves a ledger with two blocks of text for every entry, the array of their offsets, and the root
(`holds_of_run`).  Where those blocks read back, the table reads as the entries it was written from, in their order
(`read_of_holds`).
-/

namespace Bindery

open Steps

namespace Script

variable {σ : Type} {c : Arena.Call} {f : Arena.Action Arena.Offset} {u : σ} {next : Arena.Offset → Script σ}

/-- Makes a call that allocates, and goes on with the offset it answers. -/
def allocating (c : Arena.Call) (u : σ) (next : Arena.Offset → Script σ) : Script σ :=
  .call c fun
    | .ok (.offset o) => next o
    | .ok _ => .finish (.ok .null) u
    | .error e => .finish (.error (.arena e)) u

private theorem run_allocating (hc : c.run = f >>= fun o => pure (.offset o)) (s : Arena.State) :
    (allocating c u next).run s =
      match f s with
      | .ok o s => (next o).run s
      | .error e s => (.error (.arena e), s, u) := by
  rw [allocating, run, hc, bind_apply]
  cases f s <;> rfl

private theorem run_noting_allocating (hc : c.run = f >>= fun o => pure (.offset o)) {l : Arena.Ledger}
    {s s' : Arena.State} {root : Arena.Offset} {v : σ × Note}
    (h : ((allocating c u next).noting l).run s = (.ok root, s', v)) :
    ∃ o s₁, f s = .ok o s₁ ∧ ((next o).noting (l.record c (.ok (.offset o)))).run s₁ = (.ok root, s', v) := by
  rw [allocating, noting, run, hc, bind_apply] at h
  cases hs : f s with
  | ok o s₁ => rw [hs] at h; exact ⟨o, s₁, rfl, h⟩
  | error e s₁ => rw [hs] at h; cases h

private theorem writer_allocating {next : σ → Arena.Offset → Script σ}
    (hc : c.run = f >>= fun o => pure (.offset o)) :
    writer (fun u => allocating c u (next u)) = Build.onArena f >>= fun o => writer fun u => next u o := by
  funext ⟨s, u⟩
  rw [bind_apply, Builder.onArena_apply]
  unfold writer
  dsimp only
  rw [run_allocating hc]
  cases f s <;> rfl

end Script

/-- The text of a file that has no zero byte in it. -/
def FileSystem.plainText? (fs : FileSystem) (p : Path) : Option String :=
  (fs.readText p).toOption.filter ('\x00' ∉ ·.toList)

namespace FileSystem

variable {fs fs' : FileSystem} {p q : Path} {text : String}

theorem plainText?_congr (h : fs'.read q = fs.read p) : fs'.plainText? q = fs.plainText? p := by
  unfold plainText? readText
  rw [h]

theorem read_of_plainText? (h : fs.plainText? p = some text) : ∃ bytes, fs.read p = .ok bytes := by
  unfold plainText? readText at h
  cases hr : fs.read p with
  | error fault => rw [hr] at h; cases h
  | ok bytes => exact ⟨bytes, rfl⟩

theorem pathExists_of_plainText? (h : fs.plainText? p = some text) : fs.pathExists p = true := by
  obtain ⟨bytes, hread⟩ := read_of_plainText? h
  obtain ⟨r, id, hs, -⟩ := read_eq_ok.1 hread
  exact pathExists_eq_true.2 ⟨_, _, hs⟩

end FileSystem

namespace Source

/-- The text of a loaded source, if its file is text without a zero byte. -/
def text? (fs : FileSystem) (s : Source) : Option String :=
  match s.path, s.loaded with
  | some p, true => fs.plainText? p
  | _, _ => none

/-- A source after its text was asked for: if it has a file but no text, it is not loaded after all. -/
def afterReading (fs : FileSystem) (s : Source) : Source :=
  { s with loaded := s.loaded && (s.path.isNone || (s.text? fs).isSome) }

@[simp] theorem path_afterReading (fs : FileSystem) (s : Source) : (s.afterReading fs).path = s.path := rfl

variable {fs : FileSystem} {s : Source} {text : String}

theorem text?_eq_some (h : s.text? fs = some text) :
    ∃ p, s.path = some p ∧ s.loaded = true ∧ fs.plainText? p = some text := by
  obtain ⟨id, path, loaded⟩ := s
  rcases path with _ | p
  · cases h
  · cases loaded with
    | false => cases h
    | true => exact ⟨p, rfl, rfl, h⟩

/-- A source with a file is loaded after its text was asked for only if there is a text. -/
theorem text?_of_loaded_afterReading {p : Path} (hp : s.path = some p) (h : (s.afterReading fs).loaded = true) :
    ∃ text, s.text? fs = some text := by
  rw [← Option.isSome_iff_exists]
  simp only [afterReading, hp, Option.isNone_some, Bool.false_or, Bool.and_eq_true] at h
  exact h.2

/-- A source that has a text is as it was after the text was asked for. -/
theorem afterReading_of_text? (h : (s.text? fs).isSome = true) : s.afterReading fs = s := by
  simp only [afterReading, h, Bool.or_true, Bool.and_true]

theorem text?_of_absent (h : ∀ p, s.path = some p → fs.pathExists p = false) : s.text? fs = none := by
  by_contra hne
  obtain ⟨text, ht⟩ := Option.ne_none_iff_exists'.1 hne
  obtain ⟨p, hp, -, htext⟩ := text?_eq_some ht
  have hex := FileSystem.pathExists_of_plainText? htext
  rw [h p hp] at hex
  cases hex

end Source

namespace StringTable

/-! ### Gathering texts -/

private theorem gather_cons (fs : FileSystem) (s : Source) (rest : List Source) :
    gather fs (s :: rest) =
      (((s.text? fs).map (s.id, ·)).toList ++ (gather fs rest).1, s.afterReading fs :: (gather fs rest).2) := by
  obtain ⟨id, path, loaded⟩ := s
  cases path with
  | none => cases loaded <;> rfl
  | some p =>
    cases loaded with
    | false => rfl
    | true =>
      cases ht : fs.readText p with
      | error e => simp [gather, Source.text?, Source.afterReading, FileSystem.plainText?, ht, Except.toOption]
      | ok text =>
        by_cases h0 : '\x00' ∈ text.toList
        · simp [gather, Source.text?, Source.afterReading, FileSystem.plainText?, ht, Except.toOption, h0]
        · simp [gather, Source.text?, Source.afterReading, FileSystem.plainText?, ht, Except.toOption, h0,
            Option.filter]

theorem gather_eq (fs : FileSystem) (sources : List Source) :
    gather fs sources =
      (sources.filterMap fun s => (s.text? fs).map (s.id, ·), sources.map (Source.afterReading fs)) := by
  induction sources with
  | nil => rfl
  | cons s rest ih =>
    rw [gather_cons, ih, List.filterMap_cons, List.map_cons]
    cases s.text? fs <;> rfl

variable {σ : Type} {entries : List Entry} {l l' : Arena.Ledger}

/-! ### Pairs of words -/

@[simp] theorem length_wordPair (a b : UInt32) : (wordPair a b).length = 8 := by simp [wordPair]

@[simp] theorem ofWordPair_wordPair (a b : UInt32) : ofWordPair (wordPair a b) = (a, b) := by
  have hlen (w : UInt32) : (LittleEndian.ofNat 4 w.toNat).length = 4 := LittleEndian.length_ofNat 4 _
  have hword (w : UInt32) : UInt32.ofNat (LittleEndian.toNat (LittleEndian.ofNat 4 w.toNat)) = w := by
    rw [LittleEndian.toNat_ofNat _ _ w.toNat_lt, UInt32.ofNat_toNat]
  unfold ofWordPair wordPair
  rw [List.take_left' (hlen a), List.drop_left' (hlen a), List.take_of_length_le (Nat.le_of_eq (hlen b)), hword, hword]

theorem pairsOf_flatten {pairs : List (List UInt8)} (h : ∀ v ∈ pairs, v.length = 8) :
    pairsOf pairs.length pairs.flatten = pairs.map ofWordPair := by
  induction pairs with
  | nil => rfl
  | cons v pairs ih =>
    have hv : v.length = 8 := h v List.mem_cons_self
    have hrest := ih fun v hv => h v (List.mem_cons_of_mem _ hv)
    rw [List.length_cons, pairsOf, List.flatten_cons, List.take_left' hv, List.drop_left' hv, hrest, List.map_cons]

/-! ### The script of a table -/

/-- Stores the strings of entries, and goes on with the pairs of their offsets. -/
def stringsThen (u : σ) : List Entry → (List (List UInt8) → Script σ) → Script σ
  | [], next => next []
  | (id, text) :: rest, next =>
    .allocating (.pushText id) u fun i => .allocating (.pushText text) u fun t =>
      stringsThen u rest fun pairs => next (wordPair i.raw t.raw :: pairs)

/-- Stores the root of a table whose array is at an offset. -/
def rootThen (u : σ) (pairs : List (List UInt8)) (first : Arena.Offset) : Script σ :=
  if Arena.Offset.null.position < pairs.length then
    .finish (.error (.unwritable (toString pairs.length ++ " entries exceed the table limit"))) u
  else .allocating (.push .pair32 (wordPair first.raw (UInt32.ofNat pairs.length))) u fun root => .finish (.ok root) u

/-- Stores a table. -/
def script (entries : List Entry) (u : σ) : Script σ :=
  stringsThen u entries fun pairs =>
    if pairs = [] then rootThen u pairs .null else .allocating (.pushAll .pair32 pairs) u (rootThen u pairs)

private theorem writer_stringsThen {next : σ → List (List UInt8) → Script σ} :
    Script.writer (fun u => stringsThen u entries (next u)) =
      writeStrings entries >>= fun pairs => Script.writer fun u => next u pairs := by
  induction entries generalizing next with
  | nil => rfl
  | cons e rest ih =>
    obtain ⟨id, text⟩ := e
    simp only [stringsThen, writeStrings, bind_assoc, pure_bind]
    rw [Script.writer_allocating (f := Arena.pushText id) rfl]
    refine bind_congr fun i => ?_
    rw [Script.writer_allocating (f := Arena.pushText text) rfl]
    exact bind_congr fun t => ih

private theorem writer_rootThen (pairs : List (List UInt8)) (first : Arena.Offset) :
    Script.writer (fun u => rootThen u pairs first) = (do
      if Arena.Offset.null.position < pairs.length then
        throw (.unwritable (toString pairs.length ++ " entries exceed the table limit"))
      Build.onArena (Arena.push .pair32 (wordPair first.raw (UInt32.ofNat pairs.length))) :
        Build.Action σ Arena.Offset) := by
  unfold rootThen
  split
  · rfl
  · rw [Script.writer_allocating (f := Arena.push _ _) rfl]
    funext ⟨s, u⟩
    rw [bind_apply, Builder.onArena_apply]
    show _ = Build.onArena _ _
    rw [Builder.onArena_apply]
    cases Arena.push .pair32 (wordPair first.raw (UInt32.ofNat pairs.length)) s <;> rfl

theorem write_eq_writer (entries : List Entry) : write (σ := σ) entries = Script.writer (script entries) := by
  unfold write script
  rw [writer_stringsThen]
  refine bind_congr fun pairs => ?_
  by_cases hp : pairs = []
  · simp only [if_pos hp, pure_bind]
    exact (writer_rootThen pairs .null).symm
  · simp only [if_neg hp]
    rw [Script.writer_allocating (f := Arena.pushAll _ _) rfl]
    exact bind_congr fun first => (writer_rootThen pairs first).symm

/-! ### The ledger of a table -/

theorem confined_script (entries : List Entry) (u : σ) (l : Arena.Ledger) : (script entries u).Confined l := by
  have hallocating {c : Arena.Call} {next : Arena.Offset → Script σ} {l : Arena.Ledger} (hc : c.AllowedBy l)
      (hnext : ∀ o l, (next o).Confined l) : (Script.allocating c u next).Confined l := by
    refine ⟨hc, ?_⟩
    rintro (e | _ | o | _ | _)
    · trivial
    · trivial
    · exact hnext o _
    · trivial
    · trivial
  have hroot (pairs : List (List UInt8)) (first : Arena.Offset) (l : Arena.Ledger) :
      (rootThen u pairs first).Confined l := by
    unfold rootThen
    split
    · trivial
    · exact hallocating (length_wordPair _ _) fun _ _ => trivial
  -- the array is made of pairs, whatever offsets the strings are given
  have hstrings (entries : List Entry) (next : List (List UInt8) → Script σ)
      (hnext : ∀ pairs l, (∀ v ∈ pairs, v.length = 8) → (next pairs).Confined l) (l : Arena.Ledger) :
      (stringsThen u entries next).Confined l := by
    induction entries generalizing next l with
    | nil => exact hnext [] l nofun
    | cons e rest ih =>
      refine hallocating trivial fun i l => hallocating trivial fun t l => ih _ (fun pairs l hp => hnext _ l ?_) l
      exact List.forall_mem_cons.2 ⟨length_wordPair _ _, hp⟩
  refine hstrings entries _ (fun pairs l hp => ?_) l
  split
  · exact hroot pairs .null l
  · exact hallocating hp fun first l => hroot pairs first l

/-- The block of a text at an offset. -/
def textBlock (text : String) (o : Arena.Offset) : Arena.Block :=
  ⟨.byte, (Text.encode text).length + 1, o, Text.encode text ++ [0]⟩

/-- Two offsets are those of an entry's strings in a ledger. -/
def Names (l : Arena.Ledger) (e : Entry) (pair : List UInt8) : Prop :=
  ∃ i t, pair = wordPair i.raw t.raw ∧ (textBlock e.1 i ∈ l ∧ 0 ∉ Text.encode e.1) ∧
    (textBlock e.2 t ∈ l ∧ 0 ∉ Text.encode e.2)

/-- A ledger has the strings of entries, the array of their offsets, and the root of a table at an offset. -/
def Holds (entries : List Entry) (root : Arena.Offset) (l : Arena.Ledger) : Prop :=
  ∃ first pairs, List.Forall₂ (Names l) entries pairs ∧ pairs.length ≤ Arena.Offset.null.position ∧
    (pairs ≠ [] → ⟨.pair32, pairs.length, first, pairs.flatten⟩ ∈ l) ∧
    ⟨.pair32, 1, root, wordPair first.raw (UInt32.ofNat pairs.length)⟩ ∈ l

private theorem Names.mono {e : Entry} {pair : List UInt8} (h : Names l e pair) (hl : l ⊆ l') : Names l' e pair := by
  obtain ⟨i, t, hp, ⟨hi, hi₀⟩, ht, ht₀⟩ := h
  exact ⟨i, t, hp, ⟨hl hi, hi₀⟩, hl ht, ht₀⟩

private theorem not_mem_of_pushText {text : String} {s s' : Arena.State} {o : Arena.Offset}
    (h : Arena.pushText text s = .ok o s') : 0 ∉ Text.encode text := by
  intro h0
  unfold Arena.pushText at h
  rw [if_pos h0] at h
  cases h

section Run

variable {u : σ} {s s' : Arena.State} {root : Arena.Offset} {v : σ × Script.Note}

private theorem names_of_run {next : List (List UInt8) → Script σ}
    (h : ((stringsThen u entries next).noting l).run s = (.ok root, s', v)) :
    ∃ l₁ pairs s₁, l ⊆ l₁ ∧ List.Forall₂ (Names l₁) entries pairs ∧
      ((next pairs).noting l₁).run s₁ = (.ok root, s', v) := by
  induction entries generalizing next l s with
  | nil => exact ⟨l, [], s, List.Subset.refl l, .nil, h⟩
  | cons e rest ih =>
    obtain ⟨i, s₁, hi, h⟩ := Script.run_noting_allocating (f := Arena.pushText e.1) rfl h
    obtain ⟨t, s₂, ht, h⟩ := Script.run_noting_allocating (f := Arena.pushText e.2) rfl h
    obtain ⟨l₁, pairs, s₃, hsub, hnames, h⟩ := ih h
    have hl : l ⊆ l₁ := fun b hb => hsub (List.mem_append_left _ (List.mem_append_left _ hb))
    have hib : textBlock e.1 i ∈ l₁ :=
      hsub (List.mem_append_left _ (List.mem_append_right _ (List.mem_singleton.2 rfl)))
    have htb : textBlock e.2 t ∈ l₁ := hsub (List.mem_append_right _ (List.mem_singleton.2 rfl))
    exact ⟨l₁, _, s₃, hl, .cons ⟨i, t, rfl, ⟨hib, not_mem_of_pushText hi⟩, htb, not_mem_of_pushText ht⟩ hnames, h⟩

private theorem root_of_run {pairs : List (List UInt8)} {first : Arena.Offset}
    (h : ((rootThen u pairs first).noting l).run s = (.ok root, s', v)) :
    pairs.length ≤ Arena.Offset.null.position ∧ v.2.root = root ∧
      v.2.ledger = l ++ [⟨.pair32, 1, root, wordPair first.raw (UInt32.ofNat pairs.length)⟩] := by
  unfold rootThen at h
  split at h
  · cases h
  · next hle =>
    obtain ⟨o, s₁, -, h⟩ := Script.run_noting_allocating (f := Arena.push _ _) rfl h
    cases h
    exact ⟨Nat.le_of_not_lt hle, rfl, rfl⟩

/-- A run that succeeds has stored the table. -/
theorem holds_of_run (h : ((script entries u).noting []).run s = (.ok root, s', v)) :
    Holds entries v.2.root v.2.ledger := by
  obtain ⟨l₁, pairs, s₁, -, hnames, h⟩ := names_of_run h
  have hmono {l₂ : Arena.Ledger} (hsub : l₁ ⊆ l₂) : List.Forall₂ (Names l₂) entries pairs :=
    hnames.imp fun _ _ hn => hn.mono hsub
  split at h
  · next hp =>
    obtain ⟨hle, rfl, hl⟩ := root_of_run h
    rw [hl]
    refine ⟨.null, pairs, hmono (List.subset_append_left _ _), hle, fun hne => absurd hp hne, ?_⟩
    exact List.mem_append_right _ (List.mem_singleton.2 rfl)
  · obtain ⟨first, s₂, -, h⟩ := Script.run_noting_allocating (f := Arena.pushAll _ _) rfl h
    obtain ⟨hle, rfl, hl⟩ := root_of_run h
    rw [hl]
    refine ⟨first, pairs, hmono fun b hb => ?_, hle, fun _ => ?_, ?_⟩
    · exact List.mem_append_left _ (List.mem_append_left _ hb)
    · exact List.mem_append_left _ (List.mem_append_right _ (List.mem_singleton.2 rfl))
    · exact List.mem_append_right _ (List.mem_singleton.2 rfl)

end Run

/-! ### Reading a table -/

section Read

variable {fs : FileSystem} {a : Artifact}

private theorem mapM_eq_ok {α β ε : Type} {f : α → Except ε β} {xs : List α} {ys : List β}
    (h : List.Forall₂ (fun y x => f x = .ok y) ys xs) : xs.mapM f = .ok ys := by
  induction h with
  | nil => rfl
  | cons hy _ ih =>
    rw [List.mapM_cons, hy, ih]
    rfl

private theorem length_of_names {pairs : List (List UInt8)} (h : List.Forall₂ (Names l) entries pairs) :
    ∀ v ∈ pairs, v.length = 8 := by
  induction h with
  | nil => nofun
  | cons he _ ih =>
    obtain ⟨i, t, rfl, -⟩ := he
    exact List.forall_mem_cons.2 ⟨length_wordPair _ _, ih⟩

/-- A table whose blocks read back reads as the entries it was written from. -/
theorem read_of_holds (h : Holds entries a.payloadRoot l) (hl : ∀ b ∈ l, b.ReadsBack ⟨fs, a.arena⟩) :
    read fs a = .ok entries := by
  obtain ⟨first, pairs, hnames, hle, harray, hroot⟩ := h
  have hlength : (UInt32.ofNat pairs.length).toNat = pairs.length := Arena.Offset.position_ofPosition hle
  have hget : Arena.State.get ⟨fs, a.arena⟩ .pair32 a.payloadRoot =
      .ok (wordPair first.raw (UInt32.ofNat pairs.length)) := by
    rw [(hl _ hroot).get]
    exact congrArg _ (List.take_of_length_le (Nat.le_of_eq (length_wordPair _ _)))
  unfold read
  simp only [hget, Except.mapError, bind, Except.bind, ofWordPair_wordPair]
  by_cases hp : pairs = []
  · subst hp
    cases hnames
    rfl
  have hne : UInt32.ofNat pairs.length ≠ 0 := by
    intro h
    rw [h] at hlength
    exact hp (List.eq_nil_of_length_eq_zero hlength.symm)
  have hbytes : Arena.State.getAll ⟨fs, a.arena⟩ .pair32 ⟨first.raw⟩ pairs.length = .ok pairs.flatten :=
    (hl _ (harray hp)).getAll
  rw [if_neg hne, hlength, hbytes]
  dsimp only
  rw [pairsOf_flatten (length_of_names hnames)]
  refine mapM_eq_ok ((List.forall₂_map_right_iff).2 (hnames.imp fun e pair he => ?_))
  obtain ⟨i, t, rfl, ⟨hi, hi₀⟩, ht, ht₀⟩ := he
  have hid : Arena.State.getText ⟨fs, a.arena⟩ ⟨i.raw⟩ = .ok e.1 := (hl _ hi).getText e.1 [] hi₀ rfl
  have htext : Arena.State.getText ⟨fs, a.arena⟩ ⟨t.raw⟩ = .ok e.2 := (hl _ ht).getText e.2 [] ht₀ rfl
  rw [ofWordPair_wordPair]
  dsimp only
  rw [hid, htext]
  rfl

end Read

/-- An artifact with a string table of some entries is at a path. -/
def StoredAt (fs : FileSystem) (p : Path) (entries : List Entry) : Prop :=
  ∃ a, Artifact.load fs p = .ok a ∧ read fs a = .ok entries

instance (fs : FileSystem) (p : Path) (entries : List Entry) : Decidable (StoredAt fs p entries) :=
  decidableExistsOk _ _

end StringTable

end Bindery
