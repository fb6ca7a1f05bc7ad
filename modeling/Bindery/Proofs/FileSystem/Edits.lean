import Bindery.Proofs.FileSystem.Places

/-!
# Changes at one route

What the operations by path can do, each said once (`create_eq_ok`, `remove_eq_ok`, `rename_eq_ok`,
`makeDirectory_eq_ok`).  Making, changing and removing the file at a route is a change at that route alone
(`ChangesOnly`): every other route leads where it led, every other file keeps its bytes and its time, and of the
directories at most the one that holds the name is touched.
-/

namespace Bindery.FileSystem

variable {fs fs' : FileSystem} {p : Path} {dir r : Route} {name : Name} {id : Nat}

/-! ### Touched directories -/

theorem node?_touchDirectory (fs : FileSystem) (r s : Route) :
    (fs.touchDirectory r).node? s = fs.node? s ∨
      (s = r ∧ fs.HasDirectory s ∧ (fs.touchDirectory r).HasDirectory s) := by
  unfold touchDirectory
  split
  · next t ht =>
    by_cases hs : s = r
    · subst hs
      exact .inr ⟨rfl, ⟨t, ht⟩, ⟨fs.now, by simp [node?_putDirectory]⟩⟩
    · exact .inl (by simp [node?_putDirectory, hs])
  · exact .inl rfl

theorem node?_touchDirectory_file {s : Route} :
    (fs.touchDirectory r).node? s = some (.file id) ↔ fs.node? s = some (.file id) := by
  rcases node?_touchDirectory fs r s with h | ⟨-, ⟨t, ht⟩, ⟨t', ht'⟩⟩
  · rw [h]
  · rw [ht, ht']; simp

@[simp] theorem node?_touchDirectory_of_ne {s : Route} (h : s ≠ r) :
    (fs.touchDirectory r).node? s = fs.node? s := by
  rcases node?_touchDirectory fs r s with h' | ⟨h', -⟩
  · exact h'
  · exact absurd h' h

@[simp] theorem files_touchDirectory (fs : FileSystem) (r : Route) : (fs.touchDirectory r).files = fs.files := by
  unfold touchDirectory
  split <;> rfl

@[simp] theorem file_touchDirectory (fs : FileSystem) (r : Route) (i : Nat) :
    (fs.touchDirectory r).file i = fs.file i := by
  simp [file]

@[simp] theorem workingDirectory_touchDirectory (fs : FileSystem) (r : Route) :
    (fs.touchDirectory r).workingDirectory = fs.workingDirectory := by
  unfold touchDirectory
  split <;> rfl

/-! ### What operations by path do -/

/-- Whether a way that ends at a spot may lead to something. -/
def Spot.Admits : Spot → Node → Prop
  | .directory _, _ => True
  | .entry _ name slashed, node => name.length ≤ nameLimit ∧ (slashed = true → ∃ t, node = .directory t)

theorem stat_eq_ok {node : Node} :
    fs.stat p = .ok (r, node) ↔
      ∃ spot, fs.locate p = .ok spot ∧ spot.route = r ∧ spot.Admits node ∧ fs.node? r = some node := by
  unfold stat
  cases hl : fs.locate p with
  | error e => simp
  | ok spot =>
    simp only [Except.ok.injEq, exists_eq_left']
    cases spot with
    | directory r' =>
      simp only [Spot.route, Spot.Admits, true_and]
      constructor
      · intro h
        cases hn : fs.node? r' with
        | none => rw [hn] at h; cases h
        | some node' => rw [hn] at h; cases h; exact ⟨rfl, hn⟩
      · rintro ⟨rfl, hn⟩
        rw [hn]
    | entry dir name slashed =>
      simp only [Spot.route, Spot.Admits]
      constructor
      · intro h
        cases hk : fs.lookup dir name with
        | error e => rw [hk] at h; cases h
        | ok node' =>
          obtain ⟨hlen, hn⟩ := lookup_eq_ok.1 hk
          rw [hk] at h
          rcases node' with _ | (i | t)
          · cases h
          · cases slashed <;> cases h
            exact ⟨rfl, ⟨hlen, by simp⟩, hn⟩
          · cases h
            exact ⟨rfl, ⟨hlen, fun _ => ⟨t, rfl⟩⟩, hn⟩
      · rintro ⟨rfl, ⟨hlen, hslash⟩, hn⟩
        rw [lookup_eq_ok.2 ⟨hlen, hn⟩]
        cases node with
        | file i =>
          cases slashed with
          | false => rfl
          | true => obtain ⟨t, ht⟩ := hslash rfl; cases ht
        | directory t => rfl

theorem route?_of_stat {node : Node} (h : fs.stat p = .ok (r, node)) :
    fs.route? p = some r ∧ fs.node? r = some node := by
  obtain ⟨spot, hl, hspot, -, hn⟩ := stat_eq_ok.1 h
  exact ⟨route?_eq_some.2 ⟨spot, hl, hspot⟩, hn⟩

theorem openToWrite_eq_ok : fs.openToWrite p = .ok id ↔ ∃ r, fs.stat p = .ok (r, .file id) := by
  unfold openToWrite
  rcases fs.stat p with e | ⟨r, (i | t)⟩ <;> simp [eq_comm]

theorem known_of_openToWrite (h : fs.openToWrite p = .ok id) : id < fs.files.length := by
  obtain ⟨r, hr⟩ := openToWrite_eq_ok.1 h
  exact fs.known r id (route?_of_stat hr).2

theorem openToRead_eq_ok {node : Node} : fs.openToRead p = .ok node ↔ ∃ r, fs.stat p = .ok (r, node) := by
  unfold openToRead
  rcases fs.stat p with e | ⟨r, node'⟩ <;> simp

theorem pathExists_eq_true : fs.pathExists p = true ↔ ∃ r node, fs.stat p = .ok (r, node) := by
  unfold pathExists
  rcases fs.stat p with e | ⟨r, node⟩ <;> simp [Except.toBool]

/-- A change to the bytes of a file takes no path away from a file. -/
theorem openToWrite_modifyFile (h : fs.openToWrite p = .ok id) (i : Nat) (f : File → File) :
    (fs.modifyFile i f).openToWrite p = .ok id := by
  obtain ⟨r, hr⟩ := openToWrite_eq_ok.1 h
  obtain ⟨spot, hl, hspot, ha, hn⟩ := stat_eq_ok.1 hr
  have hk : KeepsDirectories fs (fs.modifyFile i f) := ⟨rfl, fun _ h => h⟩
  have hl' : (fs.modifyFile i f).locate p = .ok spot := locate_mono hk hl
  exact openToWrite_eq_ok.2 ⟨r, stat_eq_ok.2 ⟨spot, hl', hspot, ha, hn⟩⟩

theorem create_eq_ok (h : fs.create p = .ok (id, fs')) :
    ∃ dir name, fs.locate p = .ok (.entry dir name false) ∧ name.length ≤ nameLimit ∧
      ((fs.node? (dir ++ [name]) = some (.file id) ∧ fs' = fs.setLength id 0) ∨
        (fs.node? (dir ++ [name]) = none ∧ id = fs.files.length ∧
          fs' = (fs.addFile (dir ++ [name]) ⟨.empty, fs.now⟩).touchDirectory dir)) := by
  unfold create at h
  cases hl : fs.locate p with
  | error e => rw [hl] at h; cases h
  | ok spot =>
    rw [hl] at h
    cases spot with
    | directory r => cases h
    | entry dir name slashed =>
      cases slashed with
      | true => cases h
      | false =>
        cases hk : fs.lookup dir name with
        | error e => simp [hk] at h
        | ok node =>
          obtain ⟨hlen, hn⟩ := lookup_eq_ok.1 hk
          refine ⟨dir, name, rfl, hlen, ?_⟩
          rcases node with _ | (i | t)
          · simp only [hk] at h
            cases h
            exact .inr ⟨hn, rfl, rfl⟩
          · simp only [hk] at h
            cases h
            exact .inl ⟨hn, rfl⟩
          · simp [hk] at h

theorem remove_eq_ok (h : fs.remove p = .ok fs') :
    ∃ dir name id, fs.locate p = .ok (.entry dir name false) ∧ fs.node? (dir ++ [name]) = some (.file id) ∧
      fs' = (fs.removeWhere (· = dir ++ [name])).touchDirectory dir := by
  unfold remove at h
  cases hl : fs.locate p with
  | error e => rw [hl] at h; cases h
  | ok spot =>
    rw [hl] at h
    cases spot with
    | directory r => cases h
    | entry dir name slashed =>
      cases hk : fs.lookup dir name with
      | error e => simp [hk] at h
      | ok node =>
        obtain ⟨-, hn⟩ := lookup_eq_ok.1 hk
        rcases node with _ | (i | t)
        · simp [hk] at h
        · cases slashed with
          | true => simp [hk] at h
          | false =>
            simp only [hk] at h
            cases h
            exact ⟨dir, name, i, rfl, hn, rfl⟩
        · simp [hk] at h

/-- A file's name becomes another one, at which no directory was. -/
theorem rename_eq_ok {src dst : Path} (h : fs.rename src dst = .ok fs') :
    ∃ srcDir srcName dstDir dstName id,
      fs.locate src = .ok (.entry srcDir srcName false) ∧ fs.locate dst = .ok (.entry dstDir dstName false) ∧
      dstName.length ≤ nameLimit ∧ fs.node? (srcDir ++ [srcName]) = some (.file id) ∧
      ¬ fs.HasDirectory (dstDir ++ [dstName]) ∧
      (srcDir ++ [srcName] ≠ dstDir ++ [dstName] →
        fs' = ((fs.moveNode (srcDir ++ [srcName]) (dstDir ++ [dstName])).touchDirectory srcDir).touchDirectory
          dstDir) := by
  unfold rename at h
  cases hs : fs.locate src with
  | error e => rw [hs] at h; cases h
  | ok srcSpot =>
    cases hd : fs.locate dst with
    | error e => rw [hs, hd] at h; cases h
    | ok dstSpot =>
      rw [hs, hd] at h
      cases srcSpot with
      | directory r => cases h
      | entry srcDir srcName srcSlashed =>
        cases dstSpot with
        | directory r => cases h
        | entry dstDir dstName dstSlashed =>
          cases hks : fs.lookup srcDir srcName with
          | error e => simp [hks] at h
          | ok srcNode =>
            obtain ⟨-, hns⟩ := lookup_eq_ok.1 hks
            cases hkd : fs.lookup dstDir dstName with
            | error e => rcases srcNode with _ | (i | t) <;> simp [hks, hkd] at h
            | ok dstNode =>
              obtain ⟨hlen, hnd⟩ := lookup_eq_ok.1 hkd
              rcases srcNode with _ | (i | t)
              · simp [hks] at h
              · cases srcSlashed with
                | true => simp [hks, hkd] at h
                | false =>
                  cases dstSlashed with
                  | true => simp [hks, hkd] at h
                  | false =>
                    refine ⟨srcDir, srcName, dstDir, dstName, i, rfl, rfl, hlen, hns, ?_, fun hne => ?_⟩
                    · rintro ⟨t, ht⟩
                      rw [hnd] at ht
                      simp [hks, hkd, ht] at h
                    · rcases dstNode with _ | (j | t)
                      · simpa [hks, hkd, hne, eq_comm] using h
                      · simpa [hks, hkd, hne, eq_comm] using h
                      · simp [hks, hkd] at h
              · simp [hks, hkd] at h

theorem makeDirectory_eq_ok (h : fs.makeDirectory p = .ok fs') :
    ∃ dir name, fs.route? p = some (dir ++ [name]) ∧ fs.node? (dir ++ [name]) = none ∧
      fs' = (fs.putDirectory (dir ++ [name]) fs.now).touchDirectory dir := by
  unfold makeDirectory at h
  cases hl : fs.locate p with
  | error e => rw [hl] at h; cases h
  | ok spot =>
    rw [hl] at h
    cases spot with
    | directory r => cases h
    | entry dir name slashed =>
      cases hk : fs.lookup dir name with
      | error e => simp [hk] at h
      | ok node =>
        cases node with
        | some node => simp [hk] at h
        | none =>
          simp only [hk] at h
          cases h
          exact ⟨dir, name, route?_eq_some.2 ⟨_, hl, rfl⟩, (lookup_eq_ok.1 hk).2, rfl⟩

/-! ### Changes at one route -/

/-- A file system differs from an earlier one at most in the file at a route: whether there is one, which one, and
what it holds.  A file that came there is a new one, and a directory there is still the same. -/
structure ChangesOnly (r : Route) (fs fs' : FileSystem) : Prop where
  workingDirectory : fs'.workingDirectory = fs.workingDirectory
  files : fs.files.length ≤ fs'.files.length
  node : ∀ s, s ≠ r → fs'.node? s = fs.node? s ∨ (s = r.dropLast ∧ fs.HasDirectory s ∧ fs'.HasDirectory s)
  directory : ∀ t, fs'.node? r = some (.directory t) ↔ fs.node? r = some (.directory t)
  same : ∀ id, fs'.node? r = some (.file id) → fs.node? r = some (.file id) ∨ fs.files.length ≤ id
  file : ∀ id < fs.files.length, fs.node? r ≠ some (.file id) → fs'.file id = fs.file id

namespace ChangesOnly

theorem refl (r : Route) (fs : FileSystem) : ChangesOnly r fs fs where
  workingDirectory := rfl
  files := Nat.le_refl _
  node _ _ := .inl rfl
  directory _ := Iff.rfl
  same _ h := .inl h
  file _ _ _ := rfl

theorem trans {fs₁ fs₂ fs₃ : FileSystem} (h : ChangesOnly r fs₁ fs₂) (h' : ChangesOnly r fs₂ fs₃) :
    ChangesOnly r fs₁ fs₃ where
  workingDirectory := h'.workingDirectory.trans h.workingDirectory
  files := Nat.le_trans h.files h'.files
  node s hs := by
    rcases h.node s hs with h₁ | ⟨h₁, hd₁, hd₂⟩
    · rcases h'.node s hs with h₂ | ⟨h₂, ⟨t, ht⟩, hd₃⟩
      · exact .inl (h₂.trans h₁)
      · exact .inr ⟨h₂, ⟨t, h₁ ▸ ht⟩, hd₃⟩
    · rcases h'.node s hs with h₂ | ⟨-, -, hd₃⟩
      · obtain ⟨t, ht⟩ := hd₂
        exact .inr ⟨h₁, hd₁, ⟨t, h₂.trans ht⟩⟩
      · exact .inr ⟨h₁, hd₁, hd₃⟩
  directory t := (h'.directory t).trans (h.directory t)
  same id hid := by
    rcases h'.same id hid with hid | hid
    · exact h.same id hid
    · exact .inr (Nat.le_trans h.files hid)
  file id hid hne := by
    have hne' : fs₂.node? r ≠ some (.file id) := by
      -- a file that came to the route in between is a new one
      intro he
      rcases h.same id he with he | he
      · exact hne he
      · omega
    rw [h'.file id (Nat.lt_of_lt_of_le hid h.files) hne', h.file id hid hne]

theorem hasDirectory_iff (h : ChangesOnly r fs fs') (s : Route) : fs'.HasDirectory s ↔ fs.HasDirectory s := by
  by_cases hs : s = r
  · subst hs
    exact exists_congr h.directory
  · rcases h.node s hs with h₁ | ⟨-, hd, hd'⟩
    · unfold HasDirectory; rw [h₁]
    · exact ⟨fun _ => hd, fun _ => hd'⟩

theorem keepsDirectories (h : ChangesOnly r fs fs') : KeepsDirectories fs fs' :=
  ⟨h.workingDirectory, fun s hs => (h.hasDirectory_iff s).2 hs⟩

theorem route?_eq (h : ChangesOnly r fs fs') : fs'.route? p = fs.route? p :=
  route?_congr h.workingDirectory h.hasDirectory_iff

theorem modifyFile (h : fs.node? r = some (.file id)) (f : File → File) : ChangesOnly r fs (fs.modifyFile id f) where
  workingDirectory := rfl
  files := by simp [FileSystem.modifyFile]
  node _ _ := .inl rfl
  directory _ := Iff.rfl
  same _ h := .inl h
  file i hi hne := by
    have : i ≠ id := by rintro rfl; exact hne h
    rw [file_modifyFile _ _ _ _ (fs.known _ _ h), if_neg this]

theorem touchDirectory (fs : FileSystem) (dir : Route) (name : Name) :
    ChangesOnly (dir ++ [name]) fs (fs.touchDirectory dir) where
  workingDirectory := by simp
  files := by simp
  node s _ := by
    rcases node?_touchDirectory fs dir s with h | ⟨h, hd⟩
    · exact .inl h
    · exact .inr ⟨by simpa using h, hd⟩
  directory t := by simp
  same _ h := .inl (node?_touchDirectory_file.1 h)
  file _ _ _ := by simp

private theorem addFile (h : fs.node? r = none) (file : File) : ChangesOnly r fs (fs.addFile r file) where
  workingDirectory := rfl
  files := by simp [FileSystem.addFile]
  node s hs := .inl (by simp [node?_addFile, hs])
  directory t := by simp [node?_addFile, h]
  same i hi := by
    simp only [node?_addFile, if_true, Option.some.injEq, Node.file.injEq] at hi
    exact .inr (Nat.le_of_eq hi)
  file i hi _ := by rw [file_addFile, if_neg (by omega)]

private theorem removeWhere (h : fs.node? r = some (.file id)) : ChangesOnly r fs (fs.removeWhere (· = r)) where
  workingDirectory := rfl
  files := Nat.le_refl _
  node s hs := .inl (by simp [node?_removeWhere, hs])
  directory t := by simp [node?_removeWhere, h]
  same i hi := by simp [node?_removeWhere] at hi
  file _ _ _ := rfl

theorem of_create (h : fs.create p = .ok (id, fs')) (hr : ∀ s, fs.route? p = some s → s = r) :
    ChangesOnly r fs fs' ∧ fs'.node? r = some (.file id) := by
  obtain ⟨dir, name, hl, -, hcases⟩ := create_eq_ok h
  obtain rfl := hr _ (route?_eq_some.2 ⟨_, hl, rfl⟩)
  rcases hcases with ⟨hn, rfl⟩ | ⟨hn, rfl, rfl⟩
  · exact ⟨modifyFile hn _, hn⟩
  · refine ⟨(addFile hn _).trans (touchDirectory _ dir name), ?_⟩
    rw [node?_touchDirectory_file, node?_addFile]
    simp [Spot.route]

theorem of_remove (h : fs.remove p = .ok fs') (hr : ∀ s, fs.route? p = some s → s = r) : ChangesOnly r fs fs' := by
  obtain ⟨dir, name, id, hl, hn, rfl⟩ := remove_eq_ok h
  obtain rfl := hr _ (route?_eq_some.2 ⟨_, hl, rfl⟩)
  exact (removeWhere hn).trans (touchDirectory _ dir name)

end ChangesOnly

/-! ### Renaming -/

/-- A file has gone from one route to another one, at which no directory was. -/
structure Renamed (src dst : Route) (id : Nat) (fs fs' : FileSystem) : Prop where
  workingDirectory : fs'.workingDirectory = fs.workingDirectory
  files : fs'.files = fs.files
  source : fs.node? src = some (.file id)
  target : ¬ fs.HasDirectory dst
  moved : fs'.node? dst = some (.file id)
  gone : fs'.node? src = none
  node : ∀ s, s ≠ src → s ≠ dst → fs'.node? s = fs.node? s ∨
    ((s = src.dropLast ∨ s = dst.dropLast) ∧ fs.HasDirectory s ∧ fs'.HasDirectory s)

namespace Renamed

variable {src dst : Route}

theorem hasDirectory_iff (h : Renamed src dst id fs fs') (s : Route) : fs'.HasDirectory s ↔ fs.HasDirectory s := by
  by_cases hs : s = src
  · subst hs
    unfold HasDirectory
    rw [h.source, h.gone]
    simp
  by_cases hd : s = dst
  · subst hd
    refine ⟨?_, fun hd => absurd hd h.target⟩
    rintro ⟨t, ht⟩
    rw [h.moved] at ht
    cases ht
  rcases h.node s hs hd with hn | ⟨-, hd₁, hd₂⟩
  · unfold HasDirectory; rw [hn]
  · exact ⟨fun _ => hd₁, fun _ => hd₂⟩

theorem keepsDirectories (h : Renamed src dst id fs fs') : KeepsDirectories fs fs' :=
  ⟨h.workingDirectory, fun s hs => (h.hasDirectory_iff s).2 hs⟩

theorem route?_eq (h : Renamed src dst id fs fs') : fs'.route? p = fs.route? p :=
  route?_congr h.workingDirectory h.hasDirectory_iff

private theorem node?_touchDirectory_twice (fs : FileSystem) (r₁ r₂ s : Route) :
    ((fs.touchDirectory r₁).touchDirectory r₂).node? s = fs.node? s ∨
      ((s = r₁ ∨ s = r₂) ∧ fs.HasDirectory s ∧ ((fs.touchDirectory r₁).touchDirectory r₂).HasDirectory s) := by
  rcases node?_touchDirectory fs r₁ s with h₁ | ⟨h₁, hd, hd₁⟩
  · rcases node?_touchDirectory (fs.touchDirectory r₁) r₂ s with h₂ | ⟨h₂, ⟨t, ht⟩, hd₂⟩
    · exact .inl (h₂.trans h₁)
    · exact .inr ⟨.inr h₂, ⟨t, h₁ ▸ ht⟩, hd₂⟩
  · refine .inr ⟨.inl h₁, hd, ?_⟩
    rcases node?_touchDirectory (fs.touchDirectory r₁) r₂ s with h₂ | ⟨-, -, hd₂⟩
    · obtain ⟨t, ht⟩ := hd₁
      exact ⟨t, h₂.trans ht⟩
    · exact hd₂

private theorem moveNode_same (fs : FileSystem) (src dst : Route) :
    (fs.moveNode src dst).files = fs.files ∧ (fs.moveNode src dst).workingDirectory = fs.workingDirectory := by
  unfold moveNode
  split <;> exact ⟨rfl, rfl⟩

private theorem of_move {srcDir dstDir : Route} {srcName dstName : Name}
    (hsrc : fs.node? (srcDir ++ [srcName]) = some (.file id)) (hdst : ¬ fs.HasDirectory (dstDir ++ [dstName]))
    (hne : srcDir ++ [srcName] ≠ dstDir ++ [dstName]) :
    Renamed (srcDir ++ [srcName]) (dstDir ++ [dstName]) id fs
      (((fs.moveNode (srcDir ++ [srcName]) (dstDir ++ [dstName])).touchDirectory srcDir).touchDirectory dstDir) := by
  have hmove := node?_moveNode hsrc (dstDir ++ [dstName])
  obtain ⟨hfiles, hworking⟩ := moveNode_same fs (srcDir ++ [srcName]) (dstDir ++ [dstName])
  have htouched := node?_touchDirectory_twice (fs.moveNode (srcDir ++ [srcName]) (dstDir ++ [dstName])) srcDir dstDir
  refine ⟨by simp [hworking], by simp [hfiles], hsrc, hdst, ?_, ?_, fun s hs hd => ?_⟩
  · rw [node?_touchDirectory_file, node?_touchDirectory_file, hmove, if_pos rfl]
  · have hgone := hmove (srcDir ++ [srcName])
    rw [if_neg hne, if_pos rfl] at hgone
    rcases htouched (srcDir ++ [srcName]) with h | ⟨-, ⟨t, ht⟩, -⟩
    · rw [h, hgone]
    · rw [hgone] at ht; cases ht
  · have hkept := hmove s
    rw [if_neg hd, if_neg hs] at hkept
    rcases htouched s with h | ⟨h, ⟨t, ht⟩, hd'⟩
    · exact .inl (h.trans hkept)
    · exact .inr ⟨by simpa using h, ⟨t, hkept ▸ ht⟩, hd'⟩

theorem of_rename {q : Path} (h : fs.rename p q = .ok fs') (hne : ∀ r, fs.route? p = some r → fs.route? q ≠ some r) :
    ∃ src dst id, fs.route? p = some src ∧ fs.route? q = some dst ∧ Renamed src dst id fs fs' ∧
      fs'.stat q = .ok (dst, .file id) := by
  obtain ⟨srcDir, srcName, dstDir, dstName, id, hs, hd, hlen, hsrc, hdst, heq⟩ := rename_eq_ok h
  have hs' : fs.route? p = some (srcDir ++ [srcName]) := route?_eq_some.2 ⟨_, hs, rfl⟩
  have hd' : fs.route? q = some (dstDir ++ [dstName]) := route?_eq_some.2 ⟨_, hd, rfl⟩
  have hroutes : srcDir ++ [srcName] ≠ dstDir ++ [dstName] := fun he => hne _ hs' (he ▸ hd')
  have hr : Renamed (srcDir ++ [srcName]) (dstDir ++ [dstName]) id fs fs' :=
    heq hroutes ▸ of_move hsrc hdst hroutes
  refine ⟨_, _, id, hs', hd', hr, stat_eq_ok.2 ⟨.entry dstDir dstName false, ?_, rfl, ⟨hlen, by simp⟩, hr.moved⟩⟩
  exact locate_mono hr.keepsDirectories hd

end Renamed

end Bindery.FileSystem
