import Bindery.Proofs.CommandLine.FreshShortcut

/-!
# Sources that are edited while they are compiled

The texts of sources are read before their stamps are taken, and files may be edited in between.  A stamp is of the file
as it is when it is taken, and depends on the text no further than that there was one.  A check therefore notices what
is edited afterwards, and it notices a file that had no text when the texts were read
(`Tracker.fresh_table_is_of_read_texts`).  But an edit between the reading of a text and the taking of its stamp goes
unnoticed (`Tracker.edits_before_record_go_unnoticed`).
-/

namespace Bindery

open FileSystem StringTable

variable {t t₁ t₂ : Tracker} {fs fs₁ fs₂ fs₃ : FileSystem} {s : Source} {p : Path} {sources : List Source}

/-! ### Sources that have not changed -/

namespace Source

/-- The contents of a file that has not changed, if its checksum tells. -/
theorem Unchanged.read_eq (h : Unchanged fs₁ fs₂ s s) (hp : s.path = some p) (hcrc : ToldApart fs₁ p fs₂ p)
    {bytes : List UInt8} (hr : fs₁.read p = .ok bytes) : fs₂.read p = .ok bytes := by
  obtain ⟨p₁, p₂, -, hp₁, hp₂, -, -, -, -, -, hcontents⟩ := h.present
  obtain rfl : p = p₁ := Option.some.inj (hp.symm.trans hp₁)
  obtain rfl : p = p₂ := Option.some.inj (hp.symm.trans hp₂)
  obtain ⟨bytes', hr', hsum⟩ := hcontents bytes hr
  rw [hr', hcrc bytes bytes' hr hr' hsum]

end Source

namespace Tracker

/-! ### Edits that are noticed -/

/-- What is there and fresh was loaded. -/
theorem loaded_of_isFresh {r : BuildRecord} (h : t.isFresh fs r sources = true) (hs : s ∈ sources)
    (hp : s.path = some p) (hex : fs.pathExists p = true) : s.loaded = true := by
  obtain ⟨stamp, -, hnone⟩ := (isFresh_eq_true h).2 s hs
  rcases staleness?_eq_none hnone with ⟨-, habsent⟩ | ⟨-, -, -, hl, -⟩
  · rw [habsent p hp] at hex
    cases hex
  · exact hl

/-- The only source of its id agrees with its own stamp, if it is fresh. -/
theorem staleness?_of_isFresh_record (h : t₂.isFresh fs₂ (t₁.record fs₁ sources) sources = true) (hs : s ∈ sources)
    (honly : ∀ s' ∈ sources, s'.id = s.id → s' = s) : t₂.staleness? fs₂ (s.stamp fs₁) s = none := by
  obtain ⟨stamp, hget, hnone⟩ := (isFresh_eq_true h).2 s hs
  obtain ⟨s', hs', hid, rfl⟩ := exists_of_get?_record hget
  rwa [honly s' hs' hid] at hnone

/-- The file of a source that was loaded, and had a time other than second zero, has the contents that it had when its
stamp was taken. -/
theorem read_eq_of_isFresh_record (hv : t₂.verifyChecksums = true)
    (h : t₂.isFresh fs₂ (t₁.record fs₁ sources) sources = true) (hs : s ∈ sources)
    (honly : ∀ s' ∈ sources, s'.id = s.id → s' = s) (hl : s.loaded = true) (hp : s.path = some p)
    (hcrc : ToldApart fs₁ p fs₂ p) (htime : Source.timestamp? fs₁ p ≠ some 0) {bytes : List UInt8}
    (hr : fs₁.read p = .ok bytes) : fs₂.read p = .ok bytes := by
  have hthere : fs₁.pathExists p = true := by
    obtain ⟨r, id, hstat, -⟩ := read_eq_ok.1 hr
    exact pathExists_eq_true.2 ⟨_, _, hstat⟩
  rcases staleness?_eq_none (staleness?_of_isFresh_record h hs honly) with
    ⟨hblank, -⟩ | ⟨p', hp', hex, hl', hblank, hsame, hsum⟩
  · exact absurd ((Source.isBlank_stamp_iff hl hp hthere).1 hblank) htime
  · exact (unchanged_of_staleness? hv hp' hex hl' hblank hsame hsum).read_eq hp hcrc hr

/-- The texts of sources are read in one file system, their stamps are taken in another, and they are fresh in a third.
Then every entry of the table has the text that the file of its source had when it was read.  The file still had that
text when its stamp was taken, unless it was edited before, and it has the contents now that it had when its stamp was
taken.  And every source that is there has an entry. -/
theorem fresh_table_is_of_read_texts (hv : t₂.verifyChecksums = true)
    (hcrc : ∀ s ∈ sources, ∀ p, s.path = some p → ToldApart fs₂ p fs₃ p)
    (h : t₂.isFresh fs₃ (t₁.record fs₂ (gather fs₁ sources).2) (gather fs₁ sources).2 = true) :
    (∀ e ∈ (gather fs₁ sources).1, ∃ s ∈ sources, ∃ p, s.id = e.1 ∧ s.path = some p ∧ fs₁.plainText? p = some e.2 ∧
      (fs₂.read p = fs₁.read p → fs₂.plainText? p = some e.2) ∧
      ((∀ s' ∈ sources, s'.id = s.id → s' = s) → Source.timestamp? fs₂ p ≠ some 0 →
        ∀ bytes, fs₂.read p = .ok bytes → fs₃.read p = .ok bytes)) ∧
    ∀ s ∈ sources, ∀ p, s.path = some p → fs₃.pathExists p = true →
      ∃ text, (s.id, text) ∈ (gather fs₁ sources).1 ∧ fs₁.plainText? p = some text := by
  rw [gather_eq] at h ⊢
  dsimp only at h ⊢
  constructor
  · intro e he
    obtain ⟨s, hs, he⟩ := List.mem_filterMap.1 he
    obtain ⟨text, ht, rfl⟩ := Option.map_eq_some_iff.1 he
    obtain ⟨p, hp, hl, htext⟩ := Source.text?_eq_some ht
    refine ⟨s, hs, p, rfl, hp, htext, fun hsame => (plainText?_congr hsame).trans htext, ?_⟩
    intro honly htime bytes hbytes
    have hread : s.afterReading fs₁ = s := Source.afterReading_of_text? (by rw [ht]; rfl)
    refine read_eq_of_isFresh_record hv h (List.mem_map.2 ⟨s, hs, hread⟩) (fun s' hs' hid => ?_) hl hp (hcrc s hs p hp)
      htime hbytes
    obtain ⟨s₀, hs₀, rfl⟩ := List.mem_map.1 hs'
    obtain rfl := honly s₀ hs₀ hid
    exact hread
  · intro s hs p hp hex
    obtain ⟨text, ht⟩ :=
      Source.text?_of_loaded_afterReading hp (loaded_of_isFresh h (List.mem_map_of_mem hs) hp hex)
    obtain ⟨p', hp', -, htext⟩ := Source.text?_eq_some ht
    obtain rfl : p = p' := Option.some.inj (hp.symm.trans hp')
    exact ⟨text, List.mem_filterMap.2 ⟨s, hs, by rw [ht]; rfl⟩, htext⟩

/-- A working directory with one file. -/
def oneSource (text : String) (modified : Time.Instant) : FileSystem :=
  (bare ⟨0⟩).addFile [Text.encode "a"] ⟨.ofList (Text.encode text), modified⟩

/-- A file is edited before its stamp is taken, and written once more with the same contents half a second later. -/
theorem fresh_table_is_of_text_before_edit :
    let a : Source := ⟨"a", some (.ofString "a"), true⟩
    let t : Tracker := ⟨"1", "", true⟩
    let fs₁ := oneSource "v1" ⟨5000000000⟩
    let fs₂ := oneSource "v2" ⟨6000000000⟩
    let fs₃ := oneSource "v2" ⟨6500000000⟩
    t.isFresh fs₃ (t.record fs₂ (gather fs₁ [a, a]).2) (gather fs₁ [a, a]).2 = true ∧
      (∃ text, ("a", text) ∈ (gather fs₁ [a, a]).1 ∧ fs₁.plainText? (.ofString "a") = some text) ∧
      fs₃.read (.ofString "a") = .ok (Text.encode "v2") := by
  intro a t fs₁ fs₂ fs₃
  have hfresh : t.isFresh fs₃ (t.record fs₂ (gather fs₁ [a, a]).2) (gather fs₁ [a, a]).2 = true := by decide +kernel
  have hread : fs₂.read (.ofString "a") = .ok (Text.encode "v2") := by decide +kernel
  have honly (s : Source) (hs : s ∈ [a, a]) : s = a := by simpa using hs
  have hpath (s : Source) (hs : s ∈ [a, a]) (p : Path) (hp : s.path = some p) : p = .ofString "a" := by
    rw [honly s hs] at hp
    exact (Option.some.inj hp).symm
  obtain ⟨hentries, hsources⟩ := fresh_table_is_of_read_texts rfl (fun s hs p hp bytes₂ bytes₃ h₂ h₃ _ => by
    obtain rfl := hpath s hs p hp
    have hsame : fs₃.read (.ofString "a") = fs₂.read (.ofString "a") := by decide +kernel
    rw [hsame, h₂] at h₃
    exact (Except.ok.inj h₃).symm) hfresh
  refine ⟨hfresh, hsources a List.mem_cons_self _ rfl (by decide +kernel), ?_⟩
  obtain ⟨s, hs, p, -, hp, -, -, hlater⟩ := hentries ("a", "v1") (by decide +kernel)
  obtain rfl := hpath s hs p hp
  exact hlater (fun s' hs' _ => (honly s' hs').trans (honly s hs).symm) (by decide +kernel) _ hread

/-! ### Edits that go unnoticed -/

/-- Sources that had texts, and whose files are there when their stamps are taken, are fresh whatever the texts were. -/
theorem edits_before_record_go_unnoticed (hids : (sources.map Source.id).Nodup)
    (htexts : ∀ s ∈ sources, (s.text? fs₁).isSome = true)
    (hthere : ∀ s ∈ sources, ∀ p, s.path = some p → fs₂.pathExists p = true ∧ Source.timestamp? fs₂ p ≠ some 0) :
    t.isFresh fs₂ (t.record fs₂ (gather fs₁ sources).2) (gather fs₁ sources).2 = true := by
  have hloaded : (gather fs₁ sources).2 = sources := by
    rw [gather_eq]
    exact (List.map_congr_left fun s hs => Source.afterReading_of_text? (htexts s hs)).trans (List.map_id _)
  have hagree (s : Source) (hs : s ∈ sources) (s' : Source) (hs' : s' ∈ sources) (he : s.id = s'.id) : s = s' :=
    List.inj_on_of_nodup_map hids hs hs' he
  rw [hloaded, isFresh_record_iff fun s hs s' hs' he => by rw [hagree s hs s' hs' he]]
  refine ⟨fun _ => Iff.rfl, fun s hs s' hs' he => ?_, by rw [Version.order_self]; nofun⟩
  obtain rfl := hagree s hs s' hs' he
  obtain ⟨text, ht⟩ := Option.isSome_iff_exists.1 (htexts s hs)
  obtain ⟨p, hp, hl, -⟩ := Source.text?_eq_some ht
  obtain ⟨hex, htime⟩ := hthere s hs p hp
  exact (staleness?_stamp hl hp hex).2 htime

/-- The text of a fresh table is not the one that its source had when its stamp was taken. -/
theorem edit_before_record_is_lost :
    let sources : List Source := [⟨"a", some (.ofString "a"), true⟩]
    let t : Tracker := ⟨"0.1.0", "", true⟩
    let fs₁ := oneSource "v1" (.ofSeconds 5)
    let fs₂ := oneSource "v2" (.ofSeconds 6)
    t.isFresh fs₂ (t.record fs₂ (gather fs₁ sources).2) (gather fs₁ sources).2 = true ∧
      ("a", "v1") ∈ (gather fs₁ sources).1 ∧ fs₂.readText (.ofString "a") = .ok "v2" ∧
      Checksum.crc32 (Text.encode "v1") ≠ Checksum.crc32 (Text.encode "v2") := by
  decide +kernel

end Tracker

end Bindery
