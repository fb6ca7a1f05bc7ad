import Bindery.Proofs.Arena.Region
import Bindery.Proofs.Arena.Separation

/-!
# What calls do to the allocated region

A call that allocates, writes or reads (`Call.Inside`) and succeeds changes the allocated bytes in a way that can be
read off the call (`Call.effect`), and where the region ends after it can be told from where it ended before
(`Effect.stop?`).  A call that fails leaves everything as it was, and fails for want of space only if its end is
not in the file.  `Call.ends` says all this of every call on an arena that is written (`Writing`) and backed by the file
at its path (`BackedBy`), as an arena is that has been created or opened for writing.  Such an arena stays one over
every run of calls (`BackedBy.runAll`).
-/

namespace Bindery.Arena

open Steps FileSystem

/-! ### Arenas that are written -/

/-- An arena is mapped for writing, by a given mapping, and the file at its path is the mapped one. -/
structure Writing (m : Mapping) (s : State) : Prop where
  mapping : s.arena.mapping = some m
  writable : m.mode = .readWrite
  opens : s.fs.openToWrite s.arena.path = .ok m.file

namespace Writing

variable {m : Mapping} {s : State}

theorem isOpen (h : Writing m s) : s.arena.isOpen = true := isOpen_eq_true.2 ⟨m, h.mapping⟩

theorem known (h : Writing m s) : m.file < s.fs.files.length := known_of_openToWrite h.opens

theorem writableMapping_eq (h : Writing m s) : s.arena.writableMapping = .ok m :=
  writableMapping_eq_ok.2 ⟨h.mapping, h.writable⟩

theorem modifyFile (h : Writing m s) (f : File → File) (size : Nat) :
    Writing m ⟨s.fs.modifyFile m.file f, { s.arena with size }⟩ :=
  ⟨h.mapping, h.writable, openToWrite_modifyFile h.opens _ _⟩

end Writing

/-- An arena is written, and its file is as long as the mapping. -/
structure BackedBy (m : Mapping) (s : State) : Prop extends Writing m s where
  length : (s.fs.file m.file).content.size = m.length
  size_le : s.arena.size ≤ m.length
  length_le : m.length ≤ maxCapacity

namespace BackedBy

variable {m : Mapping} {s s' : State} {layout : Layout} {count pos stop : Nat} {o : Offset} {bytes : List UInt8}

theorem capacity_eq (h : BackedBy m s) : s.arena.capacity = m.length := by
  unfold capacity
  rw [h.mapping]

theorem length_allocated (h : BackedBy m s) : s.allocated.length = s.arena.size := State.length_allocated h.mapping

/-! ### New arenas -/

theorem of_mapped {id : Nat} (hid : s.fs.openToWrite s.arena.path = .ok id)
    (hcap : (s.fs.file id).content.size ≤ maxCapacity) :
    BackedBy ⟨.readWrite, id, (s.fs.file id).content.size⟩ (s.mapped .readWrite id) :=
  ⟨⟨rfl, rfl, hid⟩, rfl, Nat.zero_le _, hcap⟩

theorem of_openToWrite (h : openToWrite s = .ok () s') (hcap : s'.arena.capacity ≤ maxCapacity) :
    ∃ m, BackedBy m s' ∧ s'.arena.size = 0 := by
  unfold openToWrite at h
  obtain ⟨_, s₁, -, h⟩ := bind_eq_ok.1 h
  obtain ⟨id, hid, rfl⟩ := map_eq_ok h
  exact ⟨_, of_mapped hid hcap, rfl⟩

theorem of_create {n : Nat} (h : create n s = .ok () s') :
    ∃ m, BackedBy m s' ∧ m.length = n ∧ s'.arena.size = 0 := by
  obtain ⟨m, hlen, hsize, hm⟩ := represents_of_create h
  rw [create_apply] at h
  split at h
  · cases h
  split at h
  · cases h
  split at h
  · cases h
  obtain ⟨_, s₁, -, h⟩ := bind_eq_ok.1 h
  obtain ⟨id, hid, rfl⟩ := map_eq_ok h
  obtain rfl : ⟨.readWrite, id, (s₁.fs.file id).content.size⟩ = m := Option.some.inj hm.mapping
  exact ⟨_, of_mapped hid hm.length_le, hlen, rfl⟩

/-- A file that is there can be made into an arena of any capacity. -/
theorem exists_create {id n : Nat} (h : s.fs.openToWrite s.arena.path = .ok id) (hpos : 1 ≤ n)
    (hmax : n ≤ maxCapacity) : ∃ s', create n s = .ok () s' := by
  obtain ⟨r, hr⟩ := openToWrite_eq_ok.1 h
  have hpath : ¬ s.arena.path.isEmpty = true := by
    obtain ⟨spot, hl, -⟩ := stat_eq_ok.1 hr
    rw [(locate_eq_ok.1 hl).2.1]
    nofun
  have hexists : s.fs.pathExists s.arena.path = true := pathExists_eq_true.2 ⟨r, _, hr⟩
  have hopen : (s.shut (s.fs.setLength id n)).fs.openToWrite (s.shut (s.fs.setLength id n)).arena.path = .ok id :=
    openToWrite_modifyFile h _ _
  rw [create_apply, if_neg (by omega), if_neg (by omega), if_neg hpath, if_pos hexists, bind_apply, resize_apply,
    if_neg (by omega), h]
  dsimp only
  rw [map_readWrite_apply, hopen]
  exact ⟨_, rfl⟩

/-! ### Changes to the region -/

private theorem modifyFile (h : BackedBy m s) {f : File → File}
    (hf : (f (s.fs.file m.file)).content.size = m.length) (stop : Nat) (hstop : stop ≤ m.length) :
    BackedBy m ⟨s.fs.modifyFile m.file f, { s.arena with size := stop }⟩ := by
  refine ⟨h.toWriting.modifyFile f stop, ?_, hstop, h.length_le⟩
  rw [file_modifyFile _ _ _ _ h.known, if_pos rfl, hf]

theorem reserved (h : BackedBy m s) (hsize : s.arena.size ≤ stop) (hstop : stop ≤ m.length) :
    BackedBy m (s.reserved m.file stop) ∧
      (s.reserved m.file stop).allocated = s.allocated ++ List.replicate (stop - s.allocated.length) 0 :=
  ⟨h.modifyFile h.length stop hstop, State.allocated_reserved h.mapping h.known hsize⟩

/-- Bytes that are written stand in the place of allocated ones. -/
theorem overwritten (h : BackedBy m s) (hstop : pos + bytes.length ≤ s.arena.size) :
    BackedBy m { s with fs := s.fs.writeAt m.file pos bytes } ∧
      ({ s with fs := s.fs.writeAt m.file pos bytes } : State).allocated =
        s.allocated.take pos ++ bytes ++ s.allocated.drop (pos + bytes.length) := by
  unfold writeAt
  split
  · next hnil =>
    subst hnil
    refine ⟨h, ?_⟩
    rw [List.length_nil, Nat.add_zero, List.append_nil, List.take_append_drop]
  · next hne =>
    have hb : BackedBy m ⟨s.fs.modifyFile m.file fun f => ⟨f.content.overwrite pos bytes, s.fs.now⟩, s.arena⟩ := by
      refine h.modifyFile ?_ s.arena.size h.size_le
      show (if bytes = [] then _ else max _ _) = _
      have := h.length
      have := h.size_le
      rw [if_neg hne]
      omega
    refine ⟨hb, ?_⟩
    rw [State.allocated_eq hb.mapping, State.allocated_eq h.mapping]
    dsimp only
    rw [file_modifyFile _ _ _ _ h.known, if_pos rfl]
    have hslice : ((s.fs.file m.file).content.overwrite (0 + pos) bytes).slice 0 s.arena.size = _ :=
      Content.slice_overwrite_inside _ hstop
    rwa [Nat.zero_add] at hslice

end BackedBy

/-! ### Effects -/

/-- A call that allocates, writes or reads.  A value has as many bytes as its layout says. -/
def Call.Inside : Call → Prop
  | .allocate _ _ | .pushText _ | .flush | .get _ _ | .getAll _ _ _ | .getText _ | .contents => True
  | .pushAll layout values | .writeAll layout _ values => ∀ v ∈ values, v.length = layout.size
  | .push layout value | .write layout _ value => value.length = layout.size
  | .create _ | .openToRead | .openToWrite | .resize _ | .trim | .close | .remove => False

instance : (c : Call) → Decidable c.Inside
  | .allocate _ _ | .pushText _ | .flush | .get _ _ | .getAll _ _ _ | .getText _ | .contents => .isTrue trivial
  | .pushAll layout values | .writeAll layout _ values =>
    inferInstanceAs (Decidable (∀ v ∈ values, v.length = layout.size))
  | .push layout value | .write layout _ value => inferInstanceAs (Decidable (value.length = layout.size))
  | .create _ | .openToRead | .openToWrite | .resize _ | .trim | .close | .remove => .isFalse id

/-- What becomes of the allocated bytes. -/
inductive Effect where
  | keep
  | overwrite (offset : Offset) (bytes : List UInt8)
  /-- Room for so many values is handed out, and bytes are put at the front of it. -/
  | append (layout : Layout) (count : Nat) (bytes : List UInt8)

/-- What a call does if it succeeds. -/
def Call.effect : Call → Effect
  | .allocate layout count => .append layout count []
  | .pushAll layout values => .append layout values.length values.flatten
  | .push layout value => .append layout 1 value
  | .pushText text => .append .byte ((Text.encode text).length + 1) (Text.encode text)
  | .write _ o value => .overwrite o value
  | .writeAll _ o values => .overwrite o values.flatten
  | _ => .keep

namespace Effect

/-- The allocated bytes afterwards. -/
def apply (region : List UInt8) : Effect → List UInt8
  | keep => region
  | overwrite o bytes => region.take o.position ++ bytes ++ region.drop (o.position + bytes.length)
  | append layout count bytes =>
    let start := roundUp region.length layout.align
    let zeroed := region ++ List.replicate (start + layout.size * count - region.length) 0
    zeroed.take start ++ bytes ++ zeroed.drop (start + bytes.length)

/-- Where the allocated region ends afterwards, if there is space and 64 bits can hold the number of bytes. -/
def stop? (size : Nat) : Effect → Option Nat
  | keep | overwrite _ _ => some size
  | append layout count _ =>
    if layout.size * count ≤ maxWord then some (roundUp size layout.align + layout.size * count) else none

theorem le_of_stop? {size n : Nat} {e : Effect} (h : e.stop? size = some n) : size ≤ n := by
  cases e with
  | keep => exact Nat.le_of_eq (Option.some.inj h)
  | overwrite o bytes => exact Nat.le_of_eq (Option.some.inj h)
  | append layout count bytes =>
    rw [stop?] at h
    split at h
    · have := le_roundUp size layout.align_pos
      have := Option.some.inj h
      omega
    · cases h

/-- What the call answers, if it is not for the allocated bytes to say. -/
def Answers (size : Nat) (a : Answer) : Effect → Prop
  | keep => True
  | overwrite _ _ => a = .done
  | append layout _ _ => a = .offset (.ofPosition (roundUp size layout.align))

/-- The state of an arena before and after an effect. -/
structure Done (e : Effect) (m : Mapping) (s s' : State) : Prop where
  backed : BackedBy m s'
  path : s'.arena.path = s.arena.path
  allocated : s'.allocated = e.apply s.allocated
  stop : e.stop? s.arena.size = some s'.arena.size

/-- An error that means no more than that there is too little space for an effect, if it means that. -/
def Refused (e : Effect) (m : Mapping) (s : State) (err : Error) : Prop :=
  err.isExhausted = true → ∀ n, e.stop? s.arena.size = some n → m.length < n

/-- How a call ends: with its effect, or with an error and no effect. -/
inductive Ends (e : Effect) (m : Mapping) (s : State) : EStateM.Result Error State Answer → Prop
  | done {a : Answer} {s' : State} (ha : e.Answers s.arena.size a) (h : e.Done m s s') : Ends e m s (.ok a s')
  | failed {err : Error} (h : e.Refused m s err) : Ends e m s (.error err s)

end Effect

/-! ### The effects of calls -/

section Calls

variable {m : Mapping} {s : State} {layout : Layout} {count : Nat} {o : Offset} {bytes : List UInt8} {len : Nat}

private theorem refused_of_not_exhausted {e : Effect} {err : Error} (h : err.isExhausted = false) :
    e.Refused m s err := by
  intro h'
  rw [h] at h'
  cases h'

private theorem not_exhausted_of_positionOf {a : Arena} {err : Error} (h : a.positionOf o len = .error err) :
    err.isExhausted = false := by
  unfold positionOf at h
  split at h
  · cases h; rfl
  split at h
  · cases h; rfl
  split at h
  · cases h; rfl
  · cases h

/-- Handing out room and putting bytes at the front of it succeeds, or fails, and then for want of space if any room was
asked for. -/
def Appends (m : Mapping) (s : State) (layout : Layout) (count : Nat) (bytes : List UInt8) (x : Action Offset) : Prop :=
  (∃ s', x s = .ok (.ofPosition (roundUp s.arena.size layout.align)) s' ∧
      (Effect.append layout count bytes).Done m s s') ∨
    ∃ err, x s = .error err s ∧ (Effect.append layout count bytes).Refused m s err ∧
      (0 < layout.size * count → err.isExhausted = true)

private theorem allocate_cases (h : BackedBy m s) (layout : Layout) (count : Nat) (bytes : List UInt8) :
    (layout.size * count ≤ maxWord ∧ roundUp s.arena.size layout.align < maxCapacity ∧
      roundUp s.arena.size layout.align + layout.size * count ≤ m.length ∧
      allocate layout count s = .ok (.ofPosition (roundUp s.arena.size layout.align))
        (s.reserved m.file (roundUp s.arena.size layout.align + layout.size * count))) ∨
    ∃ err, allocate layout count s = .error err s ∧ (Effect.append layout count bytes).Refused m s err ∧
      (0 < layout.size * count → err.isExhausted = true) := by
  rw [allocate_apply, h.writableMapping_eq]
  split
  · next hzero =>
    refine .inr ⟨_, rfl, refused_of_not_exhausted rfl, fun hpos => ?_⟩
    have := Nat.pos_of_mul_pos_left hpos
    have := Nat.pos_of_mul_pos_right hpos
    omega
  next hzero =>
  dsimp only
  rw [h.capacity_eq]
  split
  · next hfits =>
    obtain ⟨hword, hstop⟩ := hfits
    rw [spanLength_of_le hword] at hstop ⊢
    have hpos : 0 < layout.size * count := Nat.mul_pos (by omega) (by omega)
    have := h.length_le
    exact .inl ⟨hword, by omega, hstop, rfl⟩
  · next hfits =>
    refine .inr ⟨_, rfl, fun _ n hn => ?_, fun _ => rfl⟩
    rw [Effect.stop?] at hn
    split at hn
    · next hword =>
      obtain rfl := Option.some.inj hn
      rw [spanLength_of_le hword] at hfits
      omega
    · cases hn

private theorem append_done (h : BackedBy m s) (hword : layout.size * count ≤ maxWord)
    (hstop : roundUp s.arena.size layout.align + layout.size * count ≤ m.length)
    (hle : bytes.length ≤ layout.size * count) :
    (Effect.append layout count bytes).Done m s
      { s.reserved m.file (roundUp s.arena.size layout.align + layout.size * count) with
        fs := (s.reserved m.file (roundUp s.arena.size layout.align + layout.size * count)).fs.writeAt m.file
          (roundUp s.arena.size layout.align) bytes } := by
  have hsize := le_roundUp s.arena.size layout.align_pos
  obtain ⟨hr, hzeros⟩ := h.reserved (by omega) hstop
  obtain ⟨hw, hbytes⟩ := hr.overwritten
    (show roundUp s.arena.size layout.align + bytes.length ≤ _ from Nat.add_le_add_left hle _)
  refine ⟨hw, rfl, ?_, ?_⟩
  · rw [hbytes, hzeros, Effect.apply, h.length_allocated]
  · rw [Effect.stop?, if_pos hword]
    rfl

theorem appends_allocate (h : BackedBy m s) (layout : Layout) (count : Nat) :
    Appends m s layout count [] (allocate layout count) := by
  rcases allocate_cases h layout count [] with ⟨hword, -, hstop, ha⟩ | herr
  · exact .inl ⟨_, ha, append_done h hword hstop (Nat.zero_le _)⟩
  · exact .inr herr

/-- What was allocated can be written to. -/
theorem appends_fill (h : BackedBy m s) (hle : bytes.length ≤ layout.size * count)
    (hlen : layout.size * count ≤ maxWord → bytes.length = len) :
    Appends m s layout count bytes
      (allocate layout count >>= fun o => writeRange layout o len bytes >>= fun _ => pure o) := by
  unfold Appends
  rw [bind_apply]
  rcases allocate_cases h layout count bytes with ⟨hword, hstart, hstop, ha⟩ | ⟨err, ha, hr⟩
  · obtain rfl := hlen hword
    refine .inl ⟨_, ?_, append_done h hword hstop hle⟩
    have hsize := le_roundUp s.arena.size layout.align_pos
    obtain ⟨hreserved, -⟩ := h.reserved (by omega) hstop
    have hposition : (Offset.ofPosition (roundUp s.arena.size layout.align)).position = _ :=
      Offset.position_ofPosition (Nat.le_of_lt hstart)
    have hpos : (s.reserved m.file (roundUp s.arena.size layout.align + layout.size * count)).arena.positionOf
        (.ofPosition (roundUp s.arena.size layout.align)) bytes.length =
          .ok (roundUp s.arena.size layout.align) := by
      refine positionOf_eq_ok.2 ⟨hreserved.isOpen, ?_, ?_, hposition.symm⟩
      · exact Offset.ne_null (by rwa [hposition])
      · rw [hposition]
        exact Nat.add_le_add_left hle _
    rw [ha]
    dsimp only
    rw [bind_apply, writeRange_apply, hpos, hreserved.writableMapping_eq]
    dsimp only
    rw [if_pos (roundUp_mod _ _)]
    rfl
  · exact .inr ⟨err, by rw [ha], hr⟩

theorem appends_pushAll (h : BackedBy m s) {values : List (List UInt8)}
    (hv : ∀ v ∈ values, v.length = layout.size) :
    Appends m s layout values.length values.flatten (pushAll layout values) := by
  have hlen := length_flatten_of_forall hv
  refine appends_fill h (Nat.le_of_eq hlen) fun hw => ?_
  rw [hlen, spanLength_of_le hw]

theorem appends_push (h : BackedBy m s) {value : List UInt8} (hv : value.length = layout.size) :
    Appends m s layout 1 value (push layout value) :=
  appends_fill h (Nat.le_of_eq (hv.trans (Nat.mul_one _).symm)) fun _ => hv

theorem appends_pushText (h : BackedBy m s) {text : String} (h0 : 0 ∉ Text.encode text) :
    Appends m s .byte ((Text.encode text).length + 1) (Text.encode text) (pushText text) := by
  have hle : (Text.encode text).length ≤ Layout.byte.size * ((Text.encode text).length + 1) := by
    rw [show Layout.byte.size = 1 from rfl]
    omega
  rw [pushText_eq h0]
  exact appends_fill h hle (length_encode_eq_span text)

theorem write_cases (h : BackedBy m s) (layout : Layout) (o : Offset)
    (hlen : len ≤ maxCapacity → bytes.length = len) :
    (∃ s', writeRange layout o len bytes s = .ok () s' ∧ (Effect.overwrite o bytes).Done m s s') ∨
    ∃ err, writeRange layout o len bytes s = .error err s ∧ (Effect.overwrite o bytes).Refused m s err := by
  rw [writeRange_apply, h.writableMapping_eq]
  cases hp : s.arena.positionOf o len with
  | error err => exact .inr ⟨err, rfl, refused_of_not_exhausted (not_exhausted_of_positionOf hp)⟩
  | ok pos =>
    obtain ⟨-, -, hstop, rfl⟩ := positionOf_eq_ok.1 hp
    dsimp only
    split
    · -- the bytes lie in the region, so that there are not more of them than it holds
      have := h.size_le
      have := h.length_le
      obtain rfl := hlen (by omega)
      obtain ⟨hw, hbytes⟩ := h.overwritten hstop
      exact .inl ⟨_, rfl, hw, rfl, hbytes, rfl⟩
    · exact .inr ⟨_, rfl, refused_of_not_exhausted rfl⟩

private theorem look_ends (h : BackedBy m s) {α : Type} {f : State → Except Error α} {g : α → Answer}
    (hf : ∀ err, f s = .error err → err.isExhausted = false) :
    Effect.keep.Ends m s ((look f >>= fun a => pure (g a)) s) := by
  rw [bind_apply, look_apply]
  cases hs : f s with
  | ok a => exact .done trivial ⟨h, rfl, rfl, rfl⟩
  | error err => exact .failed (refused_of_not_exhausted (hf err hs))

private theorem not_exhausted_of_readRange {err : Error} (h : s.readRange layout o len = .error err) :
    err.isExhausted = false := by
  unfold State.readRange at h
  cases hp : s.arena.positionOf o len with
  | error err' =>
    rw [hp] at h
    cases h
    exact not_exhausted_of_positionOf hp
  | ok pos =>
    rw [hp] at h
    dsimp only at h
    split at h <;> cases h
    rfl

private theorem not_exhausted_of_getText {err : Error} (h : s.getText o = .error err) : err.isExhausted = false := by
  unfold State.getText at h
  cases hp : s.arena.positionOf o 1 with
  | error err' =>
    rw [hp] at h
    cases h
    exact not_exhausted_of_positionOf hp
  | ok pos =>
    rw [hp] at h
    dsimp only at h
    split at h
    · cases h; rfl
    · split at h <;> cases h
      rfl

private theorem Appends.ends {x : Action Offset} (h : Appends m s layout count bytes x) :
    (Effect.append layout count bytes).Ends m s ((x >>= fun o => pure (.offset o)) s) := by
  rw [bind_apply]
  rcases h with ⟨s', hs, hd⟩ | ⟨err, hs, hr, -⟩
  · rw [hs]
    exact .done rfl hd
  · rw [hs]
    exact .failed hr

private theorem ends_of_write {x : Action Unit}
    (h : (∃ s', x s = .ok () s' ∧ (Effect.overwrite o bytes).Done m s s') ∨
      ∃ err, x s = .error err s ∧ (Effect.overwrite o bytes).Refused m s err) :
    (Effect.overwrite o bytes).Ends m s ((x >>= fun _ => pure .done) s) := by
  rw [bind_apply]
  rcases h with ⟨s', hs, hd⟩ | ⟨err, hs, hr⟩
  · rw [hs]
    exact .done rfl hd
  · rw [hs]
    exact .failed hr

/-- A call ends as its effect says. -/
theorem Call.ends (h : BackedBy m s) {c : Call} (hc : c.Inside) : c.effect.Ends m s (c.run s) := by
  cases c with
  | create _ | openToRead | openToWrite | resize _ | trim | close | remove => exact hc.elim
  | flush =>
    show Effect.Ends _ m s ((Arena.flush >>= fun _ => pure Answer.done) s)
    rw [bind_apply, flush_apply, if_pos h.isOpen]
    exact .done trivial ⟨h, rfl, rfl, rfl⟩
  | get layout o => exact look_ends h fun _ => not_exhausted_of_readRange
  | getAll layout o count => exact look_ends h fun _ => not_exhausted_of_readRange
  | getText o => exact look_ends h fun _ => not_exhausted_of_getText
  | contents =>
    refine look_ends h fun err he => ?_
    rw [State.contents_eq_ok.2 ⟨h.isOpen, rfl⟩] at he
    cases he
  | allocate layout count => exact (appends_allocate h layout count).ends
  | pushAll layout values => exact (appends_pushAll h hc).ends
  | push layout value => exact (appends_push h hc).ends
  | pushText text =>
    by_cases h0 : 0 ∈ Text.encode text
    · show Effect.Ends _ m s ((Arena.pushText text >>= fun o => pure (Answer.offset o)) s)
      rw [bind_apply, pushText_of_nul h0]
      exact .failed (refused_of_not_exhausted rfl)
    · exact (appends_pushText h h0).ends
  | write layout o value =>
    exact ends_of_write (write_cases h layout o fun _ => hc)
  | writeAll layout o values =>
    have hlen : values.flatten.length = layout.size * values.length := length_flatten_of_forall hc
    refine ends_of_write (write_cases h layout o fun hle => ?_)
    -- a length that 64 bits cannot hold is not one that an arena has
    have : (maxCapacity : Nat) < maxWord := by decide
    unfold spanLength at hle ⊢
    omega

theorem Call.done_of_ok (h : BackedBy m s) {c : Call} (hc : c.Inside) {a : Answer} {s' : State}
    (hrun : c.run s = .ok a s') : c.effect.Answers s.arena.size a ∧ c.effect.Done m s s' := by
  have hends := c.ends h hc
  rw [hrun] at hends
  cases hends with
  | done ha hd => exact ⟨ha, hd⟩

theorem Call.refused_of_error (h : BackedBy m s) {c : Call} (hc : c.Inside) {err : Error} {s' : State}
    (hrun : c.run s = .error err s') : s' = s ∧ c.effect.Refused m s err := by
  have hends := c.ends h hc
  rw [hrun] at hends
  cases hends with
  | failed hr => exact ⟨rfl, hr⟩

end Calls

/-! ### Runs of calls -/

/-- The state that is left when calls are made one after the other, whether they fail or not. -/
def runAll (calls : List Call) (s : State) : State := calls.foldl (fun s c => left (c.run s)) s

section Runs

variable {m : Mapping} {s : State}

theorem BackedBy.left_run (h : BackedBy m s) {c : Call} (hc : c.Inside) :
    BackedBy m (left (c.run s)) ∧ (left (c.run s)).arena.path = s.arena.path := by
  cases hrun : c.run s with
  | ok a s' =>
    have hd := (c.done_of_ok h hc hrun).2
    exact ⟨hd.backed, hd.path⟩
  | error err s' =>
    obtain ⟨rfl, -⟩ := c.refused_of_error h hc hrun
    exact ⟨h, rfl⟩

theorem BackedBy.runAll (h : BackedBy m s) {calls : List Call} (hc : ∀ c ∈ calls, c.Inside) :
    BackedBy m (runAll calls s) ∧ (Arena.runAll calls s).arena.path = s.arena.path := by
  induction calls generalizing s with
  | nil => exact ⟨h, rfl⟩
  | cons c calls ih =>
    obtain ⟨h₁, hp₁⟩ := h.left_run (hc c List.mem_cons_self)
    obtain ⟨h₂, hp₂⟩ := ih h₁ fun c hcs => hc c (List.mem_cons_of_mem _ hcs)
    exact ⟨h₂, hp₂.trans hp₁⟩

end Runs

end Bindery.Arena
