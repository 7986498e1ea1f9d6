import Highlighter.Store.Basic

/-!
# What a store keeps

An operation changes a store place by place. Where something new is put no directory was, and
the way there is made of directories already, so no other place becomes a directory by it. A
path to a place that did not change leads to what it led to.
-/

namespace Highlighter

namespace Store

/-! ### Ways -/

theorem isDirectory_of_isPrefix {store : Store} {here there : Place}
    (h : store.isDirectory here = true) (hp : there <+: here) : store.isDirectory there = true := by
  rw [isDirectory, Bool.or_eq_true, List.any_eq_true] at h ⊢
  rcases h with h | ⟨⟨place, entry⟩, hm, h⟩
  · rw [List.isPrefixOf_iff_prefix] at h
    exact .inl (List.isPrefixOf_iff_prefix.2 (hp.trans h))
  · refine .inr ⟨(place, entry), hm, ?_⟩
    simp only [Bool.and_eq_true, Bool.or_eq_true, bne_iff_ne, List.isPrefixOf_iff_prefix] at h ⊢
    refine ⟨hp.trans h.1, h.2.imp_right fun hne heq => hne ?_⟩
    -- Between two equal places there is no third.
    rw [heq] at hp
    exact h.1.eq_of_length_le hp.length_le

theorem isDirectory_start (store : Store) (p : Path) :
    store.isDirectory (store.start p) = true := by
  have hp : store.start p <+: store.workingDirectory := by
    rw [start]
    split
    · exact List.nil_prefix
    · exact List.prefix_refl _
  rw [isDirectory, List.isPrefixOf_iff_prefix.2 hp, Bool.true_or]

theorem isDirectory_dropLast {store : Store} {here : Place} (h : store.isDirectory here = true) :
    store.isDirectory here.dropLast = true :=
  isDirectory_of_isPrefix h (List.dropLast_prefix here)

theorem isDirectory_dropLast_follow {store : Store} {here : Place}
    (h : store.isDirectory here = true) (step : String) :
    store.isDirectory (here.follow step).dropLast = true := by
  rw [Place.follow]
  split
  · exact isDirectory_dropLast h
  · split
    · exact isDirectory_dropLast (isDirectory_dropLast h)
    · rwa [List.dropLast_concat]

theorem isDirectory_dropLast_of_foldlM_step {store : Store} {steps : List String}
    {here there : Place} (h : store.isDirectory here.dropLast = true)
    (hw : steps.foldlM store.step here = .ok there) : store.isDirectory there.dropLast = true := by
  induction steps generalizing here with
  | nil =>
    cases hw
    exact h
  | cons s steps ih =>
    rw [List.foldlM_cons] at hw
    cases hd : store.isDirectory here with
    | false => simp [step, hd, bind, Except.bind] at hw
    | true =>
      unfold step at hw
      repeat' split at hw
      all_goals first | exact ih (isDirectory_dropLast_follow hd s) hw | cases hw

theorem isDirectory_dropLast_of_walk {store : Store} {p : Path} {here : Place}
    (h : store.walk p = .ok here) : store.isDirectory here.dropLast = true := by
  have hstart := isDirectory_dropLast (isDirectory_start store p)
  unfold walk at h
  repeat' split at h
  all_goals first | exact isDirectory_dropLast_of_foldlM_step hstart h | cases h

/-! ### Changed places -/

/-- The second store has what the first has, but at the places that changed. -/
structure SameBut (changed : Place → Prop) (store store' : Store) : Prop where
  workingDirectory : store'.workingDirectory = store.workingDirectory
  readOnly : store'.readOnly = store.readOnly
  get? : ∀ here, ¬ changed here → store'.files.get? here = store.files.get? here
  isDirectory : ∀ here, ¬ changed here → store'.isDirectory here = store.isDirectory here
  /-- Directories stay, wherever they are. -/
  directory : ∀ here, store.isDirectory here = true → store'.isDirectory here = true

namespace SameBut
variable {changed changed' : Place → Prop} {store store' store'' : Store}

theorem refl (changed : Place → Prop) (store : Store) : store.SameBut changed store :=
  ⟨rfl, rfl, fun _ _ => rfl, fun _ _ => rfl, fun _ h => h⟩

theorem mono (h : store.SameBut changed store') (hc : ∀ here, changed here → changed' here) :
    store.SameBut changed' store' where
  workingDirectory := h.workingDirectory
  readOnly := h.readOnly
  get? here hh := h.get? here fun hn => hh (hc here hn)
  isDirectory here hh := h.isDirectory here fun hn => hh (hc here hn)
  directory := h.directory

theorem trans (h : store.SameBut changed store') (h' : store'.SameBut changed store'') :
    store.SameBut changed store'' where
  workingDirectory := h'.workingDirectory.trans h.workingDirectory
  readOnly := h'.readOnly.trans h.readOnly
  get? here hh := (h'.get? here hh).trans (h.get? here hh)
  isDirectory here hh := (h'.isDirectory here hh).trans (h.isDirectory here hh)
  directory here hh := h'.directory here (h.directory here hh)

theorem start (h : store.SameBut changed store') (p : Path) : store'.start p = store.start p := by
  rw [Store.start, Store.start, h.workingDirectory]

theorem place (h : store.SameBut changed store') (p : Path) : store'.place p = store.place p := by
  rw [Store.place, Store.place, h.start]

theorem walk (h : store.SameBut changed store') {p : Path} {here : Place}
    (hw : store.walk p = .ok here) : store'.walk p = .ok here := by
  rw [Store.walk] at hw ⊢
  rw [h.start]
  split at hw
  · cases hw
  · split at hw
    · cases hw
    · rename_i hp
      rw [if_neg hp]
      exact foldlM_step_of_isDirectory h.directory hw

/-- What a path leads to is found again, unless its place has changed. -/
theorem find (h : store.SameBut changed store') {p : Path} (hp : ¬ changed (store.place p))
    {entry : Entry} (hf : store.find p = .ok entry) : store'.find p = .ok entry := by
  rw [Store.find] at hf ⊢
  cases hw : store.walk p with
  | error e =>
    rw [hw] at hf
    cases hf
  | ok here =>
    rw [place_of_walk hw] at hp
    rw [hw] at hf
    rw [h.walk hw]
    simp only [h.isDirectory here hp, h.get? here hp]
    exact hf

end SameBut

/-! ### What operations change -/

/-- A path to an entry ends at a directory, or at a file that is kept there. -/
theorem find_eq_ok {store : Store} {p : Path} {entry : Entry} (h : store.find p = .ok entry) :
    store.walk p = .ok (store.place p) ∧
      (store.isDirectory (store.place p) = true ∧ entry = .directory ∨
        store.isDirectory (store.place p) = false ∧ p.endsInSlash = false ∧
          store.files.get? (store.place p) = some entry) := by
  rw [find] at h
  cases hw : store.walk p with
  | error e =>
    rw [hw] at h
    cases h
  | ok here =>
    rw [place_of_walk hw]
    simp only [hw] at h
    refine ⟨rfl, ?_⟩
    split at h
    · rename_i hd
      cases h
      exact .inl ⟨hd, rfl⟩
    · rename_i hd
      split at h
      · cases h
      · rename_i hfile
        split at h
        · cases h
        · rename_i hs
          cases h
          exact .inr ⟨Bool.eq_false_iff.2 hd, Bool.eq_false_iff.2 hs, hfile⟩

theorem sameBut_insert {store : Store} {here : Place} (hnew : store.isDirectory here = false)
    (hway : store.isDirectory here.dropLast = true) (entry : Entry) :
    store.SameBut (· = here) { store with files := store.files.insert here entry } where
  workingDirectory := rfl
  readOnly := rfl
  get? there hne := by rw [Table.get?_insert, if_neg hne]
  isDirectory there hne := by
    rw [isDirectory_insert hnew]
    cases hp : there.isPrefixOf here with
    | false => rw [Bool.false_and, Bool.or_false]
    | true =>
      -- A place on the way to the new one is a directory already.
      obtain ⟨rest, rfl⟩ := List.isPrefixOf_iff_prefix.1 hp
      have hrest : rest ≠ [] := by
        rintro rfl
        exact hne (List.append_nil there).symm
      rw [List.dropLast_append_of_ne_nil hrest] at hway
      rw [isDirectory_of_isPrefix hway (List.prefix_append _ _), Bool.true_or]
  directory there h := by rw [isDirectory_insert hnew, h, Bool.true_or]

theorem sameBut_write {store store' : Store} {p : Path} {contents : Text}
    (h : store.write p contents = .ok store') : store.SameBut (· = store.place p) store' := by
  obtain ⟨hw, hd, -, rfl⟩ := write_eq_ok h
  exact sameBut_insert hd (isDirectory_dropLast_of_walk hw) _

def Vacant (store : Store) (here : Place) : Prop :=
  store.isDirectory here = false ∧ store.files.get? here = none

theorem not_vacant_of_find {store : Store} {p : Path} {entry : Entry}
    (h : store.find p = .ok entry) : ¬ store.Vacant (store.place p) := by
  rintro ⟨hd, hn⟩
  rcases (find_eq_ok h).2 with ⟨hdirectory, -⟩ | ⟨-, -, hfile⟩
  · rw [hd] at hdirectory
    cases hdirectory
  · rw [hn] at hfile
    cases hfile

/-- What filled vacant places goes on to fill places that were vacant from the start. -/
theorem SameBut.trans_vacant {store store' store'' : Store}
    (h : store.SameBut store.Vacant store') (h' : store'.SameBut store'.Vacant store'') :
    store.SameBut store.Vacant store'' := by
  refine h.trans (h'.mono fun here hv => Classical.byContradiction fun hh => ?_)
  rw [Vacant, h.isDirectory here hh, h.get? here hh] at hv
  exact hh hv

theorem sameBut_makeMissing {store store' : Store} {here : Place} {steps : List String}
    (hd : store.isDirectory here = true) (h : store.makeMissing here steps = .ok store') :
    store.SameBut store.Vacant store' := by
  induction steps generalizing store here with
  | nil =>
    cases h
    exact .refl ..
  | cons step steps ih =>
    rw [makeMissing] at h
    split at h
    · cases h
    · cases hn : store.isDirectory (here.follow step) with
      | true =>
        rw [if_pos hn] at h
        exact ih hn h
      | false =>
        rw [hn, if_neg Bool.false_ne_true] at h
        split at h
        · cases h
        · rename_i hvacant
          have hnone : store.files.get? (here.follow step) = none := by
            simpa [Table.has] using hvacant
          have hmade := sameBut_insert hn (isDirectory_dropLast_follow hd step) .directory
          have hnext : ({ store with files := store.files.insert (here.follow step) .directory } :
              Store).isDirectory (here.follow step) = true := by
            rw [isDirectory_insert hn]
            simp
          refine SameBut.trans_vacant (hmade.mono ?_) (ih hnext h)
          rintro _ rfl
          exact ⟨hn, hnone⟩

theorem sameBut_makeWay {store store' : Store} {here : Place} {steps : List String}
    (hd : store.isDirectory here = true) (h : store.makeWay here steps = .ok store') :
    store.SameBut store.Vacant store' := by
  induction steps generalizing here with
  | nil =>
    cases h
    exact .refl ..
  | cons step steps ih =>
    rw [makeWay] at h
    cases hn : store.isDirectory (here.follow step) with
    | true =>
      rw [if_pos hn] at h
      exact ih hn h
    | false =>
      rw [hn, if_neg Bool.false_ne_true] at h
      split at h
      · cases h
      · exact sameBut_makeMissing hd h

theorem sameBut_makeDirectory {store store' : Store} {p : Path}
    (h : store.makeDirectory p = .ok store') : store.SameBut store.Vacant store' := by
  rw [makeDirectory] at h
  split at h
  · cases h
  · exact sameBut_makeWay (isDirectory_start store p) h

theorem sameBut_touch {store store' : Store} {p : Path} (h : store.touch p = .ok store') :
    store.SameBut store.Vacant store' := by
  rw [touch] at h
  split at h
  · cases h
  · cases h
    exact .refl ..
  · rename_i hf
    obtain ⟨hw, hd, -, -⟩ := write_eq_ok h
    refine (sameBut_write h).mono ?_
    rintro _ rfl
    refine ⟨hd, ?_⟩
    rw [find, hw] at hf
    simp only [hd, Bool.false_eq_true, if_false] at hf
    split at hf
    · assumption
    · split at hf <;> cases hf
  · cases h

theorem sameBut_append (store : Store) (p : Path) (t : Text) :
    store.SameBut (· = store.place p) (store.append p t) := by
  rw [append]
  split
  · exact .refl ..
  · exact .refl ..
  · rename_i entry hfile hfind
    split
    · exact .refl ..
    · obtain ⟨hw, hkept⟩ := find_eq_ok hfind
      rcases hkept with ⟨-, hd⟩ | ⟨hd, -, -⟩
      · exact absurd hd hfile
      · exact sameBut_insert hd (isDirectory_dropLast_of_walk hw) _

theorem append_nil (store : Store) (p : Path) : store.append p [] = store := by
  rw [append]
  split <;> rfl

/-! ### Reading and writing -/

theorem read_eq_ok_iff {store : Store} {p : Path} {t : Text} :
    store.read p = .ok t ↔ store.find p = .ok (.text t) := by
  rw [read]
  constructor
  · intro h
    split at h
    · rename_i hf
      cases h
      exact hf
    all_goals cases h
  · intro h
    rw [h]

theorem SameBut.read {changed : Place → Prop} {store store' : Store}
    (h : store.SameBut changed store') {p : Path} (hp : ¬ changed (store.place p)) {t : Text}
    (hread : store.read p = .ok t) : store'.read p = .ok t :=
  read_eq_ok_iff.2 (h.find hp (read_eq_ok_iff.1 hread))

theorem write_of_read {store : Store} {p : Path} {t : Text} (hread : store.read p = .ok t)
    (hp : store.place p ∉ store.readOnly) (contents : Text) :
    ∃ store', store.write p contents = .ok store' := by
  obtain ⟨hw, hkept⟩ := find_eq_ok (read_eq_ok_iff.1 hread)
  rcases hkept with ⟨-, hd⟩ | ⟨hd, hs, -⟩
  · cases hd
  · rw [write]
    simp only [hw]
    rw [if_neg (by simp [hs, hd]), if_neg (by simpa using hp)]
    exact ⟨_, rfl⟩

/-! ### Names of files -/

/-- A walk out of the directories has gone its last step by a name. -/
theorem last_step_of_foldlM_step {store : Store} {steps : List String} {here there : Place}
    (hd : store.isDirectory here = true) (hw : steps.foldlM store.step here = .ok there)
    (hout : store.isDirectory there = false) :
    ∃ way name, steps = way ++ [name] ∧ name ≠ "." ∧ name ≠ ".." := by
  rcases List.eq_nil_or_concat steps with rfl | ⟨way, name, rfl⟩
  · cases hw
    rw [hd] at hout
    cases hout
  · rw [List.concat_eq_append, List.foldlM_append] at hw
    cases hmid : way.foldlM store.step here with
    | error e =>
      rw [hmid] at hw
      cases hw
    | ok mid =>
      have hlast : (store.step mid name >>= pure) = .ok there := by
        rw [hmid] at hw
        exact hw
      rw [bind_pure, step] at hlast
      cases hdir : store.isDirectory mid with
      | false => simp [hdir] at hlast
      | true =>
        have hthere : mid.follow name = there := by
          rw [hdir, Bool.not_true, if_neg Bool.false_ne_true] at hlast
          split at hlast
          · cases hlast
          · exact Except.ok.inj hlast
        refine ⟨way, name, List.concat_eq_append .., ?_, ?_⟩
        · rintro rfl
          have hsame : mid = there := hthere
          rw [← hsame, hdir] at hout
          cases hout
        · rintro rfl
          have hup : mid.dropLast = there := hthere
          rw [← hup, isDirectory_dropLast hdir] at hout
          cases hout

/-- A path to which a file can be written ends in the name of the file. -/
theorem fileName?_of_write {store store' : Store} {p : Path} {contents : Text}
    (h : store.write p contents = .ok store') : ∃ name, p.fileName? = some name := by
  obtain ⟨hw, hout, -, -⟩ := write_eq_ok h
  have hsteps : p.steps.foldlM store.step (store.start p) = .ok (store.place p) := by
    rw [walk] at hw
    split at hw
    · cases hw
    · split at hw
      · cases hw
      · exact hw
  obtain ⟨way, name, hlast, hdot, hup⟩ :=
    last_step_of_foldlM_step (isDirectory_start store p) hsteps hout
  refine ⟨name, ?_⟩
  rw [Path.fileName?, Path.parts, hlast]
  simp [List.filter_append, hdot, hup]

end Store

end Highlighter
