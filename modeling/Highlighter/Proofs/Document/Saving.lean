import Highlighter.Proofs.Document.Reopen
import Highlighter.Proofs.Store.Frame

/-!
# Unsaved edits

What a document says of itself along a run of edits and savings that may fail, while the
places that cannot be written change around it. It is modified exactly while an edit is
unsaved, what fails changes nothing, and a document that has been saved and is not modified is
what its file holds: `modified_iff_unsaved`.
-/

namespace Highlighter

namespace Document

/-! ### Runs -/

inductive Event where
  | edit (e : Edit)
  | save
  | saveAs (p : Path)
  /-- From now on exactly these places cannot be written. -/
  | protect (places : List Place)

def Event.saves : Event → Bool
  | .save | .saveAs _ => true
  | .edit _ | .protect _ => false

def act (d : Document) (store : Store) : Event → Edited (Document × Store)
  | .edit e =>
    let (d, error) := d.perform e
    ((d, store), error)
  | .save => d.save store
  | .saveAs p => d.saveAs store p
  | .protect places => ((d, { store with readOnly := places }), none)

/-- The events of a run, the latest first, with the errors they gave. -/
abbrev Log := List (Event × Option Error)

structure Journal where
  document : Document
  store : Store
  log : Log := []

namespace Journal

def act (j : Journal) (event : Event) : Journal :=
  let ((document, store), error) := j.document.act j.store event
  { document, store, log := (event, error) :: j.log }

def run (j : Journal) (events : List Event) : Journal := events.foldl act j

end Journal

def Saved (entry : Event × Option Error) : Prop := entry.1.saves = true ∧ entry.2 = none

instance (entry : Event × Option Error) : Decidable (Saved entry) :=
  inferInstanceAs (Decidable (_ ∧ _))

/-- An edit was made, and nothing has been saved since. -/
def Unsaved (log : Log) : Prop :=
  ∃ later e earlier, log = later ++ (.edit e, none) :: earlier ∧ ∀ entry ∈ later, ¬ Saved entry

theorem not_unsaved_nil : ¬ Unsaved [] := by
  rintro ⟨later, e, earlier, hlog, -⟩
  cases later with
  | nil | cons first later => cases hlog

theorem unsaved_edit (e : Edit) (log : Log) : Unsaved ((.edit e, none) :: log) :=
  ⟨[], e, log, rfl, fun _ hm => absurd hm List.not_mem_nil⟩

theorem not_unsaved_saved {entry : Event × Option Error} (h : Saved entry) (log : Log) :
    ¬ Unsaved (entry :: log) := by
  rintro ⟨later, e, earlier, hlog, hlater⟩
  cases later with
  | nil =>
    cases hlog
    cases h.1
  | cons first later =>
    cases hlog
    exact hlater entry List.mem_cons_self h

/-- An entry that is neither an edit made nor a saving leaves what is unsaved. -/
theorem unsaved_cons_iff {entry : Event × Option Error} (hs : ¬ Saved entry)
    (he : ∀ e, entry ≠ (.edit e, none)) (log : Log) : Unsaved (entry :: log) ↔ Unsaved log := by
  constructor
  · rintro ⟨later, e, earlier, hlog, hlater⟩
    cases later with
    | nil =>
      cases hlog
      exact absurd rfl (he e)
    | cons first later =>
      cases hlog
      exact ⟨later, e, earlier, rfl, fun x hx => hlater x (List.mem_cons_of_mem _ hx)⟩
  · rintro ⟨later, e, earlier, rfl, hlater⟩
    refine ⟨entry :: later, e, earlier, rfl, fun x hx => ?_⟩
    rcases List.mem_cons.1 hx with rfl | hx
    · exact hs
    · exact hlater x hx

/-! ### One event -/

/-- What an event can do to a complete document and its files. -/
inductive Outcome (d : Document) (store : Store) : Event → Edited (Document × Store) → Prop where
  | failed (event : Event) (error : Error) : Outcome d store event ((d, store), some error)
  | edited (e : Edit) (cache : Cache) (hc : cache.complete = true) :
    Outcome d store (.edit e) (({ d with cache, modified := true }, store), none)
  | saved {event : Event} (hs : event.saves = true) (p : Path) {store' : Store}
    (hw : store.write p d.contents = .ok store') :
    Outcome d store event
      (({ d with name := nameOf p, path? := some p, modified := false }, store'), none)
  | guarded (places : List Place) :
    Outcome d store (.protect places) ((d, { store with readOnly := places }), none)

def Named (d : Document) : Prop := ∀ p, d.path? = some p → d.name = nameOf p

theorem outcome_act {d : Document} (hc : d.cache.complete = true) (hn : d.Named) (store : Store)
    (event : Event) : Outcome d store event (d.act store event) := by
  cases event with
  | edit e =>
    rw [act]
    by_cases he : e.InRange d.cache.lines.length
    · rw [perform_of_inRange hc he]
      exact .edited e _ (Cache.complete_perform_operation (Cache.sound_of_complete hc) e)
    · rw [perform_of_not_inRange hc he]
      exact .failed ..
  | save =>
    rw [act, save]
    cases hp : d.path? with
    | none => exact .failed ..
    | some p =>
      dsimp only
      rw [writeTo_of_complete hc]
      cases hw : store.write p d.contents with
      | error cause => exact .failed ..
      | ok store' =>
        have hsaved : ({ d with modified := false } : Document) =
            { d with name := nameOf p, path? := some p, modified := false } := by
          rw [← hn p hp, ← hp]
        dsimp only
        rw [hsaved]
        exact .saved rfl p hw
  | saveAs p =>
    rw [act, saveAs, writeTo_of_complete hc]
    cases hw : store.write p d.contents with
    | error cause => exact .failed ..
    | ok store' => exact .saved rfl p hw
  | protect places => exact .guarded places

/-! ### What a document says of itself -/

/-- The file of the document holds its contents, and gives it its name. -/
def OnFile (d : Document) (store : Store) : Prop :=
  ∃ p, d.path? = some p ∧ store.read p = .ok d.contents ∧ p.fileName? = some d.name

theorem onFile_of_write {d : Document} {store store' : Store} {p : Path}
    (hw : store.write p d.contents = .ok store') :
    ({ d with name := nameOf p, path? := some p, modified := false } : Document).OnFile store' := by
  obtain ⟨name, hname⟩ := Store.fileName?_of_write hw
  refine ⟨p, rfl, Store.read_write hw, ?_⟩
  show p.fileName? = some (nameOf p)
  rw [nameOf, hname]
  rfl

/-- The document of a journal is complete, and what it says of itself is what the log says. -/
structure Journal.Faithful (j : Journal) : Prop where
  complete : j.document.cache.complete = true
  named : j.document.Named
  modified : j.document.modified = true ↔ Unsaved j.log
  onFile : (∃ entry ∈ j.log, Saved entry) → j.document.modified = false →
    j.document.OnFile j.store

namespace Journal.Faithful

theorem act {j : Journal} (h : j.Faithful) (event : Event) : (j.act event).Faithful := by
  have hout := outcome_act h.complete h.named j.store event
  -- An entry that saves nothing leaves the question whether anything has been saved.
  have hpast : ∀ {entry : Event × Option Error}, ¬ Saved entry →
      (∃ x ∈ entry :: j.log, Saved x) → ∃ x ∈ j.log, Saved x := by
    rintro entry hnot ⟨x, hx, hsaved⟩
    rcases List.mem_cons.1 hx with rfl | hx
    · exact absurd hsaved hnot
    · exact ⟨x, hx, hsaved⟩
  rw [Journal.act]
  generalize j.document.act j.store event = result at hout
  cases hout with
  | failed _ error =>
    have hnot : ¬ Saved (event, some error) := fun hsaved => nomatch hsaved.2
    refine ⟨h.complete, h.named, ?_, fun hs => h.onFile (hpast hnot hs)⟩
    exact h.modified.trans (unsaved_cons_iff hnot (fun _ heq => nomatch heq) _).symm
  | edited e cache hc =>
    exact ⟨hc, h.named, iff_of_true rfl (unsaved_edit e _), fun _ hclean => nomatch hclean⟩
  | saved hs p hw =>
    refine ⟨h.complete, ?_, ?_, fun _ _ => onFile_of_write hw⟩
    · rintro _ ⟨⟩
      rfl
    · exact iff_of_false Bool.false_ne_true (not_unsaved_saved ⟨hs, rfl⟩ _)
  | guarded places =>
    have hnot : ¬ Saved (.protect places, none) := fun hsaved => nomatch hsaved.1
    refine ⟨h.complete, h.named, ?_, fun hs => h.onFile (hpast hnot hs)⟩
    exact h.modified.trans (unsaved_cons_iff hnot (fun _ heq => nomatch heq) _).symm

theorem run {j : Journal} (h : j.Faithful) (events : List Event) : (j.run events).Faithful := by
  induction events generalizing j with
  | nil => exact h
  | cons event events ih => exact ih (h.act event)

end Journal.Faithful

/-! ### Documents as they are opened -/

/-- A document of a file, whatever has built its cache, or one that has no file yet. -/
inductive Opened : Document → Prop where
  | load {store : Store} {registry : Registry} {settings : Settings} {language? : Option String}
    {p : Path} {d : Document} (h : load store registry settings language? p = .ok d) : Opened d
  | deferred {store : Store} {registry : Registry} {settings : Settings}
    {language? : Option String} {p : Path} {d : Document} {body : Text}
    (h : loadDeferred store registry settings language? p = .ok (d, body)) (cache : Cache) :
    Opened (d.replaceCache cache)
  | scratch (cache : Cache) : Opened (scratch cache)

theorem Opened.clean {d : Document} (h : d.Opened) : d.Named ∧ d.modified = false := by
  have hfile : ∀ {store : Store} {registry : Registry} {settings : Settings}
      {language? : Option String} {p : Path} {d : Document} {body : Text} (cache : Cache),
      loadDeferred store registry settings language? p = .ok (d, body) →
      (d.replaceCache cache).Named ∧ (d.replaceCache cache).modified = false := by
    intro store registry settings language? p d body cache h
    obtain ⟨t, language, -, -, heq⟩ := loadDeferred_eq_ok h
    cases heq
    refine ⟨?_, rfl⟩
    rintro _ ⟨⟩
    rfl
  cases h with
  | load h =>
    obtain ⟨d, body, hd, rfl⟩ := load_eq_ok h
    exact hfile (d.cache.build body) hd
  | deferred h cache => exact hfile cache h
  | scratch cache => exact ⟨fun p hp => (nomatch hp), rfl⟩

/-- Along any run from an opened document: what fails changes nothing, the document is modified
exactly while an edit is unsaved, and once it has been saved and is not modified, its file holds
its contents and gives it its name. -/
theorem modified_iff_unsaved {d : Document} (hopened : d.Opened) (hc : d.cache.complete = true)
    (store : Store) (events : List Event) :
    let j := ({ document := d, store } : Journal).run events
    (∀ event error, (j.document.act j.store event).2 = some error →
      (j.document.act j.store event).1 = (j.document, j.store)) ∧
    (j.document.modified = true ↔ Unsaved j.log) ∧
    ((∃ entry ∈ j.log, Saved entry) → j.document.modified = false →
      ∃ p, j.document.path? = some p ∧ j.store.read p = .ok j.document.contents ∧
        p.fileName? = some j.document.name) := by
  intro j
  have hstart : ({ document := d, store } : Journal).Faithful := by
    refine ⟨hc, hopened.clean.1, ?_, fun hs => ?_⟩
    · rw [hopened.clean.2]
      exact iff_of_false Bool.false_ne_true not_unsaved_nil
    · obtain ⟨entry, hm, -⟩ := hs
      cases hm
  have h : j.Faithful := hstart.run events
  refine ⟨?_, h.modified, h.onFile⟩
  intro event error herror
  have hout := outcome_act h.complete h.named j.store event
  generalize j.document.act j.store event = result at hout herror ⊢
  cases hout with
  | failed _ _ => rfl
  | edited _ _ _ | saved _ _ _ | guarded _ => cases herror

/-- An edit out of range, one that is made, a saving that is denied, and one elsewhere. -/
theorem modified_iff_unsaved_denied :
    let t : Text := "a\nb\n".toList
    let store : Store := { files := ⟨[(["x.c"], .text t)]⟩ }
    let d := opened {} Language.c "x.c" t
    let events : List Event := [.edit (.setLine 5 []), .edit (.insertBelow 1 "c".toList),
      .protect [["x.c"]], .save, .saveAs "y.c"]
    let j := ({ document := d, store } : Journal).run events
    d.Opened ∧ d.cache.complete = true ∧
      j.log.map Prod.snd = [none, some (.file .denied), none, none, some (.outOfRange 5 2)] ∧
      j.document.modified = false ∧ ¬ Unsaved j.log ∧
      j.store.read "y.c" = .ok "a\nb\nc\n".toList ∧ j.document.name = "y.c" := by
  intro t store d events j
  have hread : store.read "x.c" = .ok t := by decide +kernel
  have hlang : languageFor Registry.builtin none "x.c" = .ok Language.c := by decide +kernel
  have hopened : d.Opened := .load (@load_eq store _ {} none "x.c" t _ hread hlang)
  have hc : d.cache.complete = true := by decide +kernel
  obtain ⟨herrors, hsaved, hclean, hpath, hcontents⟩ : j.log.map Prod.snd =
      [none, some (.file .denied), none, none, some (.outOfRange 5 2)] ∧
      (∃ entry ∈ j.log, Saved entry) ∧ j.document.modified = false ∧
      j.document.path? = some "y.c" ∧ j.document.contents = "a\nb\nc\n".toList := by
    decide +kernel
  have hreport := modified_iff_unsaved hopened hc store events
  have hj : ({ document := d, store } : Journal).run events = j := rfl
  -- From here on only what has been found of the run is used, not the run itself.
  clear_value j
  rw [hj] at hreport
  obtain ⟨-, hmodified, hfile⟩ := hreport
  obtain ⟨p, hp, hheld, hname⟩ := hfile hsaved hclean
  cases hpath.symm.trans hp
  rw [hcontents] at hheld
  have hy : Path.fileName? "y.c" = some "y.c" := by decide
  rw [hclean, eq_false Bool.false_ne_true, false_iff] at hmodified
  exact ⟨hopened, hc, herrors, hclean, hmodified, hheld,
    Option.some.inj (hname.symm.trans hy)⟩

end Document

end Highlighter
