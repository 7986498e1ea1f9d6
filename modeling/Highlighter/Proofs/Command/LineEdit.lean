import Highlighter.Command.Run
import Highlighter.Proofs.Document.Reopen
import Highlighter.Proofs.Document.Splice
import Highlighter.Proofs.Store.Frame

/-!
# Commands that edit a line

A command that sets, inserts or deletes a line reads the file, makes one edit and writes the
file. Of the text of the file only the line and a terminator next to it change, and of the
other files none does. A command that fails leaves everything as it was.
-/

namespace Highlighter

/-- What a command does at the line of a number. -/
inductive LineEdit where
  | set (text : Text)
  | insertAbove (text : Text)
  | insertBelow (text : Text)
  | delete

namespace LineEdit

def text : LineEdit → Text
  | .set text | .insertAbove text | .insertBelow text => text
  | .delete => []

def command (file : Path) (line : Nat) : LineEdit → Command
  | .set text => .set file line text
  | .insertAbove text => .insert file line text false
  | .insertBelow text => .insert file line text true
  | .delete => .delete file line

def atIndex (index : Nat) : LineEdit → Document.Edit
  | .set text => .setLine index text
  | .insertAbove text => .insertAbove index text
  | .insertBelow text => .insertBelow index text
  | .delete => .deleteLine index

/-- The last number that the command can be given where there are so many lines. -/
def lastLine (count : Nat) : LineEdit → Nat
  | .insertAbove _ => count + 1
  | .set _ | .insertBelow _ | .delete => count

def applyTo (lines : List Text) (line : Nat) : LineEdit → List Text
  | .set text => lines.set (line - 1) text
  | .insertAbove text => lines.insertIdx (line - 1) text
  | .insertBelow text => lines.insertIdx line text
  | .delete => Cache.withoutLine lines (line - 1)

/-- The text of a file with the line edited: the lines that are left with the terminator between
them, and at the end if it was there. -/
def rewrite (terminator : Terminator) (t : Text) (line : Nat) (e : LineEdit) : Text :=
  terminator.joinLines (e.applyTo (t.dropTerminator terminator).lines line) ++
    if t.endsWith terminator then terminator.text else []

theorem index_atIndex (e : LineEdit) (index : Nat) : (e.atIndex index).index = index := by
  cases e <;> rfl

theorem value_atIndex (e : LineEdit) (index : Nat) : (e.atIndex index).value = e.text := by
  cases e <;> rfl

theorem applyTo_atIndex (e : LineEdit) (index : Nat) (lines : List Text) :
    (e.atIndex index).applyTo lines = e.applyTo lines (index + 1) := by
  cases e <;> rfl

theorem inRange_atIndex (e : LineEdit) (index count : Nat) :
    (e.atIndex index).InRange count ↔ index + 1 ≤ e.lastLine count := by
  cases e with
  | insertAbove text => exact Nat.succ_le_succ_iff.symm
  | set text | insertBelow text | delete => exact Iff.rfl

theorem spliced_rewrite {terminator : Terminator} {t : Text} (h : t.OnlyEnds terminator)
    {e : LineEdit} {index : Nat}
    (he : (e.atIndex index).InRange (t.dropTerminator terminator).lines.length) :
    terminator.Spliced ((t.dropTerminator terminator).lines.getD index []) e.text t
      (e.rewrite terminator t (index + 1)) := by
  have hspliced := (Document.Edit.spliced_applyTo terminator (Text.lines_ne_nil _) _ he).append
    (if t.endsWith terminator then terminator.text else [])
  rw [Text.joinLines_dropTerminator h, index_atIndex, value_atIndex, applyTo_atIndex] at hspliced
  exact hspliced

end LineEdit

namespace Request

/-! ### What is logged -/

/-- The place is that of the log file, and something is logged. -/
def Logs (store : Store) (o : Options) (log : Log) (here : Place) : Prop :=
  log ≠ {} ∧ ∃ p, logFile? o = some p ∧ store.place p = here

/-- What a run may change but for the file of its command: where nothing was, and the log. -/
def Aside (store : Store) (o : Options) (log : Log) (here : Place) : Prop :=
  store.Vacant here ∨ Logs store o log here

theorem not_aside_of_find {store : Store} {o : Options} {log : Log} {p : Path} {entry : Entry}
    (hlogs : ¬ Logs store o log (store.place p)) (h : store.find p = .ok entry) :
    ¬ Aside store o log (store.place p) := by
  rintro (hvacant | hlog)
  · exact Store.not_vacant_of_find h hvacant
  · exact hlogs hlog

/-- Opening a log makes a file and directories at most where nothing is. -/
theorem sameBut_openLog {store store' : Store} {log : Option Path}
    (h : openLog store log = .ok store') : store.SameBut store.Vacant store' := by
  cases log with
  | none =>
    cases h
    exact .refl ..
  | some p =>
    rw [openLog] at h
    split at h
    · cases h
    · rename_i name _
      cases hmake : store.makeDirectory (Path.parent p) with
      | error e =>
        rw [hmake] at h
        cases h
      | ok made =>
        rw [hmake] at h
        cases htouch : made.touch ((Path.parent p).child name) with
        | error e =>
          simp only [Except.bind, htouch] at h
          cases h
        | ok touched =>
          simp only [Except.bind, htouch] at h
          cases h
          exact (Store.sameBut_makeDirectory hmake).trans_vacant (Store.sameBut_touch htouch)

theorem errors_log (state : State) (o : Options) (t : Text) :
    (state.log o t).errors = state.errors ++ if (logFile? o).isSome then [] else t := by
  rw [State.log]
  split
  · rename_i p hp
    rw [hp]
    exact (List.append_nil _).symm
  · rename_i hnone
    rw [hnone]
    rfl

section Logging
variable {store : Store} {o : Options} {log : Log} {t : Text}

/-- A line of the log changes the log file only. -/
theorem sameBut_log {state : State} (h : store.SameBut (Aside store o log) state.store)
    (ht : log = {} → t = []) : store.SameBut (Aside store o log) (state.log o t).store := by
  rw [State.log]
  split
  · rename_i p hp
    by_cases hlog : log = {}
    · rw [ht hlog, Store.append_nil]
      exact h
    · refine h.trans ((Store.sameBut_append state.store p t).mono ?_)
      rintro _ rfl
      exact .inr ⟨hlog, p, hp, (h.place p).symm⟩
  · exact h

end Logging

section Saving
variable {store written : Store} {o : Options} {log : Log} {writing : State} {file p : Path}
  {t : Text} {entry : Entry}
  (hwriting : store.SameBut (Aside store o log) writing.store)
  (hwrite : writing.store.write file t = .ok written)
  (hlogs : ¬ Logs store o log (store.place p))
include hwriting hwrite hlogs

/-- What is logged after the write goes to the same file as before. -/
theorem find_saved (hfind : written.find p = .ok entry) :
    (({ writing with store := written } : State).log o log.afterWriting).store.find p =
      .ok entry := by
  have hplace (q : Path) : written.place q = store.place q :=
    ((Store.sameBut_write hwrite).place q).trans (hwriting.place q)
  have hlogs' : ¬ Logs written o log (written.place p) := by
    simpa only [Logs, hplace] using hlogs
  exact (sameBut_log (.refl ..) (congrArg Log.afterWriting)).find
    (not_aside_of_find hlogs' hfind) hfind

theorem find_saved_of_ne (hne : store.place p ≠ store.place file)
    (hfind : store.find p = .ok entry) :
    (({ writing with store := written } : State).log o log.afterWriting).store.find p =
      .ok entry := by
  refine find_saved hwriting hwrite hlogs ((Store.sameBut_write hwrite).find ?_ ?_)
  · rwa [hwriting.place, hwriting.place]
  · exact hwriting.find (not_aside_of_find hlogs hfind) hfind

end Saving

/-! ### Commands that fail -/

theorem exists_of_bind_eq_ok {α β : Type} {x : Except Error α} {f : α → Except Error β} {b : β}
    (h : (x >>= f) = .ok b) : ∃ a, x = .ok a ∧ f a = .ok b := by
  cases x with
  | error e => cases h
  | ok a => exact ⟨a, rfl, h⟩

section Exit
variable {state : State} {store' : Store} {s : Settings} {o : Options} {log : Log} {exit : Nat}
  {output errors : Text}

theorem exit_of_show? {file : Path} {view : Document → Text}
    (h : show? state s o log file view = .ok (.finished exit output errors store')) :
    exit = 0 := by
  obtain ⟨d, -, h⟩ := exists_of_bind_eq_ok h
  cases h
  rfl

theorem exit_of_edit {file : Path} {change : Document → Except Error Document}
    (h : edit state s o log file change = .ok (.finished exit output errors store')) :
    exit = 0 := by
  obtain ⟨d, -, h⟩ := exists_of_bind_eq_ok h
  obtain ⟨d', -, h⟩ := exists_of_bind_eq_ok h
  obtain ⟨saved, -, h⟩ := exists_of_bind_eq_ok h
  cases h
  rfl

theorem exit_of_perform {c : Command}
    (h : perform state s o log c = .ok (.finished exit output errors store')) : exit = 0 := by
  cases c with
  | view file raw numbers | stats file | tokens file => exact exit_of_show? h
  | set file line text | insert file line text below | delete file line => exact exit_of_edit h
  | page file =>
    obtain ⟨opened, -, h⟩ := exists_of_bind_eq_ok h
    cases h
  | languages =>
    cases h
    rfl

end Exit

/-- A command that fails leaves whatever there was, but for the log. -/
theorem sameBut_of_failed {store store' : Store} {home : Option Path} {log : Log} {r : Request}
    {exit : Nat} {output errors : Text}
    (h : r.run store home log = .finished exit output errors store') (hexit : exit ≠ 0) :
    store.SameBut (Aside store r.options log) store' := by
  rw [run] at h
  split at h
  · cases h
    exact .refl ..
  · rename_i opened hlog
    have hopened : store.SameBut (Aside store r.options log) opened :=
      (sameBut_openLog hlog).mono fun _ => .inl
    split at h
    · cases h
      exact hopened
    · dsimp only at h
      split at h
      · rename_i outcome hperform
        subst h
        exact absurd (exit_of_perform hperform) hexit
      · cases h
        exact sameBut_log (sameBut_log hopened (congrArg Log.beforeReading))
          (congrArg Log.beforeWriting)

/-! ### Edits -/

section Edit
variable {store opened : Store} {home : Option Path} {o : Options} {s : Settings} {log : Log}
  {file : Path}

theorem perform_command_zero (state : State) (e : LineEdit) :
    perform state s o log (e.command file 0) =
      edit state s o log file fun _ => .error .lineZero := by
  cases e <;> rfl

theorem perform_command_succ (state : State) (e : LineEdit) (index : Nat) :
    perform state s o log (e.command file (index + 1)) = edit state s o log file fun d =>
      (d.perform (e.atIndex index)).toExcept := by
  cases e <;> rfl

theorem run_eq_ok {c : Command} {outcome : Outcome} (hlog : openLog store o.logPath? = .ok opened)
    (hset : settings opened home o = .ok s)
    (h : perform (({ store := opened } : State).log o log.beforeReading) s o log c =
      .ok outcome) :
    run store home log ⟨o, c⟩ = outcome := by
  simp only [run, hlog, hset, h]

theorem run_eq_error {c : Command} {e : Error} (hlog : openLog store o.logPath? = .ok opened)
    (hset : settings opened home o = .ok s)
    (h : perform (({ store := opened } : State).log o log.beforeReading) s o log c = .error e) :
    run store home log ⟨o, c⟩ = report
      ((({ store := opened } : State).log o log.beforeReading).log o log.beforeWriting) e := by
  simp only [run, hlog, hset, h]

variable {state : State} {t : Text} {language : Language} {terminator : Terminator}
  (hread : state.store.read file = .ok t)
  (hlang : Document.languageFor s.registry o.language? file = .ok language)
  (nf : language.NewlineFree) (hends : t.OnlyEnds terminator)
  (hnone : t.hasBreak = false → terminator = s.terminator)
include hread hlang

theorem edit_eq (change : Document → Except Error Document) :
    edit state s o log file change = (change (Document.opened s language file t)).bind fun d =>
      (d.save (state.log o log.beforeWriting).store).toExcept.bind fun (d, store) =>
        let saved := ({ state.log o log.beforeWriting with store } : State).log o log.afterWriting
        .ok (.finished 0 (d.savedNote file) saved.errors saved.store) := by
  have hload : load state.store s o file = .ok (Document.opened s language file t) :=
    Document.load_eq hread hlang
  rw [edit, hload]
  rfl

theorem perform_line_zero (e : LineEdit) :
    perform state s o log (e.command file 0) = .error .lineZero := by
  rw [perform_command_zero, edit_eq hread hlang]
  rfl

include nf hends hnone

theorem perform_inRange {e : LineEdit} {index : Nat} (hvalue : e.text.hasBreak = false)
    (he : (e.atIndex index).InRange (t.dropTerminator terminator).lines.length) {store' : Store}
    (hwrite : (state.log o log.beforeWriting).store.write file
      (e.rewrite terminator t (index + 1)) = .ok store') :
    let saved :=
      ({ state.log o log.beforeWriting with store := store' } : State).log o log.afterWriting
    ∃ output, perform state s o log (e.command file (index + 1)) =
      .ok (.finished 0 output saved.errors saved.store) := by
  have hbuilt := Document.built_opened_of_onlyEnds s file t nf hends hnone
  have hline : (e.atIndex index).value.hasBreak = false := by rwa [e.value_atIndex]
  obtain ⟨d, hperform, hedited, hpath, hfinal⟩ := hbuilt.perform_line he hline
  have hopened : (Document.opened s language file t).finalBreak = t.endsWith terminator :=
    congrArg Prod.snd (Text.dropFinalBreak_of_onlyEnds hends)
  have hcontents : d.contents = e.rewrite terminator t (index + 1) := by
    rw [hedited.contents, hfinal, hopened, e.applyTo_atIndex]
    rfl
  have hsave := hedited.save hpath (hcontents ▸ hwrite)
  refine ⟨({ d with modified := false } : Document).savedNote file, ?_⟩
  simp only [perform_command_succ, edit_eq hread hlang, hperform, hsave, Edited.toExcept,
    Except.bind]

theorem perform_not_inRange {e : LineEdit} {index : Nat}
    (he : ¬ (e.atIndex index).InRange (t.dropTerminator terminator).lines.length) :
    perform state s o log (e.command file (index + 1)) =
      .error (.outOfRange index (t.dropTerminator terminator).lines.length) := by
  have hbuilt := Document.built_opened_of_onlyEnds s file t nf hends hnone
  simp only [perform_command_succ, edit_eq hread hlang, hbuilt.perform_refused he,
    e.index_atIndex, Edited.toExcept, Except.bind]

end Edit

end Request

end Highlighter
