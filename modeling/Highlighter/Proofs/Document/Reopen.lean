import Highlighter.Proofs.Document.Edit
import Highlighter.Proofs.Text.Terminator

/-!
# Documents and their files

A document stands for the lines of its file: its own lines, and an empty one behind the last
line end. Opening takes them from the file as they are, and what is written has them with one
terminator between them. So a file that is written and opened again shows the same contents.
-/

namespace Highlighter

namespace Document

/-- The lines of the file that the document is written to. -/
def fileLines (d : Document) : List Text :=
  d.cache.rawLines ++ if d.finalBreak then [[]] else []

/-- Of two documents of one file, the second of which reads an empty last line as a line end:
they have the same lines, or the first has that line and no line end behind it. -/
theorem rawLines_of_fileLines {d e : Document} (hne : d.cache.rawLines ≠ [])
    (hlines : e.fileLines = d.fileLines)
    (hfinal : e.finalBreak = true ↔ 2 ≤ d.fileLines.length ∧ d.fileLines.getLast? = some []) :
    if d.finalBreak = false ∧ 2 ≤ d.cache.rawLines.length ∧ d.cache.rawLines.getLast? = some []
    then e.cache.rawLines ++ [[]] = d.cache.rawLines
    else e.cache.rawLines = d.cache.rawLines := by
  have hpos : 0 < d.cache.rawLines.length := List.length_pos_iff.2 hne
  rw [fileLines] at hlines
  cases hd : d.finalBreak with
  | true =>
    -- The final line end stays one.
    have hset : d.fileLines = d.cache.rawLines ++ [[]] := by
      rw [fileLines, hd]
      rfl
    have hopen : e.finalBreak = true := by
      rw [hfinal, hset, List.length_append, List.length_singleton, List.getLast?_concat]
      exact ⟨by omega, rfl⟩
    rw [hset, hopen] at hlines
    rw [if_neg (by simp)]
    exact List.append_cancel_right hlines
  | false =>
    have hset : d.fileLines = d.cache.rawLines := by
      rw [fileLines, hd]
      exact List.append_nil _
    rw [hset] at hlines hfinal
    split
    · rename_i hempty
      rwa [hfinal.2 hempty.2] at hlines
    · rename_i hempty
      have hopen : e.finalBreak = false := by
        rw [← Bool.not_eq_true, hfinal]
        exact fun hlast => hempty ⟨rfl, hlast⟩
      rw [hopen] at hlines
      exact (List.append_nil _).symm.trans hlines

namespace Built
variable {d : Document} {m : LineList} (h : d.Built m)
include h

theorem rawLines_ne_nil : d.cache.rawLines ≠ [] := by
  rw [h.rawLines]
  exact h.refines.wellFormed.1

theorem fileLines_ne_nil : d.fileLines ≠ [] := by
  rw [fileLines]
  simp [h.rawLines_ne_nil]

theorem hasBreak_of_mem_fileLines {l : Text} (hl : l ∈ d.fileLines) : l.hasBreak = false := by
  rw [fileLines, h.rawLines, List.mem_append] at hl
  rcases hl with hl | hl
  · exact h.refines.wellFormed.2 l hl
  · split at hl
    · rw [List.mem_singleton.1 hl]
      rfl
    · cases hl

theorem contents_eq : d.contents = d.cache.terminator.joinLines d.fileLines := by
  rw [Document.contents, fileLines, Cache.text_eq]
  split
  · rw [Terminator.joinLines_concat_nil _ h.rawLines_ne_nil]
  · rw [List.append_nil, List.append_nil]

theorem lines_contents : d.contents.lines = d.fileLines := by
  rw [h.contents_eq]
  exact Terminator.lines_joinLines _ h.fileLines_ne_nil fun _ hl => h.hasBreak_of_mem_fileLines hl

end Built

/-! ### Opening -/

section Opening
variable (settings : Settings) (language : Language) (p : Path) (t : Text)

def opened : Document :=
  (ofText settings language p t).1.build (ofText settings language p t).2

theorem setup_cacheFor : (cacheFor settings language t).setup =
    { language
      highlight := settings.highlight
      markup := settings.markup
      terminator := Terminator.shownBy t settings.terminator
      ruler := { tabWidth := max settings.tabWidth 1 } } := by
  rw [cacheFor, ← Terminator.detect?_getD]
  cases hh : settings.highlight with
  | true => rfl
  | false =>
    rw [if_neg (by simp), Cache.setup_setHighlight]
    rfl

theorem language_cacheFor : (cacheFor settings language t).language = language :=
  congrArg Cache.Setup.language (setup_cacheFor settings language t)

theorem terminator_cacheFor :
    (cacheFor settings language t).terminator = Terminator.shownBy t settings.terminator :=
  congrArg Cache.Setup.terminator (setup_cacheFor settings language t)

variable {language} (nf : language.NewlineFree)
include nf

theorem built_opened : (opened settings language p t).Built
    { lines := t.dropFinalBreak.1.lines
      terminator := Terminator.shownBy t settings.terminator } := by
  have hl : (cacheFor settings language t).language.NewlineFree := by rwa [language_cacheFor]
  have hb := Cache.refines_build hl t.dropFinalBreak.1
  rw [terminator_cacheFor] at hb
  exact ⟨Cache.complete_build _ _, hb⟩

theorem fileLines_opened : (opened settings language p t).fileLines = t.lines := by
  rw [fileLines, (built_opened settings p t nf).rawLines, Text.lines_dropFinalBreak t]
  rfl

theorem contents_opened : (opened settings language p t).contents =
    (Terminator.shownBy t settings.terminator).joinLines t.lines := by
  have hb := built_opened settings p t nf
  rw [hb.contents_eq, fileLines_opened settings p t nf, hb.refines.terminator]

theorem contents_opened_of_onlyEnds {terminator : Terminator} (h : t.OnlyEnds terminator) :
    (opened settings language p t).contents = t := by
  have hb : ∀ l ∈ t.lines, l.hasBreak = false := fun _ hl => Text.hasBreak_of_mem_lines hl
  have hjoin := Text.joinLines_lines h
  have hshown := Terminator.joinLines_shownBy terminator settings.terminator
    (Text.lines_ne_nil t) hb
  rw [hjoin] at hshown
  rw [contents_opened settings p t nf, hshown]

theorem built_opened_of_onlyEnds {terminator : Terminator} (h : t.OnlyEnds terminator)
    (hnone : t.hasBreak = false → terminator = settings.terminator) :
    (opened settings language p t).Built
      { lines := (t.dropTerminator terminator).lines, terminator } := by
  have hbuilt := built_opened settings p t nf
  rw [Text.dropFinalBreak_of_onlyEnds h, Terminator.shownBy_of_onlyEnds h hnone] at hbuilt
  exact hbuilt

end Opening

section Loading
variable {store : Store} {registry : Registry} {settings : Settings} {language? : Option String}
  {p : Path}

theorem loadDeferred_eq {t : Text} {language : Language} (hread : store.read p = .ok t)
    (hlang : languageFor registry language? p = .ok language) :
    loadDeferred store registry settings language? p = .ok (ofText settings language p t) := by
  rw [loadDeferred, hread, hlang]
  rfl

theorem load_of_loadDeferred {d : Document} {body : Text}
    (h : loadDeferred store registry settings language? p = .ok (d, body)) :
    load store registry settings language? p = .ok (d.build body) := by
  rw [load, h]
  rfl

theorem load_eq {t : Text} {language : Language} (hread : store.read p = .ok t)
    (hlang : languageFor registry language? p = .ok language) :
    load store registry settings language? p = .ok (opened settings language p t) :=
  load_of_loadDeferred (loadDeferred_eq hread hlang)

theorem loadDeferred_eq_ok {d : Document} {body : Text}
    (h : loadDeferred store registry settings language? p = .ok (d, body)) :
    ∃ t language, store.read p = .ok t ∧ languageFor registry language? p = .ok language ∧
      ofText settings language p t = (d, body) := by
  rw [loadDeferred] at h
  cases hread : store.read p with
  | error cause =>
    rw [hread] at h
    cases h
  | ok t =>
    cases hlang : languageFor registry language? p with
    | error e =>
      rw [hread, hlang] at h
      cases h
    | ok language =>
      rw [hread, hlang] at h
      exact ⟨t, language, rfl, rfl, Except.ok.inj h⟩

theorem load_eq_ok {whole : Document}
    (h : load store registry settings language? p = .ok whole) :
    ∃ d body, loadDeferred store registry settings language? p = .ok (d, body) ∧
      whole = d.build body := by
  cases hload : loadDeferred store registry settings language? p with
  | error e =>
    rw [load, hload] at h
    cases h
  | ok loaded =>
    obtain ⟨d, body⟩ := loaded
    rw [load_of_loadDeferred hload] at h
    exact ⟨d, body, rfl, (Except.ok.inj h).symm⟩

end Loading

/-! ### Reopening -/

section Reopening
variable {d : Document} {m : LineList} (h : d.Built m) (settings : Settings) {language : Language}
  (nf : language.NewlineFree) (p : Path)
include h nf

/-- What a document writes is read back as the same lines. -/
theorem fileLines_reopened : (opened settings language p d.contents).fileLines = d.fileLines := by
  rw [fileLines_opened settings p _ nf, h.lines_contents]

/-- The terminator is found again as soon as it stands between two lines. -/
theorem contents_reopened : (opened settings language p d.contents).contents = d.contents := by
  have hb : ∀ l ∈ d.fileLines, l.hasBreak = false := fun _ hl => h.hasBreak_of_mem_fileLines hl
  rw [contents_opened settings p _ nf, h.lines_contents, h.contents_eq,
    Terminator.joinLines_shownBy _ _ h.fileLines_ne_nil hb]

omit nf in
theorem finalBreak_reopened : (opened settings language p d.contents).finalBreak = true ↔
    2 ≤ d.fileLines.length ∧ d.fileLines.getLast? = some [] := by
  rw [← h.lines_contents]
  exact Text.dropFinalBreak_snd_iff d.contents

end Reopening

/-- Opening a file shows it with one terminator throughout and changes nothing else, so a file
with one terminator is shown as it is. After any edits, what is written and opened again has the
same contents and the same lines; only where the file did not end with a line end, and an empty
line was put at the end of others, that line is read as a line end. -/
theorem edit_save_reopen {store : Store} {registry : Registry} {settings : Settings}
    {language? : Option String} {p : Path} {t : Text} {language : Language}
    (hread : store.read p = .ok t) (hlang : languageFor registry language? p = .ok language)
    (nf : language.NewlineFree) :
    ∃ d, load store registry settings language? p = .ok d ∧
      d.contents = t.withTerminator (Terminator.shownBy t settings.terminator) ∧
      (∀ terminator, t.OnlyEnds terminator → d.contents = t) ∧
      ∀ (edits : List Edit) (d' : Document), d.performAll edits = .ok d' →
        ∀ (q : Path) (before after : Store), languageFor registry language? q = .ok language →
          before.write q d'.contents = .ok after →
          ∃ e, load after registry settings language? q = .ok e ∧ e.contents = d'.contents ∧
            if d'.finalBreak = false ∧ 2 ≤ d'.cache.rawLines.length ∧
              d'.cache.rawLines.getLast? = some []
            then e.cache.rawLines ++ [[]] = d'.cache.rawLines
            else e.cache.rawLines = d'.cache.rawLines := by
  refine ⟨opened settings language p t, load_eq hread hlang, ?_, ?_, ?_⟩
  · rw [contents_opened settings p t nf, Text.withTerminator_eq]
  · intro terminator h
    exact contents_opened_of_onlyEnds settings p t nf h
  · intro edits d' hrun q before after hq hwrite
    obtain ⟨m, hm⟩ := (built_opened settings p t nf).performAll hrun
    have hread' : after.read q = .ok d'.contents := Store.read_write hwrite
    exact ⟨opened settings language q d'.contents, load_eq hread' hq,
      contents_reopened hm settings nf q,
      rawLines_of_fileLines hm.rawLines_ne_nil (fileLines_reopened hm settings nf q)
        (finalBreak_reopened hm settings q)⟩

/-- A file with line ends of two kinds and none at its end. An empty line is put behind the
others, and it is the one that is missing after the file has been opened again. -/
theorem edit_save_reopen_empty_line :
    let language : Language := { name := "Toy", extensions := ["toy"], keywords := ["when".toList] }
    let registry := Registry.empty.add language
    let t : Text := "when a\r\nb\rc".toList
    let store : Store := { files := ⟨[(["r.toy"], .text t)]⟩ }
    let edits : List Edit := [.insertBelow 2 [], .setLine 0 "x\ny".toList, .deleteLine 2]
    store.read "r.toy" = .ok t ∧ languageFor registry none "r.toy" = .ok language ∧
      language.NewlineFree ∧ ∃ d d' after e,
        load store registry {} none "r.toy" = .ok d ∧
        d.contents = t.withTerminator (Terminator.shownBy t .lf) ∧
        d.performAll edits = .ok d' ∧ d'.contents = "x\r\ny\r\nc\r\n".toList ∧
        store.write "r.toy" d'.contents = .ok after ∧
        load after registry {} none "r.toy" = .ok e ∧ e.contents = d'.contents ∧
        e.cache.rawLines ++ [[]] = d'.cache.rawLines := by
  intro language registry t store edits
  have hread : store.read "r.toy" = .ok t := by decide +kernel
  have hlang : languageFor registry none "r.toy" = .ok language := by decide +kernel
  have nf : language.NewlineFree := by decide
  obtain ⟨d, hload, hcontents, -, hedit⟩ :=
    @edit_save_reopen store registry {} none "r.toy" t language hread hlang nf
  have hd : d = opened {} language "r.toy" t := Except.ok.inj (hload.symm.trans (load_eq hread hlang))
  have hresult : (d.performAll edits).map (fun d => (d.contents, d.finalBreak, d.cache.rawLines)) =
      .ok ("x\r\ny\r\nc\r\n".toList, false, ["x".toList, "y".toList, "c".toList, []]) := by
    rw [hd]
    decide +kernel
  cases hrun : d.performAll edits with
  | error e =>
    rw [hrun] at hresult
    cases hresult
  | ok d' =>
    rw [hrun] at hresult
    simp only [Except.map, Except.ok.injEq, Prod.mk.injEq] at hresult
    obtain ⟨hc, hfinal, hraw⟩ := hresult
    cases hwrite : store.write "r.toy" d'.contents with
    | error e =>
      have hok : (store.write "r.toy" d'.contents).isOk = true := by
        rw [hc]
        decide +kernel
      rw [hwrite] at hok
      cases hok
    | ok after =>
      obtain ⟨e, hopen, hsame, hlines⟩ := hedit edits d' hrun "r.toy" store after hlang hwrite
      rw [if_pos (by rw [hfinal, hraw]; decide)] at hlines
      exact ⟨hread, hlang, nf, d, d', after, e, hload, hcontents, hrun, hc, hwrite, hopen, hsame,
        hlines⟩

end Document

end Highlighter
