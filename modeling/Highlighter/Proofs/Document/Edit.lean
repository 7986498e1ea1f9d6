import Highlighter.Document
import Highlighter.Proofs.Cache.LineList
import Highlighter.Proofs.Cache.Rebuild

/-!
# Edits of documents

The edits of a document as data. A document that is built makes an edit exactly if its index
is in range, and then has the lines that the edit leaves of a list of lines. A refused edit
leaves the document as it was.
-/

namespace Highlighter

namespace Document

inductive Edit where
  | setLine (index : Nat) (value : Text)
  | insertAbove (index : Nat) (value : Text)
  | insertBelow (index : Nat) (value : Text)
  | deleteLine (index : Nat)

namespace Edit

def index : Edit → Nat
  | .setLine index _ | .insertAbove index _ | .insertBelow index _ | .deleteLine index => index

def value : Edit → Text
  | .setLine _ value | .insertAbove _ value | .insertBelow _ value => value
  | .deleteLine _ => []

def operation : Edit → Operation
  | .setLine index value => .setLine index value true
  | .insertAbove index value => .insertAt index value true
  | .insertBelow index value => .insertAt (index + 1) value true
  | .deleteLine index => .removeAt index true

/-- Whether a list of so many lines can be edited so. Only above may a line go in at the end. -/
def InRange (count : Nat) : Edit → Prop
  | .insertAbove index _ => index ≤ count
  | .setLine index _ | .insertBelow index _ | .deleteLine index => index < count

instance (count : Nat) (e : Edit) : Decidable (e.InRange count) :=
  match e with
  | .insertAbove index _ => inferInstanceAs (Decidable (index ≤ count))
  | .setLine index _ | .insertBelow index _ | .deleteLine index =>
    inferInstanceAs (Decidable (index < count))

def applyTo (lines : List Text) : Edit → List Text
  | .setLine index value => lines.set index value
  | .insertAbove index value => lines.insertIdx index value
  | .insertBelow index value => lines.insertIdx (index + 1) value
  | .deleteLine index => Cache.withoutLine lines index

end Edit

def perform (d : Document) : Edit → Edited Document
  | .setLine index value => d.setLine index value
  | .insertAbove index value => d.insertAbove index value
  | .insertBelow index value => d.insertBelow index value
  | .deleteLine index => d.deleteLine index

/-- Makes edits one after the other, as long as none is refused. -/
def performAll (d : Document) (edits : List Edit) : Except Error Document :=
  edits.foldlM (fun d e => (d.perform e).toExcept) d

end Document

/-! ### Edits of the cache -/

namespace Cache
open Document (Edit)

theorem complete_perform_operation {c : Cache} (h : c.Sound) (e : Edit) :
    (c.perform e.operation).1.complete = true :=
  complete_perform h (by cases e <;> rfl)

theorem setup_perform_operation (c : Cache) (e : Edit) :
    (c.perform e.operation).1.setup = c.setup := by
  cases e with
  | setLine index value => exact setup_setLine c index value true
  | insertAbove index value => exact setup_insertAt c index value true
  | insertBelow index value => exact setup_insertAt c (index + 1) value true
  | deleteLine index => exact setup_removeAt c index true

theorem admissible_operation (c : Cache) (e : Edit) : c.Admissible e.operation := by
  cases e <;> trivial

end Cache

theorem LineList.perform_operation (m : LineList) (e : Document.Edit) (h : e.InRange m.lines.length) :
    m.perform e.operation =
      (({ m with lines := e.applyTo m.lines } : LineList).resplit e.value, none) := by
  cases e with
  | setLine index value | deleteLine index =>
    have hlt : index < m.lines.length := h
    show LineList.edit _ _ _ _ _ = _
    rw [LineList.edit, decide_eq_true hlt]
    rfl
  | insertAbove index value =>
    have hle : index ≤ m.lines.length := h
    show LineList.edit _ _ _ _ _ = _
    rw [LineList.edit, decide_eq_true hle]
    rfl
  | insertBelow index value =>
    have hle : index + 1 ≤ m.lines.length := h
    show LineList.edit _ _ _ _ _ = _
    rw [LineList.edit, decide_eq_true hle]
    rfl

namespace Document

/-! ### Edits of complete documents -/

section Complete
variable {d : Document} (hc : d.cache.complete = true) {e : Edit}
include hc

/-- An edit in range is made, and nothing of the document but its lines changes. -/
theorem perform_of_inRange (he : e.InRange d.cache.lines.length) :
    d.perform e =
      ({ d with cache := (d.cache.perform e.operation).1, modified := true }, none) := by
  have hfinish : d.cache.finish = d.cache := Cache.finish_of_complete hc
  have hedit : ∀ r : Edited Cache, r.2 = none →
      d.edit r = ({ d with cache := r.1, modified := true }, none) := by
    rintro ⟨c, error⟩ rfl
    rfl
  cases e with
  | setLine index value =>
    have hlt : index < d.cache.lines.length := he
    apply hedit
    rw [Cache.setLine_eq, hfinish, if_pos hlt]
  | insertAbove index value =>
    have hle : index ≤ d.cache.lines.length := he
    apply hedit
    rw [Cache.insertAt_eq, hfinish, if_pos hle]
  | insertBelow index value =>
    have hlt : index < d.cache.lines.length := he
    show d.insertBelow index value = _
    rw [insertBelow, if_neg (Nat.not_le.2 hlt)]
    apply hedit
    rw [Cache.insertAt_eq, hfinish, if_pos (Nat.succ_le_of_lt hlt)]
  | deleteLine index =>
    have hlt : index < d.cache.lines.length := he
    apply hedit
    rw [Cache.removeAt_eq, hfinish, if_pos hlt]

/-- An edit out of range is refused, and nothing changes. -/
theorem perform_of_not_inRange (he : ¬ e.InRange d.cache.lines.length) :
    d.perform e = (d, some (.outOfRange e.index d.cache.lines.length)) := by
  have hfinish : d.cache.finish = d.cache := Cache.finish_of_complete hc
  cases e with
  | setLine index value =>
    have hle : ¬ index < d.cache.lines.length := he
    show d.edit (d.cache.setLine index value true) = _
    rw [Cache.setLine_eq, hfinish, if_neg hle]
    rfl
  | insertAbove index value =>
    have hlt : ¬ index ≤ d.cache.lines.length := he
    show d.edit (d.cache.insertAt index value true) = _
    rw [Cache.insertAt_eq, hfinish, if_neg hlt]
    rfl
  | insertBelow index value =>
    have hle : d.cache.lines.length ≤ index := Nat.not_lt.1 he
    show d.insertBelow index value = _
    rw [insertBelow, if_pos hle]
    rfl
  | deleteLine index =>
    have hle : ¬ index < d.cache.lines.length := he
    show d.edit (d.cache.removeAt index true) = _
    rw [Cache.removeAt_eq, hfinish, if_neg hle]
    rfl

theorem writeTo_of_complete (store : Store) (p : Path) :
    d.writeTo store p = match store.write p d.contents with
      | .ok store' => (({ d with modified := false }, store'), none)
      | .error cause => ((d, store), some (.file cause)) := by
  have hfinish : ({ d with cache := d.cache.finish } : Document) = d := by
    rw [Cache.finish_of_complete hc]
  cases hw : store.write p d.contents with
  | ok store' | error cause =>
    rw [writeTo, hfinish]
    simp only [hw]

end Complete

/-! ### Built documents -/

/-- The document is built to its end, and a list of lines says which lines it has. -/
structure Built (d : Document) (m : LineList) : Prop where
  complete : d.cache.complete = true
  refines : d.cache.Refines m

namespace Built
variable {d : Document} {m : LineList} (h : d.Built m)
include h

theorem rawLines : d.cache.rawLines = m.lines := h.refines.rawLines_of_complete h.complete

theorem length_lines : d.cache.lines.length = m.lines.length := by
  have hlen := h.refines.length_finish
  rwa [Cache.finish_of_complete h.complete] at hlen

theorem perform {e : Edit} (he : e.InRange m.lines.length) :
    ∃ c : Cache, d.perform e = ({ d with cache := c, modified := true }, none) ∧
      c.setup = d.cache.setup ∧ ({ d with cache := c, modified := true } : Document).Built
        (({ m with lines := e.applyTo m.lines } : LineList).resplit e.value) := by
  have hagrees := h.refines.perform (d.cache.admissible_operation e)
  rw [LineList.perform_operation m e he] at hagrees
  rw [← h.length_lines] at he
  exact ⟨_, perform_of_inRange h.complete he, d.cache.setup_perform_operation e,
    ⟨Cache.complete_perform_operation h.refines.sound e, hagrees.refines⟩⟩

theorem perform_line {e : Edit} (he : e.InRange m.lines.length)
    (hvalue : e.value.hasBreak = false) :
    ∃ d', d.perform e = (d', none) ∧ d'.Built { m with lines := e.applyTo m.lines } ∧
      d'.path? = d.path? ∧ d'.finalBreak = d.finalBreak := by
  obtain ⟨c, hperform, -, hedited⟩ := h.perform he
  rw [LineList.resplit, hvalue, if_neg Bool.false_ne_true] at hedited
  exact ⟨_, hperform, hedited, rfl, rfl⟩

theorem perform_refused {e : Edit} (he : ¬ e.InRange m.lines.length) :
    d.perform e = (d, some (.outOfRange e.index m.lines.length)) := by
  rw [← h.length_lines] at he ⊢
  exact perform_of_not_inRange h.complete he

theorem performAll {edits : List Edit} {d' : Document} (hrun : d.performAll edits = .ok d') :
    ∃ m', d'.Built m' := by
  induction edits generalizing d m with
  | nil =>
    cases hrun
    exact ⟨m, h⟩
  | cons e edits ih =>
    rw [Document.performAll, List.foldlM_cons] at hrun
    by_cases he : e.InRange m.lines.length
    · obtain ⟨c, hperform, -, hbuilt⟩ := h.perform he
      rw [hperform] at hrun
      exact ih hbuilt hrun
    · rw [h.perform_refused he] at hrun
      cases hrun

/-! ### Saving -/

theorem contents : d.contents = m.text ++ if d.finalBreak then m.terminator.text else [] := by
  rw [Document.contents, h.refines.text_of_complete h.complete, h.refines.terminator]

theorem save {store store' : Store} {p : Path} (hp : d.path? = some p)
    (hw : store.write p d.contents = .ok store') :
    d.save store = (({ d with modified := false }, store'), none) := by
  have hsave : d.save store = d.writeTo store p := by
    rw [Document.save, hp]
  rw [hsave, writeTo_of_complete h.complete, hw]

end Built

end Document

end Highlighter
