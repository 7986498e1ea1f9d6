import Highlighter.Builder
import Highlighter.Proofs.Cache.Rebuild

/-!
# Handing over background builds

Starts, invalidations, questions for the result and the ends of workers come in any order.
A builder that has something pending listens to the worker of the last start: no event but
the next start or invalidation takes that worker from it, and the answer is the build of that
start. So what is handed over is never stale, is handed over once, and is lost only with its
worker.
-/

namespace Highlighter

namespace Builder

/-- What can happen to a builder. A worker that ends without a result while it is waited for is
lost right before the wait. -/
inductive Event where
  | start (template : Cache) (text : Text)
  | invalidate
  | poll
  | wait
  /-- The worker of the generation sends its cache. -/
  | deliver (generation : Nat)
  /-- The worker of the generation ends without a result. -/
  | lose (generation : Nat)

namespace Event

/-- Whether a new generation begins. -/
def opens : Event → Bool
  | .start .. | .invalidate => true
  | .poll | .wait | .deliver _ | .lose _ => false

def act (w : Worker) : Event → Worker
  | .deliver generation =>
    if w.generation = generation then w.endWith fun w => .sent w.result else w
  | .lose generation => if w.generation = generation then w.endWith fun _ => .lost else w
  | .start .. | .invalidate | .poll | .wait => w

end Event

def perform (b : Builder) : Event → Builder × Option Cache
  | .start template text => (b.start template text, none)
  | .invalidate => (b.invalidate, none)
  | .poll => b.poll
  | .wait => b.wait
  | .deliver generation => (b.deliver generation, none)
  | .lose generation => (b.lose generation, none)

/-- The builder after the events, and the caches it handed over. -/
def run (b : Builder) : List Event → Builder × List Cache
  | [] => (b, [])
  | e :: es =>
    let (b, cache?) := b.perform e
    let (b, caches) := b.run es
    (b, cache?.toList ++ caches)

theorem run_cons (b : Builder) (e : Event) (es : List Event) :
    b.run (e :: es) = (((b.perform e).1.run es).1,
      (b.perform e).2.toList ++ ((b.perform e).1.run es).2) := rfl

theorem run_append (b : Builder) (es fs : List Event) :
    b.run (es ++ fs) = (((b.run es).1.run fs).1, (b.run es).2 ++ ((b.run es).1.run fs).2) := by
  induction es generalizing b with
  | nil => rfl
  | cons e es ih =>
    rw [List.cons_append, run_cons, ih, run_cons, List.append_assoc]

/-! ### Generations -/

theorem generation_poll (b : Builder) : b.poll.1.generation = b.generation := by
  unfold poll
  repeat' split
  all_goals rfl

theorem generation_wait (b : Builder) : b.wait.1.generation = b.generation := by
  unfold wait
  split
  · rfl
  · exact generation_poll _

theorem generation_perform (b : Builder) (e : Event) :
    (b.perform e).1.generation = b.generation + if e.opens then 1 else 0 := by
  cases e with
  | start template text | invalidate | deliver generation | lose generation => rfl
  | poll => exact generation_poll b
  | wait => exact generation_wait b

theorem generation_run (b : Builder) (es : List Event) :
    (b.run es).1.generation = b.generation + es.countP Event.opens := by
  induction es generalizing b with
  | nil => rfl
  | cons e es ih =>
    rw [run_cons, ih, generation_perform, List.countP_cons, Nat.add_assoc, Nat.add_comm (ite ..)]

end Builder

/-! ### Workers -/

namespace Worker
open Builder (Event)

def after (w : Worker) (es : List Event) : Worker := es.foldl Event.act w

theorem result_endWith (state : Worker → State) (w : Worker) :
    (w.endWith state).result = w.result := by
  unfold endWith
  split <;> rfl

theorem generation_endWith (state : Worker → State) (w : Worker) :
    (w.endWith state).generation = w.generation := by
  unfold endWith
  split <;> rfl

theorem endWith_of_ended {w : Worker} (h : w.state ≠ .working) (state : Worker → State) :
    w.endWith state = w := by
  unfold endWith
  split
  · contradiction
  · rfl

theorem endWith_of_working {w : Worker} (h : w.state = .working) (state : Worker → State) :
    w.endWith state = { w with state := state w } := by
  rw [endWith, h]

theorem result_act (w : Worker) (e : Event) : (e.act w).result = w.result := by
  unfold Event.act
  repeat' split
  all_goals first | rfl | exact result_endWith _ w

theorem generation_act (w : Worker) (e : Event) : (e.act w).generation = w.generation := by
  unfold Event.act
  repeat' split
  all_goals first | rfl | exact generation_endWith _ w

/-- A worker ends only once. -/
theorem act_of_ended {w : Worker} (h : w.state ≠ .working) (e : Event) : e.act w = w := by
  unfold Event.act
  repeat' split
  all_goals first | rfl | exact endWith_of_ended h _

theorem after_of_ended {w : Worker} (h : w.state ≠ .working) (es : List Event) :
    w.after es = w := by
  induction es with
  | nil => rfl
  | cons e es ih => rw [after, List.foldl_cons, act_of_ended h]; exact ih

theorem result_after (w : Worker) (es : List Event) : (w.after es).result = w.result := by
  induction es generalizing w with
  | nil => rfl
  | cons e es ih => exact (ih (e.act w)).trans (result_act w e)

theorem state_act_deliver (w : Worker) :
    ((Event.deliver w.generation).act w).state ≠ .working := by
  rw [Event.act, if_pos rfl, endWith]
  split
  · simp
  · assumption

theorem state_act_ne_lost {w : Worker} (h : w.state ≠ .lost) {e : Event}
    (he : e ≠ .lose w.generation) : (e.act w).state ≠ .lost := by
  by_cases hw : w.state = .working
  · cases e with
    | start template text | invalidate | poll | wait => exact h
    | deliver generation =>
      rw [Event.act]
      split
      · rw [endWith_of_working hw]
        simp
      · exact h
    | lose generation =>
      have hne : w.generation ≠ generation := by
        rintro rfl
        exact he rfl
      rwa [Event.act, if_neg hne]
  · rwa [act_of_ended hw]

theorem state_after_ne_lost {w : Worker} (h : w.state ≠ .lost) {es : List Event}
    (hes : .lose w.generation ∉ es) : (w.after es).state ≠ .lost := by
  induction es generalizing w with
  | nil => exact h
  | cons e es ih =>
    have he : e ≠ .lose w.generation := fun heq => hes (heq ▸ List.mem_cons_self ..)
    refine ih (state_act_ne_lost h he) ?_
    rw [generation_act]
    exact fun hm => hes (List.mem_cons_of_mem e hm)

theorem state_after_ne_working {w : Worker} {es : List Event}
    (hes : .deliver w.generation ∈ es) : (w.after es).state ≠ .working := by
  induction es generalizing w with
  | nil => cases hes
  | cons e es ih =>
    rcases List.mem_cons.1 hes with rfl | hes
    · have hended := state_act_deliver w
      have hafter : w.after (.deliver w.generation :: es) = (Event.deliver w.generation).act w :=
        after_of_ended hended es
      rwa [hafter]
    · refine ih ?_
      rwa [generation_act]

end Worker

namespace Builder

/-! ### Listening -/

theorem worker?_endWorker (b : Builder) (generation : Nat) (state : Worker → Worker.State) :
    (b.endWorker generation state).worker? = b.worker?.map fun w =>
      if w.generation = generation then w.endWith state else w := by
  have hgen : ∀ w : Worker, (if w.generation = generation then w.endWith state else w).generation =
      w.generation := by
    intro w
    split
    · exact w.generation_endWith state
    · rfl
  rw [worker?, worker?, endWorker]
  cases b.pending? with
  | none => rfl
  | some pending =>
    simp only [Option.bind_some, List.find?_map]
    congr 2
    funext w
    exact congrArg (fun g => decide (g = pending)) (hgen w)

/-- The builder listens to the worker, which is that of its present generation. -/
structure Awaits (b : Builder) (w : Worker) : Prop where
  pending : b.pending? = some w.generation
  current : w.generation = b.generation
  worker : b.worker? = some w
  sent : ∀ c, w.state = .sent c → c = w.result

def newWorker (b : Builder) (template : Cache) (text : Text) : Worker where
  generation := b.generation + 1
  template := template.emptyLike
  text

/-- A worker builds with the settings of the template and nothing else of it. -/
theorem setup_newWorker (b : Builder) (template : Cache) (text : Text) :
    (b.newWorker template text).result.setup = template.setup :=
  Cache.setup_build template.emptyLike text

theorem view_newWorker (b : Builder) (template : Cache) (text : Text) {c : Cache}
    (hc : c.setup = template.setup) :
    (b.newWorker template text).result.view = (c.build text).view := by
  have hview := Cache.view_build template.emptyLike text
  rw [Cache.view_build, hc]
  exact hview

theorem awaits_start (b : Builder) (template : Cache) (text : Text) :
    (b.start template text).Awaits (b.newWorker template text) where
  pending := rfl
  current := rfl
  worker := by
    simp [worker?, start, newWorker]
  sent := by
    intro c h
    cases h

namespace Awaits
variable {b : Builder} {w : Worker} (h : b.Awaits w)
include h

theorem accept (c : Cache) : b.accept w.generation c = some c := if_pos h.current

theorem act {e : Event} {state : Worker → Worker.State} {generation : Nat}
    (hact : e.act w = if w.generation = generation then w.endWith state else w)
    (hstate : ∀ c, state w = .sent c → c = w.result) :
    (b.endWorker generation state).Awaits (e.act w) where
  pending := by
    rw [w.generation_act]
    exact h.pending
  current := by
    rw [w.generation_act]
    exact h.current
  worker := by
    rw [worker?_endWorker, h.worker, hact]
    rfl
  sent := by
    intro c hc
    rw [w.result_act]
    rw [hact] at hc
    split at hc
    · by_cases hw : w.state = .working
      · rw [Worker.endWith_of_working hw] at hc
        exact hstate c hc
      · rw [Worker.endWith_of_ended hw] at hc
        exact h.sent c hc
    · exact h.sent c hc

theorem deliver (generation : Nat) :
    (b.deliver generation).Awaits ((Event.deliver generation).act w) := by
  refine h.act rfl ?_
  rintro c hc
  cases hc
  rfl

theorem lose (generation : Nat) : (b.lose generation).Awaits ((Event.lose generation).act w) := by
  refine h.act rfl ?_
  rintro c hc
  cases hc

theorem poll : b.poll = match w.state with
    | .working => (b, none)
    | .lost => (b.settled, none)
    | .sent _ => (b.settled, some w.result) := by
  rw [Builder.poll, h.worker]
  cases hs : w.state with
  | working => simp [hs]
  | lost => simp [hs]
  | sent c =>
    have hc : c = w.result := h.sent c hs
    simp [hs, hc, Builder.accept, h.current, settled]

theorem wait : b.wait = match w.state with
    | .lost => ((b.deliver w.generation).settled, none)
    | _ => ((b.deliver w.generation).settled, some w.result) := by
  have hpoll := (h.deliver w.generation).poll
  rw [w.result_act] at hpoll
  rw [Builder.wait, h.pending]
  show (b.deliver w.generation).poll = _
  rw [hpoll]
  cases hs : w.state with
  | working => rw [Event.act, if_pos rfl, Worker.endWith_of_working hs]
  | sent c | lost =>
    have hended : w.state ≠ .working := by
      rw [hs]
      simp
    rw [Worker.act_of_ended hended, hs]

theorem answer {e : Event} {c : Cache} (he : (b.perform e).2 = some c) : c = w.result := by
  cases e with
  | start template text | invalidate | deliver generation | lose generation => cases he
  | poll =>
    rw [perform, h.poll] at he
    split at he
    · cases he
    · cases he
    · exact (Option.some.inj he).symm
  | wait =>
    rw [perform, h.wait] at he
    split at he
    · cases he
    · exact (Option.some.inj he).symm

/-- As long as no generation begins, the builder goes on listening, or it stops with an answer
or because the worker was lost. -/
theorem perform {e : Event} (he : e.opens = false) :
    ((b.perform e).1.Awaits (e.act w) ∧ (b.perform e).2 = none) ∨
      (b.perform e).1.pending? = none ∧ ((b.perform e).2 = none → (e.act w).state = .lost) := by
  cases e with
  | start template text | invalidate => cases he
  | deliver generation => exact .inl ⟨h.deliver generation, rfl⟩
  | lose generation => exact .inl ⟨h.lose generation, rfl⟩
  | poll =>
    rw [Builder.perform, h.poll]
    cases hs : w.state with
    | working => exact .inl ⟨h, rfl⟩
    | lost => exact .inr ⟨rfl, fun _ => hs⟩
    | sent c => exact .inr ⟨rfl, fun hn => nomatch hn⟩
  | wait =>
    rw [Builder.perform, h.wait]
    cases hs : w.state with
    | lost => exact .inr ⟨rfl, fun _ => hs⟩
    | working | sent c => exact .inr ⟨rfl, fun hn => nomatch hn⟩

end Awaits

theorem poll_of_idle {b : Builder} (h : b.pending? = none) : b.poll = (b, none) := by
  have hw : b.worker? = none := by rw [worker?, h, Option.bind_none]
  rw [poll, hw]

theorem answer_of_idle {b : Builder} (h : b.pending? = none) (e : Event) :
    (b.perform e).2 = none := by
  cases e with
  | start template text | invalidate | deliver generation | lose generation => rfl
  | poll => rw [perform, poll_of_idle h]
  | wait => rw [perform, wait, h]

theorem pending_of_idle {b : Builder} (h : b.pending? = none) {e : Event}
    (he : e.opens = false) : (b.perform e).1.pending? = none := by
  cases e with
  | start template text | invalidate => cases he
  | deliver generation | lose generation => exact h
  | poll =>
    rw [perform, poll_of_idle h]
    exact h
  | wait =>
    rw [perform, wait, h]
    exact h

/-- What is handed over next has the property, if anything is. -/
def Expects (b : Builder) (P : Cache → Prop) : Prop :=
  b.pending? = none ∨ ∃ w, b.Awaits w ∧ P w.result

namespace Expects
variable {b : Builder} {P : Cache → Prop} (h : b.Expects P)
include h

theorem deliver (generation : Nat) : (b.deliver generation).Expects P := by
  rcases h with hidle | ⟨w, hw, hp⟩
  · exact .inl hidle
  · refine .inr ⟨_, hw.deliver generation, ?_⟩
    rwa [w.result_act]

theorem lose (generation : Nat) : (b.lose generation).Expects P := by
  rcases h with hidle | ⟨w, hw, hp⟩
  · exact .inl hidle
  · refine .inr ⟨_, hw.lose generation, ?_⟩
    rwa [w.result_act]

theorem poll : b.poll.2 = none ∧ b.poll.1.Expects P ∨
    ∃ c, b.poll.2 = some c ∧ P c ∧ b.poll.1.pending? = none := by
  rcases h with hidle | ⟨w, hw, hp⟩
  · rw [poll_of_idle hidle]
    exact .inl ⟨rfl, .inl hidle⟩
  · rw [hw.poll]
    cases w.state with
    | working => exact .inl ⟨rfl, .inr ⟨w, hw, hp⟩⟩
    | lost => exact .inl ⟨rfl, .inl rfl⟩
    | sent c => exact .inr ⟨w.result, rfl, hp, rfl⟩

end Expects

/-! ### Runs -/

theorem run_of_idle {b : Builder} (h : b.pending? = none) {es : List Event}
    (hes : ∀ e ∈ es, e.opens = false) :
    (b.run es).1.pending? = none ∧ (b.run es).2 = [] := by
  induction es generalizing b with
  | nil => exact ⟨h, rfl⟩
  | cons e es ih =>
    have hidle := pending_of_idle h (hes e (List.mem_cons_self ..))
    have hrest := ih hidle fun x hx => hes x (List.mem_cons_of_mem e hx)
    rw [run_cons, answer_of_idle h e]
    exact hrest

theorem Awaits.run {b : Builder} {w : Worker} (h : b.Awaits w) {es : List Event}
    (hes : ∀ e ∈ es, e.opens = false) :
    ((b.run es).1.Awaits (w.after es) ∧ (b.run es).2 = []) ∨
      (b.run es).1.pending? = none ∧ ((b.run es).2 = [] → (w.after es).state = .lost) := by
  induction es generalizing b w with
  | nil => exact .inl ⟨h, rfl⟩
  | cons e es ih =>
    have hrest : ∀ x ∈ es, x.opens = false := fun x hx => hes x (List.mem_cons_of_mem e hx)
    rw [run_cons]
    rcases h.perform (hes e (List.mem_cons_self ..)) with ⟨hnext, hnone⟩ | ⟨hidle, hlost⟩
    · rw [hnone]
      exact ih hnext hrest
    -- From here on nothing is pending, and a worker that was lost stays lost.
    · obtain ⟨hdone, hnil⟩ := run_of_idle hidle hrest
      refine .inr ⟨hdone, fun hempty => ?_⟩
      cases hanswer : (b.perform e).2 with
      | some c =>
        rw [hanswer] at hempty
        cases hempty
      | none =>
        have hstate := hlost hanswer
        have hended : (e.act w).state ≠ .working := by
          rw [hstate]
          simp
        have hafter : w.after (e :: es) = e.act w := Worker.after_of_ended hended es
        rw [hafter, hstate]

/-- Nothing opens a generation, or there is a last event that does. -/
theorem opening_cases (es : List Event) : (∀ e ∈ es, e.opens = false) ∨
    ∃ before e later, es = before ++ e :: later ∧ e.opens = true ∧
      ∀ x ∈ later, x.opens = false := by
  induction es with
  | nil => exact .inl fun _ hm => nomatch hm
  | cons e es ih =>
    rcases ih with hquiet | ⟨before, x, later, rfl, hx, hlater⟩
    · cases he : e.opens with
      | true => exact .inr ⟨[], e, es, rfl, he, hquiet⟩
      | false =>
        left
        intro x hm
        rcases List.mem_cons.1 hm with rfl | hm
        · exact he
        · exact hquiet x hm
    · exact .inr ⟨e :: before, x, later, rfl, hx, hlater⟩

/-- Nothing is pending, or the builder listens to the worker of the last start and has not
handed over anything since. -/
theorem run_cases (es : List Event) : (run {} es).1.pending? = none ∨
    ∃ before template text later, es = before ++ .start template text :: later ∧
      (∀ e ∈ later, e.opens = false) ∧
      (((run {} before).1.start template text).run later).2 = [] ∧
      (run {} es).1.Awaits (((run {} before).1.newWorker template text).after later) := by
  rcases opening_cases es with hquiet | ⟨before, e, later, rfl, he, hlater⟩
  · exact .inl (run_of_idle rfl hquiet).1
  · rw [run_append, run_cons]
    cases e with
    | poll | wait | deliver generation | lose generation => cases he
    | invalidate => exact .inl (run_of_idle rfl hlater).1
    | start template text =>
      rcases ((run {} before).1.awaits_start template text).run hlater with ⟨hnow, hnil⟩ | hidle
      · exact .inr ⟨before, template, text, later, rfl, hlater, hnil, hnow⟩
      · exact .inl hidle.1

/-- While its worker is not lost and nothing was handed over, a started build can be had: by
waiting, and by asking once it was sent. -/
theorem Awaits.not_lost {b : Builder} {w : Worker} (h : b.Awaits w) (hw : w.state ≠ .lost)
    {later : List Event} (hlater : ∀ e ∈ later, e.opens = false) (hnil : (b.run later).2 = [])
    (hlost : .lose w.generation ∉ later) :
    (b.run later).1.wait.2.isSome ∧
      (.deliver w.generation ∈ later → (b.run later).1.poll.2.isSome) := by
  have hstate := Worker.state_after_ne_lost hw hlost
  rcases h.run hlater with ⟨hnow, -⟩ | ⟨-, hended⟩
  · constructor
    · rw [hnow.wait]
      cases hs : (w.after later).state with
      | lost => exact absurd hs hstate
      | working | sent c => rfl
    · intro hsent
      have hdone := Worker.state_after_ne_working hsent
      rw [hnow.poll]
      cases hs : (w.after later).state with
      | lost => exact absurd hs hstate
      | working => exact absurd hs hdone
      | sent c => rfl
  · exact absurd (hended hnil) hstate

/-- After any events: the generation counts the starts and invalidations. What is pending is of
the present generation, so its answer is not dropped. What is handed over is the whole build of
the text of the last start with the settings of its template, is the first answer to that start
and comes before any other start or invalidation. A build is lost only with its worker. -/
theorem handoff_is_current (past : List Event) :
    let b := (run {} past).1
    b.generation = past.countP Event.opens ∧
    (∀ pending, b.pending? = some pending → pending = b.generation ∧
      ∃ w, b.worker? = some w ∧ w.generation = b.generation ∧
        ∀ c, b.accept w.generation c = some c) ∧
    (∀ e c, (b.perform e).2 = some c →
      ∃ before template text later, past = before ++ .start template text :: later ∧
        (∀ x ∈ later, x.opens = false) ∧
        (((run {} before).1.start template text).run later).2 = [] ∧
        c.complete = true ∧ c.setup = template.setup ∧
        ∀ d : Cache, d.setup = template.setup → c.view = (d.build text).view) ∧
    ∀ before template text later, past = before ++ .start template text :: later →
      (∀ x ∈ later, x.opens = false) →
      (((run {} before).1.start template text).run later).2 = [] →
      .lose (before.countP Event.opens + 1) ∉ later →
        b.wait.2.isSome ∧ (.deliver (before.countP Event.opens + 1) ∈ later → b.poll.2.isSome) := by
  intro b
  refine ⟨?generation, ?pending, ?answer, ?kept⟩
  case generation =>
    have hgen := generation_run {} past
    rwa [Nat.zero_add] at hgen
  case pending =>
    intro pending hpending
    rcases run_cases past with hidle | ⟨before, template, text, later, -, -, -, h⟩
    · rw [hidle] at hpending
      cases hpending
    · rw [h.pending] at hpending
      exact ⟨(Option.some.inj hpending).symm.trans h.current, _, h.worker, h.current, h.accept⟩
  case answer =>
    intro e c he
    rcases run_cases past with hidle | ⟨before, template, text, later, hpast, hlater, hnil, h⟩
    · rw [answer_of_idle hidle e] at he
      cases he
    · have hc := h.answer he
      rw [Worker.result_after] at hc
      subst hc
      exact ⟨before, template, text, later, hpast, hlater, hnil, Cache.complete_build _ _,
        setup_newWorker .., fun d hd => view_newWorker _ template text hd⟩
  case kept =>
    rintro before template text later rfl hlater hnil hlost
    have hgen : (run {} before).1.generation = before.countP Event.opens := by
      have h := generation_run {} before
      rwa [Nat.zero_add] at h
    have hrun : b = (((run {} before).1.start template text).run later).1 := by
      show (run {} _).1 = _
      rw [run_append, run_cons]
      rfl
    rw [hrun]
    rw [← hgen] at hlost ⊢
    exact ((run {} before).1.awaits_start template text).not_lost (fun h => nomatch h) hlater hnil
      hlost

/-- The first worker sends its cache after the second start, when nobody listens to it. -/
theorem handoff_is_current_restart :
    let template := (Cache.new { name := "Toy" } .plain).begin "a\nb".toList
    let past : List Event := [.start template "old".toList, .start template "new\nlines".toList,
      .deliver 1, .poll, .deliver 2]
    (run {} past).1.generation = 2 ∧ (run {} past).2 = [] ∧
      (run {} past).1.poll.2.isSome ∧
      (run {} past).1.poll.2.map Cache.rawLines = some ["new".toList, "lines".toList] := by
  intro template past
  have h := handoff_is_current past
  have hnil : (((run {} [.start template "old".toList]).1.start template "new\nlines".toList).run
      [.deliver 1, .poll, .deliver 2]).2 = [] := rfl
  have hquiet : ∀ x ∈ [Event.deliver 1, .poll, .deliver 2], x.opens = false := by simp [Event.opens]
  have hkept := h.2.2.2 [.start template "old".toList] template "new\nlines".toList
    [.deliver 1, .poll, .deliver 2] rfl hquiet hnil (by simp)
  have hlines : (run {} past).1.poll.2.map Cache.rawLines =
      some ["new".toList, "lines".toList] := by
    decide +kernel
  exact ⟨h.1, rfl, hkept.2 (by simp), hlines⟩

end Builder

end Highlighter
