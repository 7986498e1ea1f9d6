import Mathlib.Logic.Relation
import Highlighter.Pager.Frame
import Highlighter.Proofs.Builder.Handoff
import Highlighter.Proofs.Cache.Progress
import Highlighter.Proofs.Document.Reopen

/-!
# Sessions of the pager

The pager goes round: it reads on, draws, and waits for an input. A worker may send its cache
or be lost between any two of these steps. Whatever happens when, the document on the screen
is the start of the one that is opened at once, it only grows, and once it is complete nothing
tells the two apart: `lines_of_session`.
-/

namespace Highlighter

/-! ### Builds under way -/

namespace Cache

/-- The cache has been built from the text with the settings, to its end or for some lines. -/
structure Builds (c : Cache) (s : Setup) (text : Text) : Prop where
  setup : c.setup = s
  progress : c.view = s.view text ∨
    ∃ n, 0 < n ∧ c.Paused n ∧ c.scanner.text = text ∧ (c.scanner.cursorAt n).rest ≠ []

theorem Paused.standIn_eq_false {c : Cache} {n : Nat} (h : c.Paused n)
    (hr : (c.scanner.cursorAt n).rest ≠ []) (hn : 0 < n) : c.standIn = false := by
  have hbuilt : c.built ≠ [] := by
    have hlines := Blocks.toLines_ne_nil c.markup c.wholeBlocks
    rw [h.built_eq hr]
    simp [List.take_eq_nil_iff, hlines, Nat.ne_of_gt hn]
  cases hs : c.standIn with
  | false => rfl
  | true =>
    rw [built, hs] at hbuilt
    exact absurd rfl hbuilt

theorem Paused.builds_buildNext {c : Cache} {n : Nat} (h : c.Paused n) {count : Nat}
    (hpos : 0 < n + count) : (c.buildNext count).Builds c.setup c.scanner.text := by
  refine ⟨setup_buildNext count c, ?_⟩
  by_cases hr : (c.scanner.cursorAt (n + count)).rest = []
  · exact .inl (h.view_buildNext hr)
  · refine .inr ⟨n + count, hpos, h.buildNext hr, text_buildNext count c, ?_⟩
    rwa [cursorAt_buildNext]

theorem builds_begin (c : Cache) (text : Text) {count : Nat} (hpos : 0 < count) :
    ((c.begin text).buildNext count).Builds c.setup text :=
  (paused_begin c text).builds_buildNext (by omega)

namespace Builds
variable {c : Cache} {s : Setup} {text : Text} (h : c.Builds s text)
include h

theorem buildNext (count : Nat) : (c.buildNext count).Builds s text := by
  obtain ⟨hset, hview | ⟨n, hn, hpaused, htext, -⟩⟩ := h
  · have hc : c.complete = true := congrArg View.complete hview
    rw [buildNext_of_complete hc]
    exact ⟨hset, .inl hview⟩
  · rw [← hset, ← htext]
    exact hpaused.builds_buildNext (by omega)

theorem view_of_complete (hc : c.complete = true) : c.view = s.view text := by
  rcases h.progress with hview | ⟨n, -, hpaused, -⟩
  · exact hview
  · rw [hpaused.incomplete] at hc
    cases hc

/-- The lines are some of the first lines of the whole build, or all of them. -/
theorem lines_prefix : c.lines <+: (s.view text).lines := by
  obtain ⟨hset, hview | ⟨n, hn, hpaused, htext, hr⟩⟩ := h
  · have hlines : c.lines = (s.view text).lines := congrArg View.lines hview
    rw [hlines]
  · have hwhole : (s.view text).lines = c.wholeBlocks.toLines c.markup := by
      rw [← hset, ← htext]
      rfl
    rw [hpaused.lines_eq hr, if_neg (by omega), hwhole]
    exact List.take_prefix n _

theorem lines_prefix_buildNext (count : Nat) : c.lines <+: (c.buildNext count).lines := by
  rcases h.progress with hview | ⟨n, hn, hpaused, -, hr⟩
  · have hc : c.complete = true := congrArg View.complete hview
    rw [buildNext_of_complete hc]
  · exact Cache.lines_prefix_buildNext (hpaused.standIn_eq_false hr hn) count

end Builds

end Cache

namespace Pager

/-! ### What a session is made of -/

inductive Phase where
  | reading
  | drawing
  | waiting

/-- A moment of a session, with the frame that is on the screen. -/
structure Moment where
  phase : Phase
  pager : Pager
  shown? : Option Frame

def opening (p : Pager) : Moment where
  phase := .reading
  pager := p
  shown? := none

/-- The pager takes its turns, and between any two of them its worker may end. -/
inductive Step : Moment → Moment → Prop where
  | advance (p : Pager) (shown? : Option Frame) :
    Step ⟨.reading, p, shown?⟩ ⟨.drawing, p.advance, shown?⟩
  | draw (p : Pager) (shown? : Option Frame) :
    Step ⟨.drawing, p, shown?⟩ ⟨.waiting, p.draw.2, p.draw.1.or shown?⟩
  | handle {p p' : Pager} {input : Input} (shown? : Option Frame) (h : p.handle? input = some p') :
    Step ⟨.waiting, p, shown?⟩ ⟨.reading, p', shown?⟩
  | deliver (phase : Phase) (p : Pager) (shown? : Option Frame) :
    Step ⟨phase, p, shown?⟩ ⟨phase, p.deliver, shown?⟩
  | lose (phase : Phase) (p : Pager) (shown? : Option Frame) :
    Step ⟨phase, p, shown?⟩ ⟨phase, p.lose, shown?⟩

def Leads : Moment → Moment → Prop := Relation.ReflTransGen Step

/-- A run is a session in which the worker never ends: what it draws comes on the screen. -/
theorem leads_of_mem_run {p : Pager} {inputs : List Input} {frame : Frame}
    (h : some frame ∈ p.run inputs) (shown? : Option Frame) :
    ∃ m, Leads ⟨.reading, p, shown?⟩ m ∧ m.phase = .waiting ∧ m.shown? = some frame := by
  induction inputs generalizing p shown? with
  | nil => cases h
  | cons input rest ih =>
    have hround : Leads ⟨.reading, p, shown?⟩
        ⟨.waiting, p.advance.draw.2, p.advance.draw.1.or shown?⟩ :=
      .tail (.tail .refl (.advance p shown?)) (.draw p.advance shown?)
    have hdrawn : p.advance.draw.1 = some frame →
        ∃ m, Leads ⟨.reading, p, shown?⟩ m ∧ m.phase = .waiting ∧ m.shown? = some frame := by
      intro hnow
      refine ⟨_, hround, rfl, ?_⟩
      rw [hnow]
      rfl
    rw [run] at h
    dsimp only at h
    split at h
    · rename_i next hnext
      rcases List.mem_cons.1 h with hnow | hlater
      · exact hdrawn hnow.symm
      · obtain ⟨m, hm, hphase, hshown⟩ := ih hlater (p.advance.draw.1.or shown?)
        exact ⟨m, (hround.tail (.handle _ hnext)).trans hm, hphase, hshown⟩
    · exact hdrawn (List.mem_singleton.1 h).symm

/-! ### Inputs -/

@[simp] theorem act_document (p : Pager) (action : Action) :
    (p.act action).document = p.document := by
  cases action <;> rfl

@[simp] theorem act_builder (p : Pager) (action : Action) :
    (p.act action).builder = p.builder := by
  cases action <;> rfl

/-- An input changes what is shown of the document and nothing else. -/
theorem handle?_eq_some {p p' : Pager} {input : Input} (h : p.handle? input = some p') :
    p'.document = p.document ∧ p'.builder = p.builder := by
  cases input with
  | timeout | resize screen =>
    cases h
    exact ⟨rfl, rfl⟩
  | key key =>
    rw [handle?] at h
    split at h
    · cases h
    · cases h
      exact ⟨act_document .., act_builder ..⟩
    · cases h
      exact ⟨rfl, rfl⟩

@[simp] theorem draw_document (p : Pager) : p.draw.2.document = p.document := by
  rw [draw]
  split <;> rfl

@[simp] theorem draw_builder (p : Pager) : p.draw.2.builder = p.builder := by
  rw [draw]
  split <;> rfl

/-! ### Reading on -/

/-- The pager asks for the cache of its worker, takes it over, or builds on by itself. -/
theorem advance_cases {p : Pager} {P : Cache → Prop} (h : p.builder.Expects P) :
    (∃ b : Builder, b.Expects P ∧ p.advance = { p with builder := b }) ∨
      (∃ (c : Cache) (b : Builder), P c ∧ b.pending? = none ∧ p.advance =
        { p with builder := b, document := p.document.replaceCache c, stale := true }) ∨
      p.builder.pending? = none ∧ p.cache.complete = false ∧ p.advance =
        { p with
          document := p.document.replaceCache (p.cache.buildNext p.linesPerScreen)
          stale := true } := by
  rw [advance]
  split
  · rcases h.poll with ⟨hnone, hb⟩ | ⟨c, hsome, hc, hb⟩
    · dsimp only
      rw [hnone]
      exact .inl ⟨p.builder.poll.1, hb, rfl⟩
    · dsimp only
      rw [hsome]
      exact .inr (.inl ⟨c, p.builder.poll.1, hc, hb, rfl⟩)
  · rename_i hpending
    have hidle : p.builder.pending? = none := by
      simpa [Builder.isPending] using hpending
    split
    · exact .inl ⟨p.builder, h, rfl⟩
    · rename_i hc
      exact .inr (.inr ⟨hidle, Bool.eq_false_iff.2 hc, rfl⟩)

/-! ### What holds all through a session -/

/-- The pager reads the document that a build at once gives of the text: nothing but its cache
is different, and that builds the text, here or as the worker that is awaited does. -/
structure Reads (p : Pager) (whole : Document) (body : Text) : Prop where
  document : p.document = whole.replaceCache p.cache
  cache : p.cache.Builds whole.cache.setup body
  builder : p.builder.pending? = none ∨ ∃ w, p.builder.Awaits w ∧
    w.result.setup = whole.cache.setup ∧ w.result.view = whole.cache.setup.view body

namespace Reads
variable {p : Pager} {whole : Document} {body : Text}

theorem start {settings : Settings} (hpos : 1 ≤ settings.linesPerScreen) (screen : Screen)
    (d : Document) (body : Text) :
    (Pager.start settings screen d body).Reads (d.build body) body := by
  have hset : (d.build body).cache.setup = d.cache.setup := Cache.setup_build _ _
  have hbuilds := Cache.builds_begin d.cache body hpos
  rw [← hset] at hbuilds
  refine ⟨rfl, hbuilds, ?_⟩
  rw [Pager.start]
  dsimp only
  split
  · have hview := Builder.view_newWorker {} _ body hbuilds.setup.symm
    rw [Cache.view_build] at hview
    exact .inr ⟨_, Builder.awaits_start .., (Builder.setup_newWorker ..).trans hbuilds.setup, hview⟩
  · exact .inl rfl

variable (h : p.Reads whole body)
include h

theorem congr {p' : Pager} (hd : p'.document = p.document) (hb : p'.builder = p.builder) :
    p'.Reads whole body where
  document := by
    rw [Pager.cache, hd]
    exact h.document
  cache := by
    rw [Pager.cache, hd]
    exact h.cache
  builder := by
    rw [hb]
    exact h.builder

theorem replaceCache (cache : Cache) : p.document.replaceCache cache = whole.replaceCache cache := by
  rw [h.document]
  rfl

theorem expects : p.builder.Expects fun c =>
    c.setup = whole.cache.setup ∧ c.view = whole.cache.setup.view body := h.builder

/-- Reading on keeps the lines there are, also when the cache of the worker takes their place. -/
theorem advance : p.advance.Reads whole body ∧ p.cache.lines <+: p.advance.cache.lines := by
  rcases advance_cases h.expects with ⟨b, hb, heq⟩ | ⟨c, b, ⟨hset, hview⟩, hb, heq⟩ | ⟨hb, -, heq⟩
  · rw [heq]
    exact ⟨⟨h.document, h.cache, hb⟩, List.prefix_refl _⟩
  · have hlines : c.lines = (whole.cache.setup.view body).lines := congrArg Cache.View.lines hview
    rw [heq]
    refine ⟨⟨h.replaceCache c, ⟨hset, .inl hview⟩, .inl hb⟩, ?_⟩
    show p.cache.lines <+: c.lines
    rw [hlines]
    exact h.cache.lines_prefix
  · rw [heq]
    exact ⟨⟨h.replaceCache _, h.cache.buildNext _, .inl hb⟩, h.cache.lines_prefix_buildNext _⟩

theorem deliver : p.deliver.Reads whole body :=
  ⟨h.document, h.cache, h.expects.deliver p.builder.generation⟩

theorem lose : p.lose.Reads whole body :=
  ⟨h.document, h.cache, h.expects.lose p.builder.generation⟩

end Reads

/-- One step goes on reading the same document, and the lines there are stand. -/
theorem Step.reads {m m' : Moment} (hstep : Step m m') {whole : Document} {body : Text}
    (h : m.pager.Reads whole body) :
    m'.pager.Reads whole body ∧ m.pager.cache.lines <+: m'.pager.cache.lines := by
  cases hstep with
  | advance p shown? => exact h.advance
  | draw p shown? =>
    have hd := draw_document p
    refine ⟨h.congr hd (draw_builder p), ?_⟩
    rw [cache, cache, hd]
  | handle shown? hinput =>
    obtain ⟨hd, hb⟩ := handle?_eq_some hinput
    refine ⟨h.congr hd hb, ?_⟩
    rw [cache, cache, hd]
  | deliver phase p shown? => exact ⟨h.deliver, List.prefix_refl _⟩
  | lose phase p shown? => exact ⟨h.lose, List.prefix_refl _⟩

theorem Leads.reads {m m' : Moment} (hleads : Leads m m') {whole : Document} {body : Text}
    (h : m.pager.Reads whole body) :
    m'.pager.Reads whole body ∧ m.pager.cache.lines <+: m'.pager.cache.lines := by
  induction hleads with
  | refl => exact ⟨h, List.prefix_refl _⟩
  | tail _ hstep ih =>
    obtain ⟨hnext, hlines⟩ := hstep.reads ih.1
    exact ⟨hnext, ih.2.trans hlines⟩

/-- What is on the screen does not depend on what happens when. At every moment of a session
the document is the one that is opened at once, with some of its first lines or all of them; a
line that is there stays, and when the build is complete nothing is different any more. -/
theorem lines_of_session {store : Store} {registry : Registry} {settings : Settings}
    {language? : Option String} {path : Path} {d : Document} {body : Text}
    (hload : Document.loadDeferred store registry settings language? path = .ok (d, body))
    (hpos : 1 ≤ settings.linesPerScreen) :
    ∃ whole, Document.load store registry settings language? path = .ok whole ∧
      ∀ screen m, Leads (opening (start settings screen d body)) m →
        m.pager.document = whole.replaceCache m.pager.cache ∧
        m.pager.cache.lines <+: whole.cache.lines ∧
        (m.pager.cache.complete = true → m.pager.cache.view = whole.cache.view ∧
          m.pager.document.contents = whole.contents) ∧
        ∀ m', Leads m m' → m.pager.cache.lines <+: m'.pager.cache.lines := by
  refine ⟨d.build body, Document.load_of_loadDeferred hload, ?_⟩
  intro screen m hm
  have h : m.pager.Reads (d.build body) body := (hm.reads (Reads.start hpos screen d body)).1
  have hview : (d.build body).cache.view = (d.build body).cache.setup.view body := by
    have hset : (d.build body).cache.setup = d.cache.setup := Cache.setup_build _ _
    rw [hset]
    exact Cache.view_build _ _
  refine ⟨h.document, ?_, ?_, fun m' hm' => (hm'.reads h).2⟩
  · have hlines : (d.build body).cache.lines = ((d.build body).cache.setup.view body).lines :=
      congrArg Cache.View.lines hview
    rw [hlines]
    exact h.cache.lines_prefix
  · intro hc
    have hsame : m.pager.cache.view = (d.build body).cache.view :=
      (h.cache.view_of_complete hc).trans hview.symm
    refine ⟨hsame, ?_⟩
    have hlines : m.pager.cache.lines = (d.build body).cache.lines := congrArg Cache.View.lines hsame
    have hterm : m.pager.cache.terminator = (d.build body).cache.terminator :=
      congrArg Cache.Setup.terminator h.cache.setup
    rw [h.document, Document.contents, Document.contents, Cache.text, Cache.text]
    show (m.pager.cache.terminator.joinLines (m.pager.cache.lines.map Line.raw) ++
      if (d.build body).finalBreak then m.pager.cache.terminator.text else []) = _
    rw [hlines, hterm]

/-- The first of three lines is on the screen when the worker sends its cache. -/
theorem lines_of_session_delivered :
    let t : Text := "a /*\nb\r\nc\n".toList
    let store : Store := { files := ⟨[(["x.c"], .text t)]⟩ }
    let settings : Settings := { linesPerScreen := 1, backgroundThreshold := 0 }
    let loaded := Document.ofText settings Language.c "x.c" t
    let before := (start settings ⟨80, 24⟩ loaded.1 loaded.2).advance.draw.2
    let after := before.deliver.advance
    Document.loadDeferred store Registry.builtin settings none "x.c" = .ok loaded ∧
      before.cache.rawLines = ["a /*".toList] ∧ before.builder.isPending = true ∧
      after.builder.isPending = false ∧ after.cache.complete = true ∧
      before.cache.lines <+: after.cache.lines ∧ ∃ whole,
        Document.load store Registry.builtin settings none "x.c" = .ok whole ∧
        after.cache.view = whole.cache.view ∧ after.document.contents = whole.contents := by
  intro t store settings loaded before after
  have hread : store.read "x.c" = .ok t := by decide +kernel
  have hlang : Document.languageFor Registry.builtin none "x.c" = .ok Language.c := by
    decide +kernel
  have hload : Document.loadDeferred store Registry.builtin settings none "x.c" = .ok loaded :=
    Document.loadDeferred_eq hread hlang
  obtain ⟨hraw, hpending, hsettled, hcomplete⟩ : before.cache.rawLines = ["a /*".toList] ∧
      before.builder.isPending = true ∧ after.builder.isPending = false ∧
      after.cache.complete = true := by
    decide +kernel
  let p := start settings ⟨80, 24⟩ loaded.1 loaded.2
  have hbefore : Leads (opening p) ⟨.waiting, before, p.advance.draw.1.or none⟩ :=
    .tail (.tail .refl (.advance p none)) (.draw p.advance none)
  have hafter : Leads ⟨.waiting, before, p.advance.draw.1.or none⟩
      ⟨.drawing, after, p.advance.draw.1.or none⟩ :=
    .tail (.tail (.tail .refl (.deliver ..)) (@Step.handle _ _ .timeout _ rfl)) (.advance ..)
  -- The two moments are known well enough now, and need not be worked out again.
  clear_value after before
  obtain ⟨whole, hwhole, hsession⟩ := lines_of_session hload (Nat.le_refl 1)
  obtain ⟨-, -, -, hstays⟩ := hsession ⟨80, 24⟩ _ hbefore
  obtain ⟨-, -, hdone, -⟩ := hsession ⟨80, 24⟩ _ (hbefore.trans hafter)
  obtain ⟨hview, hcontents⟩ := hdone hcomplete
  exact ⟨hload, hraw, hpending, hsettled, hcomplete, hstays _ hafter, whole, hwhole, hview,
    hcontents⟩

end Pager

end Highlighter
