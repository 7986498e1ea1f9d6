import Highlighter.Proofs.Document.Unfinished
import Highlighter.Proofs.Pager.Session

/-!
# What is on the screen

In a session of the pager the screen never begins behind the first line of the last screen: lines
are only added, and every input that moves the screen or gives it another size stops there,
`screen_within_document`. And when the pager waits, what it drew last is what it would draw now,
because all that can change a frame asks for a new one: `screen_current_at_input`.
-/

namespace Highlighter

namespace Pager

/-! ### The number of lines -/

/-- The cache of the pager, and any that its worker sends, comes to an end with the lines. -/
structure HeadsFor (p : Pager) (lines : List Line) : Prop where
  sound : p.cache.Sound
  standsAlone : p.cache.StandsAlone
  final : p.cache.finalLines = lines
  expects : p.builder.Expects fun c => c.complete = true ∧ c.lines = lines

namespace HeadsFor

theorem start (settings : Settings) (screen : Screen) (d : Document) (body : Text) :
    (Pager.start settings screen d body).HeadsFor (d.cache.build body).lines := by
  have hsound := Cache.sound_begin d.cache body
  have halone : (d.cache.begin body).StandsAlone := fun _ _ => Cache.lines_begin ..
  have hbegun : (d.cache.begin body).finalLines = (d.cache.build body).lines :=
    (Cache.lines_build ..).symm
  refine ⟨hsound.buildNext _, halone.buildNext _, ?_, ?_⟩
  · exact (hsound.finalLines_buildNext _).trans hbegun
  · rw [Pager.start]
    dsimp only
    split
    · have hview := Builder.view_newWorker {} _ body
        (Cache.setup_buildNext settings.linesPerScreen (d.cache.begin body)).symm
      exact .inr ⟨_, Builder.awaits_start .., Cache.complete_build ..,
        congrArg Cache.View.lines hview⟩
    · exact .inl rfl

variable {p : Pager} {lines : List Line} (h : p.HeadsFor lines)
include h

theorem length_le : p.cache.lines.length ≤ lines.length := by
  have hle := h.standsAlone.length_le_finish
  rwa [h.sound.lines_finish, h.final] at hle

theorem congr {p' : Pager} (hd : p'.document = p.document)
    (hb : p'.builder.Expects fun c => c.complete = true ∧ c.lines = lines) :
    p'.HeadsFor lines := by
  have hc : p'.cache = p.cache := congrArg Document.cache hd
  refine ⟨?_, ?_, ?_, hb⟩
  · rw [hc]
    exact h.sound
  · rw [hc]
    exact h.standsAlone
  · rw [hc]
    exact h.final

/-- Reading on takes no line away, also when the cache of the worker comes in. -/
theorem advance :
    p.advance.HeadsFor lines ∧ p.cache.lines.length ≤ p.advance.cache.lines.length := by
  rcases advance_cases h.expects with ⟨b, hb, heq⟩ | ⟨c, b, ⟨hc, hlines⟩, hb, heq⟩ | ⟨hb, -, heq⟩
  · rw [heq]
    exact ⟨h.congr rfl hb, Nat.le_refl _⟩
  · rw [heq]
    refine ⟨⟨Cache.sound_of_complete hc, Cache.standsAlone_of_complete hc, ?_, .inl hb⟩, ?_⟩
    · exact (Cache.finalLines_of_complete hc).trans hlines
    · show p.cache.lines.length ≤ c.lines.length
      rw [hlines]
      exact h.length_le
  · rw [heq]
    refine ⟨⟨h.sound.buildNext _, h.standsAlone.buildNext _, ?_, .inl hb⟩, ?_⟩
    · exact (h.sound.finalLines_buildNext _).trans h.final
    · exact h.standsAlone.length_le_buildNext _

end HeadsFor

theorem Step.headsFor {m m' : Moment} (hstep : Step m m') {lines : List Line}
    (h : m.pager.HeadsFor lines) :
    m'.pager.HeadsFor lines ∧ m.pager.cache.lines.length ≤ m'.pager.cache.lines.length := by
  cases hstep with
  | advance p shown? => exact h.advance
  | draw p shown? =>
    have hd := draw_document p
    have hb := draw_builder p
    refine ⟨h.congr hd (by rw [hb]; exact h.expects), ?_⟩
    rw [cache, cache, hd]
  | handle shown? hinput =>
    obtain ⟨hd, hb⟩ := handle?_eq_some hinput
    refine ⟨h.congr hd (by rw [hb]; exact h.expects), ?_⟩
    rw [cache, cache, hd]
  | deliver phase p shown? => exact ⟨h.congr rfl (h.expects.deliver _), Nat.le_refl _⟩
  | lose phase p shown? => exact ⟨h.congr rfl (h.expects.lose _), Nat.le_refl _⟩

/-! ### The first line on the screen -/

/-- The screen begins with the first line, or it is full of lines. -/
def Within (p : Pager) : Prop := p.top = 0 ∨ p.top + p.screen.height ≤ p.cache.lines.length

theorem within_scrollTo (top : Nat) (p : Pager) : (p.scrollTo top).Within := by
  show min top (p.cache.lines.length - p.screen.height) = 0 ∨
    min top (p.cache.lines.length - p.screen.height) + p.screen.height ≤ p.cache.lines.length
  omega

theorem within_handle? {p p' : Pager} {input : Input} (hp : p.Within)
    (h : p.handle? input = some p') : p'.Within := by
  cases input with
  | timeout =>
    cases h
    exact hp
  | resize screen =>
    cases h
    exact within_scrollTo ..
  | key key =>
    rw [handle?] at h
    split at h
    · cases h
    · rename_i action hquit _
      cases h
      cases action with
      | quit => exact absurd rfl hquit
      | _ => exact within_scrollTo ..
    · cases h
      exact within_scrollTo ..

/-- Reading on moves nothing, so more lines leave the screen where it is. -/
theorem advance_place (p : Pager) : p.advance.top = p.top ∧ p.advance.screen = p.screen := by
  rw [advance]
  split
  · dsimp only
    split <;> exact ⟨rfl, rfl⟩
  · split <;> exact ⟨rfl, rfl⟩

theorem draw_place (p : Pager) : p.draw.2.top = p.top ∧ p.draw.2.screen = p.screen := by
  rw [draw]
  split <;> exact ⟨rfl, rfl⟩

theorem Step.within {m m' : Moment} (hstep : Step m m') {lines : List Line}
    (h : m.pager.HeadsFor lines) (hw : m.pager.Within) : m'.pager.Within := by
  -- Only an input moves the screen, and there it stops; else lines are added below it.
  have hmore := (hstep.headsFor h).2
  cases hstep with
  | advance p shown? =>
    obtain ⟨htop, hscreen⟩ := advance_place p
    rw [Within, htop, hscreen]
    exact hw.imp_right fun hfull => Nat.le_trans hfull hmore
  | draw p shown? =>
    obtain ⟨htop, hscreen⟩ := draw_place p
    rw [Within, htop, hscreen]
    exact hw.imp_right fun hfull => Nat.le_trans hfull hmore
  | handle shown? hinput => exact within_handle? hw hinput
  | deliver phase p shown? | lose phase p shown? => exact hw

theorem Leads.within {m m' : Moment} (hleads : Leads m m') {lines : List Line}
    (h : m.pager.HeadsFor lines) (hw : m.pager.Within) :
    m'.pager.HeadsFor lines ∧ m'.pager.Within := by
  induction hleads with
  | refl => exact ⟨h, hw⟩
  | tail _ hstep ih => exact ⟨(hstep.headsFor ih.1).1, hstep.within ih.1 ih.2⟩

/-! ### The rows of a frame -/

/-- The row behind the last line. -/
def tilde : Row := [⟨.dim, ['~']⟩]

theorem getLast?_gutter (p : Pager) (index : Nat) :
    (p.gutter index).text = [] ∨ (p.gutter index).text.getLast? = some ' ' := by
  rw [gutter]
  dsimp only
  split
  · exact .inr (List.getLast?_concat ..)
  · exact .inl rfl

/-- No line has a row like those behind the last one, whatever it holds. -/
theorem row_eq_tilde_iff (p : Pager) (index : Nat) :
    p.row index = tilde ↔ p.cache.lines.length ≤ index := by
  constructor
  · intro h
    rw [row] at h
    split at h
    · rename_i hnone
      exact List.getElem?_eq_none_iff.1 hnone
    · -- The one dim run of a line is its number, and that ends in a blank.
      have hrun : (⟨.dim, ['~']⟩ : Run) ∈ tilde := List.mem_singleton_self _
      rw [← h] at hrun
      rcases List.mem_cons.1 (List.mem_of_mem_filter hrun) with hgutter | htext
      · have hlast := getLast?_gutter p index
        rw [← hgutter] at hlast
        simp at hlast
      · cases List.mem_singleton.1 htext
  · intro h
    rw [row, List.getElem?_eq_none h]
    rfl

theorem getElem?_frame (p : Pager) {n : Nat} (hn : n < p.screen.height) :
    p.frame[n]? = some (p.row (p.top + n)) := by
  rw [frame, List.getElem?_append_left (by simpa using hn)]
  simp [hn]

theorem draw_eq_some {p : Pager} {frame : Frame} (h : p.draw.1 = some frame) : frame = p.frame := by
  rw [draw] at h
  split at h
  · exact (Option.some.inj h).symm
  · cases h

/-- In every frame of a session the screen begins with the first line of the document, or all its
rows have lines. So where a row is behind the last line, all lines there are stand above it. -/
theorem screen_within_document (settings : Settings) (screen : Screen) (d : Document) (body : Text)
    {p : Pager} {shown? : Option Frame} {frame : Frame}
    (hp : Leads (opening (start settings screen d body)) ⟨.drawing, p, shown?⟩)
    (hdrawn : p.draw.1 = some frame) :
    let height := max (p.screen.rows - 1) 1
    let count := p.cache.lines.length
    (p.top = 0 ∨ p.top + height ≤ count) ∧
      ∀ n < height, frame[n]? = some tilde → p.top = 0 ∧ count ≤ n ∧
        ∀ i < count, frame[i]? = some (p.row i) := by
  intro height count
  have hwithin : p.Within := (hp.within (HeadsFor.start settings screen d body) (.inl rfl)).2
  obtain rfl := draw_eq_some hdrawn
  refine ⟨hwithin, ?_⟩
  intro n hn htilde
  have hrow : p.row (p.top + n) = tilde := by
    rw [getElem?_frame p hn] at htilde
    exact Option.some.inj htilde
  have hbehind : count ≤ p.top + n := (row_eq_tilde_iff p _).1 hrow
  have htop : p.top = 0 := by
    rcases hwithin with htop | hfull
    · exact htop
    · have hfull : p.top + height ≤ count := hfull
      omega
  refine ⟨htop, by omega, ?_⟩
  intro i hi
  have hshown : i < p.screen.height := by
    show i < height
    omega
  have hget := getElem?_frame p hshown
  rwa [htop, Nat.zero_add] at hget

/-- The last line is on a screen of one row, when the screen gets room for all of them. -/
theorem screen_within_document_resized :
    let loaded := Document.ofText {} Language.plain "x.txt" "a\nb\nc".toList
    let first := (start {} ⟨80, 2⟩ loaded.1 loaded.2).advance
    let low := (first.draw.2.act .last).advance
    let tall := (({ low.draw.2 with screen := ⟨80, 10⟩, stale := true } : Pager).scrollTo
      low.draw.2.top).advance
    low.top = 2 ∧ tall.draw.1 = some tall.frame ∧ tall.frame[3]? = some tilde ∧ tall.top = 0 ∧
      ∀ i < tall.cache.lines.length, tall.frame[i]? = some (tall.row i) := by
  intro loaded first low tall
  obtain ⟨hlow, hdrawn, htilde, hheight⟩ : low.top = 2 ∧ tall.draw.1 = some tall.frame ∧
      tall.frame[3]? = some tilde ∧ 3 < max (tall.screen.rows - 1) 1 := by
    decide +kernel
  have hfirst : Leads (opening (start {} ⟨80, 2⟩ loaded.1 loaded.2))
      ⟨.waiting, first.draw.2, first.draw.1.or none⟩ :=
    .tail (.tail .refl (.advance ..)) (.draw ..)
  have hwait : Leads ⟨.waiting, first.draw.2, first.draw.1.or none⟩
      ⟨.waiting, low.draw.2, low.draw.1.or (first.draw.1.or none)⟩ :=
    .tail (.tail (.tail .refl (@Step.handle _ _ (.key (.char 'G' false)) _ rfl)) (.advance ..))
      (.draw ..)
  have htall : Leads ⟨.waiting, low.draw.2, low.draw.1.or (first.draw.1.or none)⟩
      ⟨.drawing, tall, low.draw.1.or (first.draw.1.or none)⟩ :=
    .tail (.tail .refl (@Step.handle _ _ (.resize ⟨80, 10⟩) _ rfl)) (.advance ..)
  obtain ⟨-, hrows⟩ := screen_within_document {} ⟨80, 2⟩ loaded.1 loaded.2
    ((hfirst.trans hwait).trans htall) hdrawn
  obtain ⟨htop, -, hlines⟩ := hrows 3 hheight htilde
  exact ⟨hlow, hdrawn, htilde, htop, hlines⟩

/-! ### The frame on the screen -/

/-- What was drawn last is what would be drawn now, or a new frame comes before the next input. -/
def Moment.Current (m : Moment) : Prop :=
  m.shown? = some m.pager.frame ∨ m.phase ≠ .waiting ∧ m.pager.stale = true

theorem advance_frame (p : Pager) :
    p.advance.stale = true ∨ p.advance.frame = p.frame ∧ p.advance.stale = p.stale := by
  rw [advance]
  split
  · dsimp only
    split
    · exact .inl rfl
    · exact .inr ⟨rfl, rfl⟩
  · split
    · exact .inr ⟨rfl, rfl⟩
    · exact .inl rfl

theorem draw_frame (p : Pager) : p.draw.2.frame = p.frame := by
  rw [draw]
  split <;> rfl

theorem scrollTo_frame (top : Nat) (p : Pager) :
    (p.scrollTo top).stale = true ∨ (p.scrollTo top).frame = p.frame := by
  by_cases htop : min top p.lastTop = p.top
  · right
    rw [scrollTo, htop]
    rfl
  · left
    simp [scrollTo, htop]

theorem stale_scrollTo {p : Pager} (h : p.stale = true) (top : Nat) :
    (p.scrollTo top).stale = true := by
  simp [scrollTo, h]

theorem act_frame (p : Pager) (action : Action) :
    (p.act action).stale = true ∨ (p.act action).frame = p.frame := by
  cases action with
  | quit => exact .inr rfl
  | toggleRaw | toggleNumbers => exact .inl (stale_scrollTo rfl p.top)
  | _ => exact scrollTo_frame ..

/-- An input after which the frame is another one asks for a new one. -/
theorem handle?_frame {p p' : Pager} {input : Input} (h : p.handle? input = some p') :
    p'.stale = true ∨ p'.frame = p.frame := by
  cases input with
  | timeout =>
    cases h
    exact .inr rfl
  | resize screen =>
    cases h
    exact .inl (stale_scrollTo rfl p.top)
  | key key =>
    rw [handle?] at h
    split at h
    · cases h
    · cases h
      exact act_frame ..
    · cases h
      exact scrollTo_frame ..

theorem Step.current {m m' : Moment} (hstep : Step m m') (h : m.Current) : m'.Current := by
  cases hstep with
  | advance p shown? =>
    rcases advance_frame p with hstale | ⟨hframe, hstale⟩
    · exact .inr ⟨by simp, hstale⟩
    · rcases h with hshown | ⟨-, hp⟩
      · exact .inl (hshown.trans (congrArg some hframe.symm))
      · exact .inr ⟨by simp, hstale.trans hp⟩
  | draw p shown? =>
    left
    show p.draw.1.or shown? = some p.draw.2.frame
    rw [draw_frame, Pager.draw]
    split
    · rfl
    · rename_i hfresh
      rcases h with hshown | ⟨-, hp⟩
      · exact hshown
      · exact absurd hp hfresh
  | handle shown? hinput =>
    rcases h with hshown | ⟨hphase, -⟩
    · rcases handle?_frame hinput with hstale | hframe
      · exact .inr ⟨by simp, hstale⟩
      · exact .inl (hshown.trans (congrArg some hframe.symm))
    · exact absurd rfl hphase
  | deliver phase p shown? | lose phase p shown? => exact h

theorem Leads.current {m m' : Moment} (hleads : Leads m m') (h : m.Current) : m'.Current := by
  induction hleads with
  | refl => exact h
  | tail _ hstep ih => exact hstep.current ih

/-- Whenever the pager waits for an input, the frame on the screen is that of its present state:
of its document, with what a worker has sent by then, its place, its modes and its size. -/
theorem screen_current_at_input (settings : Settings) (screen : Screen) (d : Document) (body : Text)
    {p : Pager} {shown? : Option Frame}
    (hp : Leads (opening (start settings screen d body)) ⟨.waiting, p, shown?⟩) :
    shown? = some p.frame := by
  have hopening : (opening (start settings screen d body)).Current := .inr ⟨by simp [opening], rfl⟩
  rcases hp.current hopening with hshown | ⟨hother, -⟩
  · exact hshown
  · exact absurd rfl hother

/-- A key that moves nothing: no frame is drawn, and the first one is still that of the state. -/
theorem screen_current_at_input_unmoved :
    let loaded := Document.ofText {} Language.plain "x.txt" "a\nb".toList
    let first := (start {} ⟨80, 2⟩ loaded.1 loaded.2).advance
    let again := (first.draw.2.act .lineUp).advance
    again.draw.1 = none ∧ first.draw.1 = some again.draw.2.frame := by
  intro loaded first again
  have hnone : again.draw.1 = none := by decide +kernel
  have hpath : Leads (opening (start {} ⟨80, 2⟩ loaded.1 loaded.2))
      ⟨.waiting, again.draw.2, again.draw.1.or (first.draw.1.or none)⟩ :=
    .tail (.tail (.tail (.tail (.tail .refl (.advance ..)) (.draw ..))
      (@Step.handle _ _ (.key .up) _ rfl)) (.advance ..)) (.draw ..)
  have hshown := screen_current_at_input {} ⟨80, 2⟩ loaded.1 loaded.2 hpath
  rw [hnone, Option.none_or, Option.or_none] at hshown
  exact ⟨hnone, hshown⟩

end Pager

end Highlighter
