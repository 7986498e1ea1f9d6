import Highlighter.Language.Builtin
import Highlighter.Proofs.Language.NumberGrammar
import Highlighter.Proofs.Scanner.OneLine
import Highlighter.Proofs.Scanner.Priority

/-!
# Number literals of a pass

A number literal takes the characters that belong to it one by one, and the character behind is
left to the state between constructs. Since all characters of a literal are those of identifiers,
neither a word nor another number begins right behind it. `numbers_longest`: a number block of
any pass, open or finished, is the longest match of the grammar at its place.
-/

namespace Highlighter

/-- However far a pass has come, its blocks are the first of those at the end of the text. -/
theorem exists_visited_of_pass (lang : Language) (text : Text) (limits : List Nat) :
    ∃ u, Cursor.Visited lang text u ∧ u.rest = [] ∧
      ((Scanner.start lang true text).advanceAll limits).blocks <+: u.flush.blocks := by
  have hpass := (Scanner.onPass_start lang true text).advanceAll limits
  have hblocks := Scanner.blocks_prefix_advance
    ((Scanner.start lang true text).advanceAll limits).everyBreak
    ((Scanner.start lang true text).advanceAll limits)
  obtain ⟨hlang, hhigh, htext⟩ := Scanner.settings_advanceAll limits (.start lang true text)
  obtain ⟨u, hu, hend, hscan⟩ := exists_visited_end lang text
  rw [← Scanner.finish, hpass.blocks_finish, hlang, hhigh, htext] at hblocks
  exact ⟨u, hu, hend, hscan ▸ hblocks⟩

namespace Numeral

theorem isIdent_of_mem_reach (n : Numeral) {t : Text} {c : Char} (h : c ∈ n.reach t) :
    isIdent c = true := by
  induction t generalizing n with
  | nil => cases h
  | cons d rest ih =>
    cases hd : n.next? d with
    | none =>
      rw [reach_cons_none hd] at h
      cases h
    | some m =>
      rw [reach_cons_some hd, List.mem_cons] at h
      rcases h with rfl | h
      · exact isIdent_of_next? hd
      · exact ih m h

theorem atWordStart_reach (n : Numeral) {t : Text} (h : n.reach t ≠ []) (before : Text) :
    atWordStart ((n.reach t).reverse ++ before) = false := by
  obtain ⟨c, back, hback⟩ := List.exists_cons_of_ne_nil (mt List.reverse_eq_nil_iff.1 h)
  have hmem : c ∈ n.reach t := by
    rw [← List.mem_reverse, hback]
    exact List.mem_cons_self ..
  rw [hback]
  simp [atWordStart, n.isIdent_of_mem_reach hmem]

end Numeral

/-- Behind an identifier character neither a word nor a number begins. -/
theorem Language.beginsAt_of_inner (lang : Language) {bs : Bytes} {i : Nat} {before rest : Text}
    (h : bs.At i before rest) (hinner : atWordStart before = false) {kind : Kind}
    (hkind : kind ∈ [Kind.keyword, .type, .number]) : lang.beginsAt bs i kind = false := by
  have hstart : bs.atWordStart i = false := h.atWordStart_eq.trans hinner
  simp only [List.mem_cons, List.not_mem_nil, or_false] at hkind
  rcases hkind with rfl | rfl | rfl <;> simp [beginsAt, hstart]

namespace Cursor
variable {lang : Language} {text : Text} {s : Cursor}

/-- Inside of a literal everything that belongs to it is read. -/
theorem Visited.number_ahead (h : Visited lang text s) {shape : Numeral}
    (hm : s.mode = .number shape) : ∃ last : Numeral,
      Visited lang text ((s.read (shape.reach s.rest).length).enter (.number last)) ∧
        ∀ c rest, s.rest.drop (shape.reach s.rest).length = c :: rest → last.next? c = none := by
  generalize hrest : s.rest = t
  induction t generalizing s shape with
  | nil =>
    refine ⟨shape, ?_, fun c rest hnil => ?_⟩
    · rwa [Numeral.reach, List.length_nil, enter_read_zero hm]
    · simp at hnil
  | cons c t ih =>
    cases hc : shape.next? c with
    | none =>
      rw [Numeral.reach_cons_none hc]
      refine ⟨shape, ?_, fun d rest hcons => ?_⟩
      · rwa [List.length_nil, enter_read_zero hm]
      · cases hcons
        exact hc
    | some next =>
      have hstep : s.step lang = (s.read 1).enter (.number next) := by
        rw [step_number lang hrest hm, stepNumber, hc]
      have hv := h.step
      rw [hstep] at hv
      obtain ⟨last, hlast, hstop⟩ := ih hv (mode_enter ..) (by rw [rest_enter, rest_read, hrest]; rfl)
      have hread : (((s.read 1).enter (.number next)).read (next.reach t).length).enter
          (.number last) = (s.read (1 + (next.reach t).length)).enter (.number last) := by
        rw [← read_read]
        rfl
      rw [Numeral.reach_cons_some hc, List.length_cons, Nat.add_comm]
      rw [hread] at hlast
      refine ⟨last, hlast, fun d rest hdrop => hstop d rest ?_⟩
      rwa [Nat.add_comm, List.drop_succ_cons] at hdrop

theorem blocks_flush_of_pending_nil (hp : s.pending = []) : s.flush.blocks = s.blocks := by
  rw [flush, blocks_flushAs, if_pos hp, List.append_nil]

/-- The literal is a block, and what is behind it is met between constructs. -/
theorem Visited.number_block (h : Visited lang text s) (hm : s.mode = .number .start)
    (hp : s.pending = []) (hdigit : s.rest.head?.any Char.isDigit = true) :
    ∃ v, Visited lang text v ∧ Numeral.start.reach s.rest ++ v.rest = s.rest ∧
      v.flush.blocks = s.blocks ++ [⟨.number, Numeral.start.reach s.rest⟩] ∧
      (v.rest ≠ [] → v.mode = .idle ∧ v.pending = []) := by
  obtain ⟨last, hv, hstop⟩ := h.number_ahead hm
  have hne := Numeral.start.reach_ne_nil hdigit
  have htake : s.rest.take (Numeral.start.reach s.rest).length = Numeral.start.reach s.rest :=
    (List.prefix_iff_eq_take.1 (Numeral.start.reach_prefix s.rest)).symm
  have hcut := List.take_append_drop (Numeral.start.reach s.rest).length s.rest
  rw [htake] at hcut
  have hblocks : ((s.read (Numeral.start.reach s.rest).length).enter (.number last)).flush.blocks =
      s.blocks ++ [⟨.number, Numeral.start.reach s.rest⟩] := by
    rw [blocks_flush_of_pending (by simp [htake, hne])]
    simp [htake, hp, Mode.kind]
  cases hrest : s.rest.drop (Numeral.start.reach s.rest).length with
  | nil => exact ⟨_, hv, hcut, hblocks, fun hgoes => absurd hrest hgoes⟩
  | cons c rest =>
    have hstep := hv.step
    rw [step_number lang (s := (s.read _).enter (.number last)) hrest (mode_enter ..), stepNumber,
      hstop c rest hrest] at hstep
    refine ⟨_, hstep, ?_, ?_, fun _ => ⟨mode_enter .., ?_⟩⟩
    · rw [rest_enter, rest_flush]
      exact hcut
    · rw [blocks_flush_of_pending_nil (by rw [pending_enter, pending_flush]), blocks_enter, hblocks]
    · rw [pending_enter, pending_flush]

theorem Origin.exists_number {past : Blocks} {b : Block} (h : Origin lang text past b)
    (hb : b.kind = .number) : ∃ s, Visited lang text s ∧ s.mode = .number .start ∧
      s.blocks = past ∧ s.pending = [] ∧ atWordStart s.before = true ∧
      s.rest.head?.any Char.isDigit = true := by
  obtain ⟨s, hs, hpast, hidle, hline, hopen, hstart, hword, hdigit⟩ := h.of_number hb
  have hr : s.rest ≠ [] := by
    rintro hnil
    rw [hnil] at hdigit
    cases hdigit
  obtain ⟨c, rest, hrest⟩ := List.exists_cons_of_ne_nil hr
  have hc : c.isDigit = true := by simpa [hrest] using hdigit
  have hstep : s.step lang = s.flush.enter (.number .start) := by
    rw [step_idle lang hrest hidle, stepIdle, hline, hopen]
    simp [hstart, hword, hc]
  refine ⟨s.step lang, hs.step, ?_, ?_, ?_, ?_, ?_⟩ <;> simp [hstep, hpast, hstart, hdigit]

/-- A block that does not end a line leaves the next one to the kinds that can begin there. -/
theorem Visited.next_kind {u : Cursor} (hu : Visited lang text u) (hend : u.rest = [])
    {past others : Blocks} {b next : Block} (hall : u.flush.blocks = past ++ b :: next :: others)
    (hb : b.kind ≠ .lineBreak) :
    next.kind = lang.kindAt text.utf8 (past.concat.byteSize + b.content.byteSize) := by
  rw [List.append_cons] at hall
  have hnew : ¬ ContinuesComment lang text (past ++ [b]) next := by
    rintro ⟨-, ⟨ending, hlast⟩, -⟩
    rw [List.getLast?_concat] at hlast
    cases hlast
    exact hb rfl
  have htext : text = (past ++ [b]).concat ++ (next.content ++ others.concat) := by
    obtain ⟨-, htext⟩ := hu.before_eq hall
    rw [htext, hend]
    simp
  have hfilled : next.content ≠ [] := by
    apply hu.sound.flush.nonempty
    rw [hall]
    simp
  have hkind := (hu.tracked.origins_flush _ _ _ hall).kind_eq htext hfilled hnew
  have hstop : Text.byteSize (Blocks.concat (past ++ [b])) =
      past.concat.byteSize + b.content.byteSize := by simp
  rwa [hstop] at hkind

end Cursor

/-- A number block of any pass begins with a digit that no identifier byte stands in front of, and
it is the longest match of the grammar there. Neither a word nor another number can begin right
behind it: what is there is asked for between constructs, as anywhere else. -/
theorem numbers_longest {lang : Language} {text : Text} {limits : List Nat}
    {past future : Blocks} {b : Block}
    (hb : ((Scanner.start lang true text).advanceAll limits).blocks = past ++ b :: future)
    (hkind : b.kind = .number) :
    let start := past.concat.byteSize
    let stop := start + b.content.byteSize
    text.utf8.atWordStart start = true ∧ text.utf8[start]?.any Bytes.isDigitByte = true ∧
      LongestMatch Numeral.byteGrammar (text.utf8.drop start) b.content.utf8 ∧
      (∀ kind ∈ [Kind.keyword, .type, .number], lang.beginsAt text.utf8 stop kind = false) ∧
      (stop < text.byteSize → ∃ s, Cursor.Visited lang text s ∧ s.mode = .idle ∧ s.pending = [] ∧
        s.blocks = past ++ [b] ∧ s.before.byteSize = stop) ∧
      ∀ next, future.head? = some next → next.kind = lang.kindAt text.utf8 stop := by
  intro start stop
  obtain ⟨u, hu, hend, hprefix⟩ := exists_visited_of_pass lang text limits
  obtain ⟨behind, hall⟩ := hprefix
  rw [hb, List.append_assoc, List.cons_append] at hall
  have horigin := hu.tracked.origins_flush past b _ hall.symm
  obtain ⟨s, hs, hm, hblocks, hp, hstart, hdigit⟩ := horigin.exists_number hkind
  have hplace : Bytes.At text.utf8 start s.before s.rest :=
    hs.place ((Cursor.blocks_flush_of_pending_nil hp).trans hblocks)
  obtain ⟨v, hv, hrest, hvblocks, hvidle⟩ := hs.number_block hm hp hdigit
  rw [hblocks] at hvblocks
  -- The block of the pass is the one that the literal makes.
  have hsame : b = ⟨.number, Numeral.start.reach s.rest⟩ := by
    have hfirst : v.flush.blocks <+: u.flush.blocks := by
      by_cases hnil : v.rest = []
      · rw [hv.eq_of_rest_eq_nil hnil hu hend]
      · rw [Cursor.blocks_flush_of_pending_nil (hvidle hnil).2]
        exact hv.blocks_prefix hu hend
    rw [hvblocks, ← hall, List.prefix_append_right_inj, List.cons_prefix_cons] at hfirst
    exact hfirst.1.symm
  have hcontent : b.content = Numeral.start.reach s.rest := congrArg Block.content hsame
  have hbehind : Bytes.At text.utf8 stop (b.content.reverse ++ s.before) v.rest :=
    hplace.read (by rw [hcontent, hrest])
  have hinner : atWordStart (b.content.reverse ++ s.before) = false := by
    rw [hcontent]
    exact Numeral.start.atWordStart_reach (Numeral.start.reach_ne_nil hdigit) s.before
  refine ⟨?_, ?_, ?_, fun kind hmem => lang.beginsAt_of_inner hbehind hinner hmem,
    fun hgoes => ?_, fun next hnext => ?_⟩
  · rw [hplace.atWordStart_eq, hstart]
  · rw [hplace.any_isDigitByte, hdigit]
  · rw [hplace.drop_eq, hcontent]
    exact Numeral.longestMatch_reach hdigit
  · have hlength := hbehind.length_eq
    rw [Text.length_utf8] at hlength
    have hne : v.rest ≠ [] := by
      intro hnil
      rw [hnil, Text.byteSize_nil] at hlength
      omega
    obtain ⟨hvm, hvp⟩ := hvidle hne
    have hvpast : v.blocks = past ++ [b] := by
      rw [← Cursor.blocks_flush_of_pending_nil hvp, hvblocks, hsame]
    have hvplace := hv.place ((Cursor.blocks_flush_of_pending_nil hvp).trans hvpast)
    refine ⟨v, hv, hvm, hvp, hvpast, ?_⟩
    rw [← hvplace.index]
    simp [stop, start]
  · obtain ⟨others, rfl⟩ := List.head?_eq_some_iff.1 hnext
    have hbreak : b.kind ≠ .lineBreak := by simp [hkind]
    exact hu.next_kind hend hall.symm hbreak

/-- A hexadecimal literal goes on behind a separator and ends before a letter that is no digit of
it, and a second mark ends a binary one. -/
theorem numbers_longest_c :
    let text : Text := "0x_fgm7 0b1x2".toList
    let pass := (Scanner.start Language.c true text).advanceAll [1]
    let past : Blocks := [⟨.number, "0x_f".toList⟩, ⟨.default, "gm7 ".toList⟩]
    pass.blocks = past ++ [⟨.number, "0b1".toList⟩, ⟨.default, "x2".toList⟩] ∧
      LongestMatch Numeral.byteGrammar (Text.utf8 "0x_fgm7 0b1x2".toList)
        (Text.utf8 "0x_f".toList) ∧
      LongestMatch Numeral.byteGrammar (Text.utf8 "0b1x2".toList) (Text.utf8 "0b1".toList) ∧
      Language.c.kindAt text.utf8 11 = .default := by
  intro text pass past
  have hb : pass.blocks = past ++ [⟨.number, "0b1".toList⟩, ⟨.default, "x2".toList⟩] := by
    decide +kernel
  obtain ⟨-, -, hfirst, -⟩ := @numbers_longest Language.c text [1] [] _ _ hb rfl
  obtain ⟨-, -, hsecond, -, -, hnext⟩ := @numbers_longest Language.c text [1] past _ _ hb rfl
  exact ⟨hb, hfirst, hsecond, (hnext _ rfl).symm⟩

end Highlighter
