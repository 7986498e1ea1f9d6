import Mathlib.Data.List.Nodup
import Mathlib.Data.String.Basic
import Highlighter.Language.Registry
import Highlighter.Proofs.Bytes.Utf8

/-!
# Registration

A registry holds what was added to it, in that order: for a name the last language of that name,
and for an extension the last language that lists it, as long as nothing has taken the place of
that language since. So an extension always leads to a language that is there and lists it:
`determined_by_history`.
-/

namespace Highlighter

/-! ### Tables in which no key is twice -/

namespace Table

section
variable {κ α : Type} {t : Table κ α}

def Distinct (t : Table κ α) : Prop := (t.entries.map Prod.fst).Nodup

theorem distinct_nil : ({} : Table κ α).Distinct := List.nodup_nil

theorem Distinct.keep (h : t.Distinct) (test : α → Bool) : (t.keep test).Distinct :=
  h.sublist (List.filter_sublist.map _)

end

variable {κ α : Type} [DecidableEq κ] {t : Table κ α}

theorem Distinct.insert (h : t.Distinct) (key : κ) (value : α) : (t.insert key value).Distinct := by
  have hkept : (t.erase key).Distinct := h.sublist (List.filter_sublist.map _)
  have hnew : key ∉ (t.erase key).entries.map Prod.fst := by
    simp [erase]
  rw [Distinct, Table.insert, List.map_append, List.map_singleton]
  exact hkept.append (List.nodup_singleton key) (by simpa using hnew)

theorem Distinct.get?_eq_some_iff (h : t.Distinct) {key : κ} {value : α} :
    t.get? key = some value ↔ (key, value) ∈ t.entries := by
  rw [get?, Option.map_eq_some_iff]
  constructor
  · rintro ⟨e, he, rfl⟩
    have hkey : e.1 = key := by simpa using List.find?_some he
    rw [← hkey]
    exact List.mem_of_find?_eq_some he
  · intro hm
    cases hfound : t.entries.find? (fun e => e.1 = key) with
    | none =>
      have hne := List.find?_eq_none.1 hfound _ hm
      simp at hne
    | some e =>
      have hkey : e.1 = key := by simpa using List.find?_some hfound
      have he : e = (key, value) :=
        List.inj_on_of_nodup_map h (List.mem_of_find?_eq_some hfound) hm hkey
      exact ⟨e, rfl, congrArg Prod.snd he⟩

theorem Distinct.get?_keep (h : t.Distinct) (test : α → Bool) (key : κ) :
    (t.keep test).get? key = (t.get? key).filter test := by
  ext value
  rw [(h.keep test).get?_eq_some_iff, Option.filter_eq_some_iff, h.get?_eq_some_iff]
  exact List.mem_filter

end Table

namespace Registry

/-! ### Histories -/

/-- The language is the last one of the history with the property. -/
def IsLast (P : Language → Prop) (history : List Language) (lang : Language) : Prop :=
  ∃ earlier later, history = earlier ++ lang :: later ∧ P lang ∧ ∀ l ∈ later, ¬ P l

section Histories
variable {P : Language → Prop} {history : List Language} {lang l : Language}

theorem IsLast.holds (h : IsLast P history lang) : P lang := by
  obtain ⟨-, -, -, hp, -⟩ := h
  exact hp

theorem not_isLast_nil : ¬ IsLast P [] lang := by
  rintro ⟨earlier, later, h, -⟩
  simp at h

theorem isLast_concat :
    IsLast P (history ++ [l]) lang ↔ P l ∧ lang = l ∨ ¬ P l ∧ IsLast P history lang := by
  constructor
  · rintro ⟨earlier, later, h, hp, hlater⟩
    rcases List.eq_nil_or_concat later with rfl | ⟨between, last, rfl⟩
    · obtain ⟨-, hl⟩ := List.append_inj' h rfl
      cases hl
      exact .inl ⟨hp, rfl⟩
    · rw [List.concat_eq_append, ← List.cons_append, ← List.append_assoc] at h
      obtain ⟨hhistory, hl⟩ := List.append_inj' h rfl
      cases hl
      exact .inr ⟨hlater l (by simp), earlier, between, hhistory, hp,
        fun x hx => hlater x (by simp [hx])⟩
  · rintro (⟨hp, rfl⟩ | ⟨hn, earlier, later, rfl, hp, hlater⟩)
    · exact ⟨history, [], rfl, hp, by simp⟩
    · refine ⟨earlier, later ++ [l], by simp, hp, ?_⟩
      intro x hx
      rcases List.mem_append.1 hx with hx | hx
      · exact hlater x hx
      · rwa [List.mem_singleton.1 hx]

end Histories

/-- The language has the name, whatever its case. -/
def Named (lower : String → String) (name : String) (lang : Language) : Prop :=
  lower lang.name = lower name

/-- The language lists the extension, whatever its case. -/
def Claims (lower : String → String) (extension : String) (lang : Language) : Prop :=
  lower extension ∈ lang.extensions.map lower

instance (lower : String → String) (name : String) : DecidablePred (Named lower name) :=
  fun lang => inferInstanceAs (Decidable (lower lang.name = lower name))

instance (lower : String → String) (extension : String) : DecidablePred (Claims lower extension) :=
  fun lang => inferInstanceAs (Decidable (lower extension ∈ lang.extensions.map lower))

/-! ### What an addition changes -/

variable (r : Registry) (l : Language)

@[simp] theorem lower_add : (r.add l).lower = r.lower := rfl

theorem get?_languages_add (name : String) : (r.add l).languages.get? (r.lower name) =
    if r.lower name = r.lower l.name then some l else r.languages.get? (r.lower name) :=
  Table.get?_insert ..

/-- All extensions of a language lead to it. -/
theorem get?_claimed (t : Table String String) (key : String) (lower : String → String)
    (extensions : List String) (x : String) :
    (extensions.foldl (fun t e => t.insert (lower e) key) t).get? x =
      if x ∈ extensions.map lower then some key else t.get? x := by
  induction extensions generalizing t with
  | nil => rfl
  | cons e extensions ih =>
    rw [List.foldl_cons, ih, Table.get?_insert, List.map_cons]
    by_cases hx : x = lower e
    · simp [hx]
    · simp [hx]

theorem distinct_claimed {t : Table String String} (h : t.Distinct) (key : String)
    (lower : String → String) (extensions : List String) :
    (extensions.foldl (fun t e => t.insert (lower e) key) t).Distinct := by
  induction extensions generalizing t with
  | nil => exact h
  | cons e extensions ih => exact ih (h.insert (lower e) key)

/-- The registry is what the additions of the history leave, the first one first. -/
structure Follows (r : Registry) (history : List Language) : Prop where
  distinctNames : r.languages.Distinct
  distinctExtensions : r.extensions.Distinct
  keys : ∀ e ∈ r.languages.entries, e.1 = r.lower e.2.name
  languages : ∀ name lang, r.languages.get? (r.lower name) = some lang ↔
    IsLast (Named r.lower name) history lang
  extensions : ∀ extension key, r.extensions.get? (r.lower extension) = some key ↔
    ∃ lang, IsLast (Claims r.lower extension) history lang ∧ key = r.lower lang.name ∧
      IsLast (Named r.lower lang.name) history lang

theorem follows_nil (lower : String → String) : ({ lower } : Registry).Follows [] where
  distinctNames := Table.distinct_nil
  distinctExtensions := Table.distinct_nil
  keys := fun _ he => nomatch he
  languages := fun _ _ => iff_of_false (fun h => nomatch h) not_isLast_nil
  extensions := fun _ _ => iff_of_false (fun h => nomatch h) fun ⟨_, h, _⟩ => not_isLast_nil h

namespace Follows
variable {r : Registry} {history : List Language} (h : r.Follows history) (l : Language)
include h

/-- No extension leads to a language that is not there. -/
theorem languages_of_extensions {extension key : String}
    (he : r.extensions.get? (r.lower extension) = some key) : r.languages.has key = true := by
  obtain ⟨lang, -, rfl, hlang⟩ := (h.extensions extension key).1 he
  rw [Table.has, (h.languages lang.name lang).2 hlang]
  rfl

theorem get?_extensions_add (extension : String) :
    (r.add l).extensions.get? (r.lower extension) =
      if r.lower extension ∈ l.extensions.map r.lower then some (r.lower l.name)
      else (r.extensions.get? (r.lower extension)).filter (· != r.lower l.name) := by
  have hadd := get?_claimed (if r.languages.has (r.lower l.name) then
    r.extensions.keep (· != r.lower l.name) else r.extensions) (r.lower l.name) r.lower
    l.extensions (r.lower extension)
  refine hadd.trans ?_
  congr 1
  split
  · exact h.distinctExtensions.get?_keep ..
  · rename_i hnew
    -- Nothing leads to a name that is new, so nothing has to be dropped.
    cases hkey : r.extensions.get? (r.lower extension) with
    | none => rfl
    | some key =>
      have hne : key ≠ r.lower l.name := by
        rintro rfl
        exact hnew (h.languages_of_extensions hkey)
      simp [Option.filter, hne]

theorem add : (r.add l).Follows (history ++ [l]) where
  distinctNames := h.distinctNames.insert ..
  distinctExtensions := by
    apply distinct_claimed
    split
    · exact h.distinctExtensions.keep _
    · exact h.distinctExtensions
  keys := by
    intro e he
    rcases (Table.mem_entries_insert ..).1 he with ⟨hold, -⟩ | rfl
    · exact h.keys e hold
    · rfl
  languages := by
    intro name lang
    rw [lower_add, get?_languages_add, isLast_concat]
    by_cases hname : r.lower name = r.lower l.name
    · simp [hname, Named, eq_comm]
    · rw [if_neg hname, h.languages]
      simp [Named, Ne.symm hname]
  extensions := by
    intro extension key
    rw [lower_add, h.get?_extensions_add]
    by_cases hclaims : r.lower extension ∈ l.extensions.map r.lower
    · rw [if_pos hclaims]
      constructor
      · intro hkey
        cases hkey
        exact ⟨l, isLast_concat.2 (.inl ⟨hclaims, rfl⟩), rfl, isLast_concat.2 (.inl ⟨rfl, rfl⟩)⟩
      · rintro ⟨lang, hlast, rfl, -⟩
        rcases isLast_concat.1 hlast with ⟨-, rfl⟩ | ⟨hn, -⟩
        · rfl
        · exact absurd hclaims hn
    · -- Who claimed the extension keeps it, unless the new language takes that one's place.
      rw [if_neg hclaims, Option.filter_eq_some_iff, h.extensions]
      constructor
      · rintro ⟨⟨lang, hlast, rfl, hnamed⟩, hne⟩
        have hother : ¬ Named r.lower lang.name l := fun heq => bne_iff_ne.1 hne heq.symm
        exact ⟨lang, isLast_concat.2 (.inr ⟨hclaims, hlast⟩), rfl,
          isLast_concat.2 (.inr ⟨hother, hnamed⟩)⟩
      · rintro ⟨lang, hlast, rfl, hnamed⟩
        rcases isLast_concat.1 hlast with ⟨hl, -⟩ | ⟨-, hlast⟩
        · exact absurd hl hclaims
        · rcases isLast_concat.1 hnamed with ⟨-, rfl⟩ | ⟨hother, hnamed⟩
          · exact absurd hlast.holds hclaims
          · refine ⟨⟨lang, hlast, rfl, hnamed⟩, ?_⟩
            exact bne_iff_ne.2 fun heq => hother heq.symm

theorem addAll (ls : List Language) : (r.addAll ls).Follows (history ++ ls) := by
  induction ls generalizing r history with
  | nil => rwa [List.append_nil]
  | cons l ls ih =>
    have hrest := ih (h.add l)
    rwa [List.append_assoc] at hrest

/-! ### Names -/

theorem mem_languages_iff (e : String × Language) :
    e ∈ r.languages.entries ↔
      e.1 = r.lower e.2.name ∧ IsLast (Named r.lower e.2.name) history e.2 := by
  obtain ⟨key, lang⟩ := e
  constructor
  · intro he
    have hkey : key = r.lower lang.name := h.keys _ he
    rw [← h.distinctNames.get?_eq_some_iff, hkey] at he
    exact ⟨hkey, (h.languages lang.name lang).1 he⟩
  · rintro ⟨hkey, hlast⟩
    rw [← h.distinctNames.get?_eq_some_iff, show key = r.lower lang.name from hkey]
    exact (h.languages lang.name lang).2 hlast

theorem mem_names_iff (name : String) :
    name ∈ r.names ↔ ∃ lang, lang.name = name ∧ IsLast (Named r.lower name) history lang := by
  rw [names, List.mem_mergeSort, Table.values, List.map_map, List.mem_map]
  constructor
  · rintro ⟨e, he, rfl⟩
    exact ⟨e.2, rfl, ((h.mem_languages_iff e).1 he).2⟩
  · rintro ⟨lang, rfl, hlast⟩
    exact ⟨(r.lower lang.name, lang), (h.mem_languages_iff _).2 ⟨rfl, hlast⟩, rfl⟩

theorem nodup_lower_names : (r.names.map r.lower).Nodup := by
  have hkeys : (r.languages.values.map Language.name).map r.lower =
      r.languages.entries.map Prod.fst := by
    rw [Table.values, List.map_map, List.map_map]
    exact List.map_congr_left fun e he => (h.keys e he).symm
  have hperm := (List.mergeSort_perm (r.languages.values.map Language.name)
    fun a b => a ≤ b).map r.lower
  rw [names, hperm.nodup_iff, hkeys]
  exact h.distinctNames

theorem names_pairwise_lt : r.names.Pairwise (· < ·) := by
  have hsorted : r.names.Pairwise fun a b => decide (a ≤ b) = true := by
    apply List.pairwise_mergeSort
    · intro a b c hab hbc
      exact decide_eq_true (le_trans (of_decide_eq_true hab) (of_decide_eq_true hbc))
    · intro a b
      rw [Bool.or_eq_true, decide_eq_true_iff, decide_eq_true_iff]
      exact le_total a b
  have hdistinct : r.names.Pairwise (· ≠ ·) := h.nodup_lower_names.of_map
  exact (hsorted.and hdistinct).imp fun ⟨hle, hne⟩ => lt_of_le_of_ne (of_decide_eq_true hle) hne

/-! ### Files -/

theorem get?_eq_some_iff (name : String) (lang : Language) :
    r.get? name = some lang ↔ IsLast (Named r.lower name) history lang := h.languages name lang

theorem detect?_eq_some_iff (p : Path) (name : String) :
    r.detect? p = some name ↔ ∃ extension lang, p.extension? = some extension ∧
      IsLast (Claims r.lower extension) history lang ∧
      IsLast (Named r.lower lang.name) history lang ∧ lang.name = name := by
  rw [detect?]
  simp only [Option.bind_eq_bind, Option.bind_eq_some_iff, Option.pure_def, Option.some.injEq]
  constructor
  · rintro ⟨extension, hp, key, hkey, lang, hlang, rfl⟩
    obtain ⟨claimant, hlast, rfl, hnamed⟩ := (h.extensions extension key).1 hkey
    rw [(h.languages claimant.name claimant).2 hnamed] at hlang
    obtain rfl : claimant = lang := Option.some.inj hlang
    exact ⟨extension, claimant, hp, hlast, hnamed, rfl⟩
  · rintro ⟨extension, lang, hp, hlast, hnamed, rfl⟩
    exact ⟨extension, hp, r.lower lang.name, (h.extensions ..).2 ⟨lang, hlast, rfl, hnamed⟩, lang,
      (h.languages ..).2 hnamed, rfl⟩

theorem forPath_of_detect? {p : Path} {name : String} (hp : r.detect? p = some name) :
    ∃ extension lang, p.extension? = some extension ∧ Claims r.lower extension lang ∧
      lang.name = name ∧ r.find name = .ok lang ∧ r.forPath p = lang := by
  obtain ⟨extension, lang, hext, hlast, hnamed, rfl⟩ := (h.detect?_eq_some_iff p name).1 hp
  have hget : r.get? lang.name = some lang := (h.get?_eq_some_iff ..).2 hnamed
  refine ⟨extension, lang, hext, hlast.holds, rfl, ?_, ?_⟩
  · rw [find, hget]
  · rw [forPath, hp, Option.getD_some, hget, Option.getD_some]

end Follows

theorem lower_addAll (r : Registry) (ls : List Language) : (r.addAll ls).lower = r.lower := by
  induction ls generalizing r with
  | nil => rfl
  | cons l ls ih => exact ih (r.add l)

/-- What a registry answers after any additions, whatever it compares names by. The language of a
name is the last one of that name; all these are listed once, in the order of their bytes. A file
is of the language that lists its extension last, unless another one has taken the place of that
language since; so that language is there, and its rules are those for the file. Without such a
language they are those of the language with the plain name, which is built in. -/
theorem determined_by_history (lower : String → String) (start added : List Language) :
    let history := start ++ added
    let r := (({ lower } : Registry).addAll start).addAll added
    (∀ name lang, r.get? name = some lang ↔ IsLast (Named lower name) history lang) ∧
      (r.names.Pairwise fun a b => Text.utf8 a.toList < Text.utf8 b.toList) ∧
      (r.names.map lower).Nodup ∧
      (∀ name, name ∈ r.names ↔
        ∃ lang, lang.name = name ∧ IsLast (Named lower name) history lang) ∧
      (∀ p name, r.detect? p = some name ↔ ∃ extension lang, p.extension? = some extension ∧
        IsLast (Claims lower extension) history lang ∧
        IsLast (Named lower lang.name) history lang ∧ lang.name = name) ∧
      (∀ p name, r.detect? p = some name → ∃ extension lang, p.extension? = some extension ∧
        Claims lower extension lang ∧ lang.name = name ∧ r.find name = .ok lang ∧
        r.forPath p = lang) ∧
      ∀ p, r.detect? p = none →
        r.forPath p = (r.get? Language.plainName).getD Language.plain := by
  intro history r
  have h : r.Follows history := ((follows_nil lower).addAll start).addAll added
  have hlower : r.lower = lower := by rw [lower_addAll, lower_addAll]
  rw [← hlower]
  refine ⟨h.get?_eq_some_iff, ?_, h.nodup_lower_names, h.mem_names_iff, h.detect?_eq_some_iff,
    fun p name => h.forPath_of_detect?, ?_⟩
  · exact h.names_pairwise_lt.imp fun hlt => Text.utf8_lt_utf8 (String.lt_iff_toList_lt.1 hlt)
  · intro p hp
    rw [forPath, hp, Option.getD_none]

/-- A language takes the place of the built-in one of its name and leaves out an extension of it;
another one takes over an extension of a language that stays. -/
theorem determined_by_history_override :
    let rust : Language := { name := "rust", extensions := ["rsx"] }
    let toy : Language := { name := "Toy", extensions := ["toy", "CS"] }
    let r := Registry.builtin.addAll [rust, toy]
    r.get? "RUST" = some rust ∧ "Rust" ∉ r.names ∧ "CSharp" ∈ r.names ∧
      r.detect? "a.rs" = none ∧ r.forPath "a.rs" = Language.plain ∧
      r.detect? "a.Cs" = some "Toy" ∧ r.forPath "a.Cs" = toy := by
  intro rust toy r
  have h := determined_by_history lowerCase Language.builtin [rust, toy]
  have hr : (({ lower := lowerCase } : Registry).addAll Language.builtin).addAll [rust, toy] = r :=
    rfl
  simp only [hr] at h
  obtain ⟨hget, -, -, hnames, -, hfound, hplain⟩ := h
  have hrust : r.get? "RUST" = some rust :=
    (hget "RUST" rust).2 ⟨Language.builtin, [toy], rfl, by decide +kernel, by decide +kernel⟩
  have hdropped : r.detect? "a.rs" = none := by decide +kernel
  have htaken : r.detect? "a.Cs" = some "Toy" := by decide +kernel
  refine ⟨hrust, ?_, ?_, hdropped, ?_, htaken, ?_⟩
  · intro hm
    obtain ⟨lang, hname, hlast⟩ := (hnames "Rust").1 hm
    have hlang : r.get? "Rust" = some lang := (hget "Rust" lang).2 hlast
    have hsame : r.get? "Rust" = some rust := by decide +kernel
    rw [hsame] at hlang
    obtain rfl : rust = lang := Option.some.inj hlang
    exact absurd hname (by decide)
  · refine (hnames "CSharp").2 ⟨Language.csharp, rfl, (hget "CSharp" _).1 ?_⟩
    decide +kernel
  · rw [hplain "a.rs" hdropped]
    decide +kernel
  · obtain ⟨-, lang, -, -, -, hfind, hrules⟩ := hfound "a.Cs" "Toy" htaken
    have htoy : r.get? "Toy" = some toy := by decide +kernel
    rw [find, htoy] at hfind
    obtain rfl : toy = lang := Except.ok.inj hfind
    exact hrules

end Registry

end Highlighter
