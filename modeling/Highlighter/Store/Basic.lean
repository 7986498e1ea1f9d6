import Highlighter.Error
import Highlighter.Store.Path
import Highlighter.Table

/-!
# File store

The files a program can see. A path is walked step by step, from directory to directory,
and fails at the first step that starts anywhere else. A write stores the whole text under
the path, or fails and changes nothing; what was written is read back.
-/

namespace Highlighter

inductive Entry where
  | text (contents : Text)
  /-- Bytes that are not text in UTF-8. -/
  | binary (bytes : List UInt8)
  | directory
  deriving DecidableEq, Repr

namespace Entry

/-- The file with a text at its end. -/
def append : Entry → Text → Entry
  | .text contents, t => .text (contents ++ t)
  | .binary bytes, t => .binary (bytes ++ t.flatMap String.utf8EncodeChar)
  | .directory, _ => .directory

end Entry

structure Store where
  /-- The directory that relative paths start from. -/
  workingDirectory : Place := []
  files : Table Place Entry := {}
  readOnly : List Place := []

namespace Store

/-- Bytes in a name, at most. -/
def nameLimit : Nat := 255

/-- Bytes in a path, at most. -/
def pathLimit : Nat := 4095

/-- Directories are the working directory, those that were made, and those that hold
something, with all that lead to them. -/
def isDirectory (store : Store) (here : Place) : Bool :=
  here.isPrefixOf store.workingDirectory ||
    store.files.entries.any fun (place, entry) =>
      here.isPrefixOf place && (entry == .directory || here != place)

/-! ### Walking -/

def start (store : Store) (p : Path) : Place := if p.isAbsolute then [] else store.workingDirectory

/-- The place a path leads to, if it can be walked. -/
def place (store : Store) (p : Path) : Place := p.steps.foldl Place.follow (store.start p)

/-- One step, which must start at a directory. -/
def step (store : Store) (here : Place) (step : String) : Except FileError Place :=
  if !store.isDirectory here then
    .error (if store.files.has here then .notDirectory else .notFound)
  else if nameLimit < step.utf8ByteSize then .error .nameTooLong
  else .ok (here.follow step)

/-- What is wrong with a path, wherever it may lead. -/
def fault? (p : Path) : Option FileError :=
  if p.toList.contains '\x00' then some .nullInPath
  else if pathLimit < p.utf8ByteSize then some .nameTooLong
  else none

def walk (store : Store) (p : Path) : Except FileError Place :=
  match fault? p with
  | some e => .error e
  | none => if p.isEmpty then .error .notFound else p.steps.foldlM store.step (store.start p)

theorem foldl_of_foldlM_step {store : Store} {steps : List String} {here there : Place}
    (h : steps.foldlM store.step here = .ok there) : steps.foldl Place.follow here = there := by
  induction steps generalizing here with
  | nil => cases h; rfl
  | cons s steps ih =>
    rw [List.foldlM_cons] at h
    unfold step at h
    repeat' split at h
    all_goals first | exact ih h | cases h

/-- A walk that succeeds ends at the place of its path. -/
theorem place_of_walk {store : Store} {p : Path} {here : Place} (h : store.walk p = .ok here) :
    store.place p = here := by
  unfold walk at h
  repeat' split at h
  all_goals first | exact foldl_of_foldlM_step h | cases h

/-! ### Reading and writing -/

def find (store : Store) (p : Path) : Except FileError Entry :=
  match store.walk p with
  | .error e => .error e
  | .ok here =>
    if store.isDirectory here then .ok .directory
    else
      match store.files.get? here with
      | none => .error .notFound
      | some entry => if p.endsInSlash then .error .notDirectory else .ok entry

def exists? (store : Store) (p : Path) : Bool := (store.find p).isOk

def read (store : Store) (p : Path) : Except FileError Text :=
  match store.find p with
  | .ok (.text contents) => .ok contents
  | .ok (.binary _) => .error .notText
  | .ok .directory => .error .isDirectory
  | .error e => .error e

def write (store : Store) (p : Path) (contents : Text) : Except FileError Store :=
  match store.walk p with
  | .error e => .error e
  | .ok here =>
    if p.endsInSlash || store.isDirectory here then .error .isDirectory
    else if store.readOnly.contains here then .error .denied
    else .ok { store with files := store.files.insert here (.text contents) }

/-- A write that succeeds has put the text at the end of the walk, where no directory was. -/
theorem write_eq_ok {store store' : Store} {p : Path} {contents : Text}
    (h : store.write p contents = .ok store') :
    store.walk p = .ok (store.place p) ∧ store.isDirectory (store.place p) = false ∧
      p.endsInSlash = false ∧
      store' = { store with files := store.files.insert (store.place p) (.text contents) } := by
  unfold write at h
  split at h
  · cases h
  rename_i here hw
  rw [place_of_walk hw]
  split at h
  · cases h
  rename_i hd
  split at h
  · cases h
  cases h
  simp_all

/-- An entry in the place of a file, or of nothing, makes directories of the places above. -/
theorem isDirectory_insert {store : Store} {here : Place} (h : store.isDirectory here = false)
    (entry : Entry) (there : Place) :
    ({ store with files := store.files.insert here entry } : Store).isDirectory there =
      (store.isDirectory there ||
        there.isPrefixOf here && (entry == .directory || there != here)) := by
  have hnew : ∀ old, (here, old) ∈ store.files.entries → old ≠ .directory := by
    rintro old hm rfl
    simp only [isDirectory, Bool.or_eq_false_iff, List.any_eq_false] at h
    simpa using h.2 _ hm
  rw [Bool.eq_iff_iff]
  simp only [isDirectory, Bool.or_eq_true, List.any_eq_true, Table.mem_entries_insert,
    Bool.and_eq_true, or_assoc]
  refine or_congr_right ⟨?_, ?_⟩
  · rintro ⟨e, ⟨hm, _⟩ | rfl, hp⟩
    · exact .inl ⟨e, hm, hp⟩
    · exact .inr (by simpa using hp)
  · rintro (⟨⟨place, old⟩, hm, hp⟩ | hp)
    · by_cases he : place = here
      · subst he
        have hne : there.isPrefixOf place = true ∧ (there != place) = true := by
          simpa [hnew _ hm] using hp
        exact ⟨_, .inr rfl, hne.1, .inr hne.2⟩
      · exact ⟨_, .inl ⟨hm, he⟩, hp⟩
    · exact ⟨_, .inr rfl, by simpa using hp⟩

/-- Where there are more directories, all walks lead where they did. -/
theorem foldlM_step_of_isDirectory {store store' : Store}
    (hd : ∀ here, store.isDirectory here → store'.isDirectory here) {steps : List String}
    {here there : Place} (h : steps.foldlM store.step here = .ok there) :
    steps.foldlM store'.step here = .ok there := by
  induction steps generalizing here with
  | nil => exact h
  | cons s steps ih =>
    rw [List.foldlM_cons] at h ⊢
    cases hs : store.isDirectory here with
    | false => simp [step, hs, bind, Except.bind] at h
    | true =>
      have hstep : store'.step here s = store.step here s := by simp [step, hs, hd here hs]
      rw [hstep]
      cases hn : store.step here s with
      | error e => simp [hn, bind, Except.bind] at h
      | ok next => exact ih (by simpa [hn, bind, Except.bind] using h)

theorem read_write {store store' : Store} {p : Path} {contents : Text}
    (h : store.write p contents = .ok store') : store'.read p = .ok contents := by
  obtain ⟨hw, hd, hs, rfl⟩ := write_eq_ok h
  have hw' : ({ store with files := store.files.insert (store.place p) (.text contents) } :
      Store).walk p = .ok (store.place p) := by
    unfold walk at hw ⊢
    repeat' split at hw
    all_goals first | cases hw | skip
    simp_all only
    exact foldlM_step_of_isDirectory
      (fun here hh => by simp [isDirectory_insert hd, hh]) hw
  simp [read, find, hw', isDirectory_insert hd, hd, hs, Table.get?_insert]

/-! ### Making directories -/

/-- Makes the directories that the steps lead through, where they are missing. -/
def makeMissing (store : Store) (here : Place) : List String → Except FileError Store
  | [] => .ok store
  | step :: steps =>
    let next := here.follow step
    if nameLimit < step.utf8ByteSize then .error .nameTooLong
    else if store.isDirectory next then makeMissing store next steps
    else if store.files.has next then .error .alreadyExists
    else makeMissing { store with files := store.files.insert next .directory } next steps

/-- Makes the directory that the steps lead to. A file on the way is no directory; where one
is to be made, what stands there exists already. -/
def makeWay (store : Store) (here : Place) : List String → Except FileError Store
  | [] => .ok store
  | step :: steps =>
    let next := here.follow step
    if store.isDirectory next then makeWay store next steps
    else if store.files.has next && !steps.isEmpty then .error .notDirectory
    else makeMissing store here (step :: steps)

def makeDirectory (store : Store) (p : Path) : Except FileError Store :=
  match fault? p with
  | some e => .error e
  | none => store.makeWay (store.start p) p.parts

/-- The store with a file under the path, empty if it is new. -/
def touch (store : Store) (p : Path) : Except FileError Store :=
  match store.find p with
  | .ok .directory => .error .isDirectory
  | .ok _ => .ok store
  | .error .notFound => store.write p []
  | .error e => .error e

/-- The store with a text at the end of a file that is there. -/
def append (store : Store) (p : Path) (t : Text) : Store :=
  match store.find p with
  | .error _ | .ok .directory => store
  | .ok entry =>
    if t.isEmpty then store
    else { store with files := store.files.insert (store.place p) (entry.append t) }

end Store

end Highlighter
