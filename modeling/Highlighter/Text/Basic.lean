/-!
# Source text

Source text is a list of characters, so that scanning is recursion on the text.
Sizes and offsets are counted in UTF-8 bytes. The place of a cursor is written
as a pair: the characters before it, nearest first, and the characters after it.
-/

namespace Highlighter

abbrev Text := List Char

namespace Text

def byteSize (t : Text) : Nat := t.foldr (fun c n => c.utf8Size + n) 0

@[simp] theorem byteSize_nil : byteSize [] = 0 := rfl

@[simp] theorem byteSize_cons (c : Char) (t : Text) :
    byteSize (c :: t) = c.utf8Size + byteSize t := rfl

@[simp] theorem byteSize_append (t u : Text) : byteSize (t ++ u) = byteSize t + byteSize u := by
  induction t with
  | nil => simp
  | cons c t ih => simp [ih, Nat.add_assoc]

/-- The text after a leading `token`, if the text starts with it. -/
def after? (t token : Text) : Option Text :=
  if token.isPrefixOf t then some (t.drop token.length) else none

theorem after?_eq_some_iff {t token rest : Text} :
    t.after? token = some rest ↔ t = token ++ rest := by
  unfold after?
  constructor
  · intro h
    split at h
    · rename_i hp
      obtain ⟨r, rfl⟩ := List.isPrefixOf_iff_prefix.1 hp
      simp at h
      rw [h]
    · cases h
  · rintro rfl
    simp

def padLeft (width : Nat) (t : Text) : Text := List.replicate (width - t.length) ' ' ++ t

def padRight (width : Nat) (t : Text) : Text := t ++ List.replicate (width - t.length) ' '

def ofNat (n : Nat) : Text := Nat.toDigits 10 n

theorem isDigit_of_mem_ofNat {n : Nat} {c : Char} (h : c ∈ ofNat n) : c.isDigit = true :=
  Nat.isDigit_of_mem_toDigits (by decide) (by decide) h

theorem length_ofNat_pos (n : Nat) : 0 < (ofNat n).length := Nat.length_toDigits_pos

/-- The place `offset` bytes into the text, as the characters before it (nearest
first) and after it. No place is inside a character or past the end. -/
def placeAt? (offset : Nat) (t : Text) : Option (Text × Text) :=
  go [] offset t
where
  go (before : Text) : Nat → Text → Option (Text × Text)
    | 0, rest => some (before, rest)
    | _ + 1, [] => none
    | n + 1, c :: rest =>
      if c.utf8Size ≤ n + 1 then go (c :: before) (n + 1 - c.utf8Size) rest else none

end Text

def isAscii (c : Char) : Bool := c.toNat < 128

/-- Whether the text starts with the mark. Only an ASCII mark can be found. -/
def startsWith (mark : Option Char) : Text → Bool
  | [] => false
  | c :: _ => isAscii c && mark == some c

theorem exists_of_startsWith {mark : Option Char} {t : Text} (h : startsWith mark t) :
    ∃ c rest, t = c :: rest ∧ mark = some c ∧ isAscii c := by
  cases t with
  | nil => cases h
  | cons c rest =>
    simp [startsWith] at h
    exact ⟨c, rest, rfl, h.2, h.1⟩

end Highlighter
