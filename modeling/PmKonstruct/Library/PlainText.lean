import Mathlib.Algebra.GroupWithZero.Nat
import Mathlib.Algebra.Ring.Int.Defs
import Mathlib.Data.List.DropRight

/- Plain text as a list of Unicode scalar values, with the string operations of the standard library that
   a text program composes: trimming, substring search, splitting and line iteration. Offsets count
   characters; a byte offset returned by a search and used in a slice names the same cut. -/
namespace PlainText

abbrev Text := List Char

instance lawful_text : LawfulBEq Text := inferInstance

/-- A text constant. -/
def text (s : String) : Text := s.toList

/-- The Unicode `White_Space` property. -/
def isWhitespace (c : Char) : Bool :=
  (0x09 ≤ c.toNat && c.toNat ≤ 0x0D) || c.toNat == 0x20 || c.toNat == 0x85 || c.toNat == 0xA0 ||
  c.toNat == 0x1680 || (0x2000 ≤ c.toNat && c.toNat ≤ 0x200A) || c.toNat == 0x2028 || c.toNat == 0x2029 ||
  c.toNat == 0x202F || c.toNat == 0x205F || c.toNat == 0x3000

/-- The control characters, general category Cc. -/
def isControl (c : Char) : Bool := c.toNat < 0x20 || (0x7f ≤ c.toNat && c.toNat < 0xa0)

/-- The length in UTF-8. -/
def byteLength (t : Text) : Nat := (t.map Char.utf8Size).sum

def trimStart (t : Text) : Text := t.dropWhile isWhitespace

def trimEnd (t : Text) : Text := t.rdropWhile isWhitespace

def trim (t : Text) : Text := trimEnd (trimStart t)

/-- The offset of the first occurrence of a pattern. -/
def find (pattern : Text) : Text → Option Nat
  | [] => if pattern = [] then some 0 else none
  | c :: cs => if pattern.isPrefixOf (c :: cs) then some 0 else (find pattern cs).map (· + 1)

def stripPrefix (pattern t : Text) : Option Text :=
  if pattern.isPrefixOf t then some (t.drop pattern.length) else none

def splitOnce (separator : Char) : Text → Option (Text × Text)
  | [] => none
  | c :: cs => if c = separator then some ([], cs) else (splitOnce separator cs).map fun (a, b) => (c :: a, b)

/-- `rsplit_once`: at the last separator. -/
def rsplitOnce (separator : Char) (t : Text) : Option (Text × Text) :=
  (splitOnce separator t.reverse).map fun (back, front) => (front.reverse, back.reverse)

def toAsciiLowercase (t : Text) : Text := t.map Char.toLower

/-- `split_once` at a text. -/
def splitAtText (separator t : Text) : Option (Text × Text) :=
  (find separator t).map fun i => (t.take i, t.drop (i + separator.length))

/-- A carriage return is part of the terminator only where a newline follows it. -/
def stripReturn (line : Text) : Text :=
  if line.getLast? = some '\r' then line.dropLast else line

def linesFrom (current : Text) : Text → List Text
  | [] => if current = [] then [] else [current]
  | c :: cs => if c = '\n' then stripReturn current :: linesFrom [] cs else linesFrom (current ++ [c]) cs

def lines (t : Text) : List Text := linesFrom [] t

def join (separator : Text) : List Text → Text
  | [] => []
  | [t] => t
  | t :: u :: rest => t ++ separator ++ join separator (u :: rest)

theorem join_cons_cons (separator t u : Text) (rest : List Text) :
    join separator (t :: u :: rest) = t ++ (separator ++ join separator (u :: rest)) := by
  simp only [join, List.append_assoc]

theorem join_singleton (separator t : Text) : join separator [t] = t := rfl

theorem trim_of_edges {t front rest : Text} {c d : Char} (starts : t = c :: rest) (ends : t = front ++ [d])
    (visibleStart : isWhitespace c = false) (visibleEnd : isWhitespace d = false) : trim t = t := by
  have start : trimStart t = t := by simp [starts, trimStart, visibleStart]
  rw [trim, start, ends]
  exact List.rdropWhile_concat_neg _ _ _ (by simp [visibleEnd])

theorem trimEnd_split (t : Text) : ∃ spaces, t = trimEnd t ++ spaces ∧ spaces.all isWhitespace := by
  refine ⟨t.rtakeWhile isWhitespace, (List.rdropWhile_append_rtakeWhile).symm, ?_⟩
  exact List.all_eq_true.mpr fun c member => List.mem_rtakeWhile_imp member

/-- White space on both sides of what is kept. -/
theorem trim_split (t : Text) : ∃ back, t = t.takeWhile isWhitespace ++ trim t ++ back ∧ back.all isWhitespace := by
  obtain ⟨back, split, blank⟩ := trimEnd_split (trimStart t)
  refine ⟨back, ?_, blank⟩
  rw [trim, List.append_assoc, ← split, trimStart, List.takeWhile_append_dropWhile]

theorem trimEnd_cons {c : Char} {t : Text} (visible : isWhitespace c = false) :
    ∃ rest, trimEnd (c :: t) = c :: rest := by
  obtain ⟨spaces, split, blank⟩ := trimEnd_split (c :: t)
  cases shown : trimEnd (c :: t) with
  | nil =>
    rw [shown, List.nil_append] at split
    simp [← split, visible] at blank
  | cons d rest =>
    rw [shown, List.cons_append, List.cons.injEq] at split
    exact ⟨rest, by rw [split.1]⟩

theorem trim_trim (t : Text) : trim (trim t) = trim t := by
  cases started : trimStart t with
  | nil =>
    rw [trim, trim, started]
    rfl
  | cons c rest =>
    have visible : isWhitespace c = false := by
      have first := List.head?_dropWhile_not isWhitespace t
      rw [show t.dropWhile isWhitespace = c :: rest from started] at first
      simpa using first
    obtain ⟨kept, ended⟩ := @trimEnd_cons c rest visible
    have again : trimStart (c :: kept) = c :: kept := by simp [trimStart, visible]
    rw [trim, trim, started, ended, again, ← ended, trimEnd, trimEnd, List.rdropWhile_idempotent]

/-- Two texts that begin with white space run into the same first visible character. -/
theorem visible_after_spaces {s u : Text} {a b : Char} {x y : Text} (blankLeft : s.all isWhitespace)
    (blankRight : u.all isWhitespace) (visibleLeft : isWhitespace a = false)
    (visibleRight : isWhitespace b = false) (same : s ++ a :: x = u ++ b :: y) : a = b := by
  have left : trimStart (s ++ a :: x) = a :: x := by
    rw [trimStart, List.dropWhile_append_of_pos (by simpa using blankLeft)]
    simp [visibleLeft]
  have right : trimStart (u ++ b :: y) = b :: y := by
    rw [trimStart, List.dropWhile_append_of_pos (by simpa using blankRight)]
    simp [visibleRight]
  rw [same, right, List.cons.injEq] at left
  exact left.1.symm

theorem isPrefixOf_append_separator {pattern : Text} {z : Char} (absent : z ∉ pattern) (xs ys : Text) :
    pattern.isPrefixOf (xs ++ z :: ys) = pattern.isPrefixOf xs := by
  induction pattern generalizing xs with
  | nil => simp
  | cons c cs ih =>
    have different : c ≠ z := by intro same; exact absent (by simp [same])
    cases xs with
    | nil => simp [List.isPrefixOf, different]
    | cons x xs => simp only [List.cons_append, List.isPrefixOf_cons_cons,
        ih (fun member => absent (by simp [member]))]

/-- A pattern that lacks the separator is found on one side of it or on the other. -/
theorem find_append_separator {pattern xs ys : Text} {z : Char} (nonempty : pattern ≠ [])
    (absent : z ∉ pattern) :
    find pattern (xs ++ z :: ys) = (find pattern xs).or ((find pattern ys).map (· + (xs.length + 1))) := by
  induction xs with
  | nil =>
    cases pattern with
    | nil => exact absurd rfl nonempty
    | cons c cs =>
      have different : c ≠ z := by intro same; exact absent (by simp [same])
      simp [find, List.isPrefixOf, different]
  | cons x xs ih =>
    have same := isPrefixOf_append_separator absent (x :: xs) ys
    rw [List.cons_append] at same
    simp only [List.cons_append, find, same]
    split
    · rfl
    · rw [ih]
      cases find pattern xs with
      | some i => rfl
      | none => cases find pattern ys <;> simp [Nat.add_assoc]

theorem find_self_append {pattern xs : Text} : find pattern (pattern ++ xs) = some 0 := by
  cases pattern with
  | nil => cases xs <;> simp [find]
  | cons c cs => simp [find]

theorem find_some_prefix {pattern t : Text} {i : Nat} (found : find pattern t = some i) :
    pattern <+: t.drop i := by
  induction t generalizing i with
  | nil =>
    simp only [find] at found
    split at found
    · next empty => simp [empty]
    · cases found
  | cons c cs ih =>
    simp only [find] at found
    split at found
    · next here =>
      cases found
      exact List.isPrefixOf_iff_prefix.mp here
    · obtain ⟨j, later, rfl⟩ := Option.map_eq_some_iff.mp found
      exact ih later

theorem find_some_le {pattern t : Text} {i : Nat} (found : find pattern t = some i) :
    i + pattern.length ≤ t.length := by
  have first := find_some_prefix found
  have short := first.length_le
  rw [List.length_drop] at short
  by_cases within : i ≤ t.length
  · omega
  · -- Past the end only the empty pattern is left, and it is found at once.
    have empty : pattern = [] := List.length_eq_zero_iff.mp (by omega)
    subst empty
    have start : 0 = i := by
      cases t <;> exact Option.some.inj found
    omega

theorem isUpper_iff {c : Char} : c.isUpper = true ↔ 65 ≤ c.toNat ∧ c.toNat ≤ 90 :=
  decide_eq_true_iff.trans (and_congr UInt32.le_iff_toNat_le UInt32.le_iff_toNat_le)

theorem isLower_iff {c : Char} : c.isLower = true ↔ 97 ≤ c.toNat ∧ c.toNat ≤ 122 :=
  Bool.and_eq_true_iff.trans (and_congr (decide_eq_true_iff.trans UInt32.le_iff_toNat_le)
    (decide_eq_true_iff.trans UInt32.le_iff_toNat_le))

theorem isAlpha_iff {c : Char} : c.isAlpha = true ↔ (65 ≤ c.toNat ∧ c.toNat ≤ 90) ∨ (97 ≤ c.toNat ∧ c.toNat ≤ 122) :=
  Bool.or_eq_true_iff.trans (or_congr isUpper_iff isLower_iff)

/-- Only letters come out changed, and as letters. -/
theorem toLower_cases (c : Char) : c.toLower = c ∨ (c.isAlpha = true ∧ c.toLower.isAlpha = true) := by
  by_cases upper : c.val ≥ 'A'.val ∧ c.val ≤ 'Z'.val
  · have bounds : 65 ≤ c.toNat ∧ c.toNat ≤ 90 := isUpper_iff.mp (decide_eq_true upper)
    have lowered : c.toLower.val = c.val + 32 := congrArg Char.val (dif_pos upper)
    have code : c.toLower.toNat = c.toNat + 32 := by
      rw [← Char.toNat_val, lowered, UInt32.toNat_add, Char.toNat_val]
      exact Nat.mod_eq_of_lt (by change c.toNat + 32 < _; omega)
    exact .inr ⟨isAlpha_iff.mpr (.inl bounds), isAlpha_iff.mpr (by omega)⟩
  · exact .inl (dif_neg upper)

theorem toLower_eq_iff {c d : Char} (letterless : d.isAlpha = false) : c.toLower = d ↔ c = d := by
  rcases toLower_cases c with same | ⟨letter, lower⟩
  · rw [same]
  · refine iff_of_false ?_ ?_
    · rintro rfl
      rw [lower] at letterless
      cases letterless
    · rintro rfl
      rw [letter] at letterless
      cases letterless

theorem isAlpha_of_toLower {c : Char} (letter : c.toLower.isAlpha = true) : c.isAlpha = true := by
  rcases toLower_cases c with same | ⟨before, -⟩
  · rwa [same] at letter
  · exact before

theorem splitOnce_append {separator c : Char} {t : Text} (different : c ≠ separator) :
    splitOnce separator (t ++ [c]) = (splitOnce separator t).map fun (a, b) => (a, b ++ [c]) := by
  induction t with
  | nil => simp [splitOnce, different]
  | cons x xs ih =>
    simp only [List.cons_append, splitOnce]
    split
    · rfl
    · rw [ih]
      cases splitOnce separator xs <;> rfl

theorem splitOnce_eq_some {separator : Char} {t a b : Text} :
    splitOnce separator t = some (a, b) ↔ separator ∉ a ∧ t = a ++ separator :: b := by
  induction t generalizing a with
  | nil => simp [splitOnce]
  | cons x xs ih =>
    rw [splitOnce]
    split
    · next same =>
      subst same
      cases a with
      | nil => simp
      | cons c rest =>
        constructor
        · intro split
          cases split
        · rintro ⟨absent, shape⟩
          rw [List.cons_append, List.cons.injEq] at shape
          exact absurd (shape.1 ▸ List.mem_cons_self) absent
    · next different =>
      cases a with
      | nil =>
        constructor
        · intro split
          obtain ⟨pair, -, shape⟩ := Option.map_eq_some_iff.mp split
          cases shape
        · rintro ⟨-, shape⟩
          rw [List.nil_append, List.cons.injEq] at shape
          exact absurd shape.1 different
      | cons c rest =>
        have inner := @ih rest
        simp only [Option.map_eq_some_iff, Prod.mk.injEq, List.cons.injEq, List.cons_append, List.mem_cons, not_or]
        constructor
        · rintro ⟨⟨front, back⟩, found, ⟨rfl, rfl⟩, rfl⟩
          obtain ⟨absent, shape⟩ := inner.mp found
          exact ⟨⟨Ne.symm different, absent⟩, rfl, shape⟩
        · rintro ⟨⟨-, absent⟩, rfl, shape⟩
          exact ⟨(rest, b), inner.mpr ⟨absent, shape⟩, ⟨rfl, rfl⟩, rfl⟩

theorem rsplitOnce_eq_some {separator : Char} {t a b : Text} :
    rsplitOnce separator t = some (a, b) ↔ separator ∉ b ∧ t = a ++ separator :: b := by
  rw [rsplitOnce, Option.map_eq_some_iff]
  constructor
  · rintro ⟨⟨back, front⟩, found, same⟩
    cases same
    obtain ⟨absent, shape⟩ := splitOnce_eq_some.mp found
    refine ⟨fun member => absent (List.mem_reverse.mp member), ?_⟩
    rw [← List.reverse_reverse t, shape, List.reverse_append, List.reverse_cons, List.append_assoc, List.singleton_append]
  · rintro ⟨absent, rfl⟩
    refine ⟨(b.reverse, a.reverse), splitOnce_eq_some.mpr ⟨fun member => absent (List.mem_reverse.mp member), ?_⟩, ?_⟩
    · rw [List.reverse_append, List.reverse_cons, List.append_assoc, List.singleton_append]
    · show (a.reverse.reverse, b.reverse.reverse) = (a, b)
      rw [List.reverse_reverse, List.reverse_reverse]

theorem splitOnce_eq_none {separator : Char} {t : Text} : splitOnce separator t = none ↔ separator ∉ t := by
  induction t with
  | nil => simp [splitOnce]
  | cons x xs ih =>
    rw [splitOnce]
    split
    · next same => simp [same]
    · next different => simp [ih, Ne.symm different]

theorem rsplitOnce_eq_none {separator : Char} {t : Text} : rsplitOnce separator t = none ↔ separator ∉ t := by
  rw [rsplitOnce, Option.map_eq_none_iff, splitOnce_eq_none, List.mem_reverse]

theorem trimStart_append_isPrefixOf {pattern t : Text} {c : Char}
    (space : isWhitespace c = true) (absent : c ∉ pattern) :
    pattern.isPrefixOf (trimStart (t ++ [c])) = pattern.isPrefixOf (trimStart t) := by
  induction t with
  | nil => simp [trimStart, space]
  | cons x xs ih =>
    by_cases blank : isWhitespace x = true
    · simpa [trimStart, blank] using ih
    · have shown : trimStart (x :: xs ++ [c]) = (x :: xs) ++ [c] := by simp [trimStart, blank]
      rw [shown, isPrefixOf_append_separator absent]
      simp [trimStart, blank]

/-- The lines before a newline and the lines after it. -/
theorem linesFrom_append_newline (current xs ys : Text) :
    linesFrom current (xs ++ '\n' :: ys) = linesFrom current (xs ++ ['\n']) ++ lines ys := by
  induction xs generalizing current with
  | nil => simp [linesFrom, lines]
  | cons x xs ih =>
    simp only [List.cons_append, linesFrom]
    split
    · rw [ih, List.cons_append]
    · exact ih _

section LinePredicate
variable {p : Text → Bool}

theorem linesFrom_newline_any (empty : p [] = false) (blind : ∀ line, p (stripReturn line) = p line)
    (current xs : Text) : (linesFrom current (xs ++ ['\n'])).any p = (linesFrom current xs).any p := by
  induction xs generalizing current with
  | nil =>
    by_cases none : current = []
    · subst none
      simp [linesFrom, blind, empty]
    · simp [linesFrom, none, blind]
  | cons x xs ih =>
    simp only [List.cons_append, linesFrom]
    split
    · simp only [List.any_cons, ih]
    · exact ih _

/-- A line predicate that a trailing carriage return does not change may be checked around any newline. -/
theorem lines_any_append_newline (empty : p [] = false) (blind : ∀ line, p (stripReturn line) = p line)
    (xs ys : Text) : (lines (xs ++ '\n' :: ys)).any p = ((lines xs).any p || (lines ys).any p) := by
  rw [lines, linesFrom_append_newline, List.any_append, linesFrom_newline_any empty blind]
  rfl

end LinePredicate

end PlainText
