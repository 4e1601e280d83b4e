import PmKonstruct.Library.PlainText

/- Where a pattern stands in a text, whichever way the text is put together, and what is read of a text line by line. -/
namespace TextSearch
open PlainText

section Occurrences
variable {pattern t xs ys : Text}

theorem find_eq_none_iff (nonempty : pattern ≠ []) : find pattern t = none ↔ ¬ pattern <:+: t := by
  induction t with
  | nil => simp [find, nonempty]
  | cons c rest ih =>
    rw [find, List.infix_cons_iff, ← List.isPrefixOf_iff_prefix]
    split
    · next here => simp [here]
    · next elsewhere => simp [elsewhere, ih]

theorem find_drop {i : Nat} (found : find pattern t = some i) :
    t.drop i = pattern ++ t.drop (i + pattern.length) := by
  obtain ⟨rest, shown⟩ := find_some_prefix found
  rw [← List.drop_drop, ← shown, List.drop_left]

theorem find_split {i : Nat} (found : find pattern t = some i) :
    t = t.take i ++ (pattern ++ t.drop (i + pattern.length)) := by
  rw [← find_drop found, List.take_append_drop]

/-- No occurrence is further to the left than the one that is found. -/
theorem find_leftmost {i : Nat} (found : find pattern t = some i) {before after : Text}
    (split : t = before ++ (pattern ++ after)) : i ≤ before.length := by
  induction before generalizing t i with
  | nil =>
    rw [split, List.nil_append, find_self_append] at found
    exact Nat.le_of_eq (Option.some.inj found).symm
  | cons c rest ih =>
    rw [split, List.cons_append, find] at found
    split at found
    · exact Nat.le_trans (Nat.le_of_eq (Option.some.inj found).symm) (Nat.zero_le _)
    · obtain ⟨j, later, rfl⟩ := Option.map_eq_some_iff.mp found
      exact Nat.succ_le_succ (ih later rfl)

theorem not_infix_before (nonempty : pattern ≠ []) {i : Nat} (found : find pattern t = some i) :
    ¬ pattern <:+: t.take i := by
  rintro ⟨before, after, inside⟩
  have split : t = before ++ (pattern ++ (after ++ t.drop i)) := by
    rw [← List.append_assoc pattern, ← List.append_assoc before, ← List.append_assoc before, inside,
      List.take_append_drop]
  have left := find_leftmost found split
  have short := congrArg List.length inside
  have visible := List.length_pos_of_ne_nil nonempty
  simp only [List.length_append, List.length_take] at short
  omega

/-- A separator that the pattern lacks has the pattern on one side of it or on the other. -/
theorem infix_append_separator {z : Char} (nonempty : pattern ≠ []) (absent : z ∉ pattern) :
    pattern <:+: xs ++ z :: ys ↔ pattern <:+: xs ∨ pattern <:+: ys := by
  have sides := @find_append_separator pattern xs ys z nonempty absent
  rw [← not_iff_not, ← find_eq_none_iff nonempty, sides, Option.or_eq_none_iff, Option.map_eq_none_iff,
    find_eq_none_iff nonempty, find_eq_none_iff nonempty, not_or]

/-- What cannot begin the pattern is passed by. -/
theorem find_append_of_not_head {c : Char} {cs : Text} (other : c ∉ xs) :
    find (c :: cs) (xs ++ ys) = (find (c :: cs) ys).map (· + xs.length) := by
  induction xs with
  | nil => simp
  | cons x rest ih =>
    obtain ⟨different, others⟩ := not_or.mp (mt List.mem_cons.mpr other)
    rw [List.cons_append, find, List.isPrefixOf_cons_cons, beq_false_of_ne different, Bool.false_and,
      if_neg Bool.false_ne_true, ih others, Option.map_map]
    exact congrArg (fun f => Option.map f _) (funext fun i => Nat.add_assoc ..)

end Occurrences

section Trimmed
variable {t : Text}

theorem trim_cons_visible {c : Char} {rest : Text} (shown : trim t = c :: rest) : isWhitespace c = false := by
  by_contra blank
  have again := trim_trim t
  rw [shown, trim, trimStart, List.dropWhile_cons_of_pos (by simpa using blank)] at again
  obtain ⟨spaces, split, -⟩ := trimEnd_split (rest.dropWhile isWhitespace)
  have dropped := (List.dropWhile_suffix isWhitespace (l := rest)).length_le
  have lengths := congrArg List.length split
  rw [again, List.length_append, List.length_cons] at lengths
  omega

theorem trim_inside (t : Text) : trim t <:+: t := by
  obtain ⟨back, split, -⟩ := trim_split t
  exact ⟨_, back, split.symm⟩

theorem trim_length_le (t : Text) : (trim t).length ≤ t.length := (trim_inside t).length_le

theorem trim_cons_blank {c : Char} (blank : isWhitespace c = true) : trim (c :: t) = trim t := by
  rw [trim, trimStart, List.dropWhile_cons_of_pos blank]
  rfl

theorem trim_concat_blank {c : Char} (blank : isWhitespace c = true) : trim (t ++ [c]) = trim t := by
  by_cases spaces : ∀ d ∈ t, isWhitespace d = true
  · have whole : ∀ d ∈ t ++ [c], isWhitespace d = true := by
      simpa [or_imp, forall_and, blank] using spaces
    rw [trim, trim, trimStart, trimStart, List.dropWhile_eq_nil_iff.mpr whole, List.dropWhile_eq_nil_iff.mpr spaces]
  · have started : ¬ (t.dropWhile isWhitespace).isEmpty = true :=
      mt List.isEmpty_iff.mp (mt List.dropWhile_eq_nil_iff.mp spaces)
    rw [trim, trim, trimStart, List.dropWhile_append, if_neg started, trimEnd, List.rdropWhile_concat_pos _ _ _ blank]
    rfl

theorem trim_stripReturn (line : Text) : trim (stripReturn line) = trim line := by
  unfold stripReturn
  split
  · next ends =>
    obtain ⟨body, rfl⟩ := List.getLast?_eq_some_iff.mp ends
    rw [List.dropLast_concat, trim_concat_blank (by decide)]
  · rfl

theorem trim_ne_nil {c : Char} (member : c ∈ t) (visible : isWhitespace c = false) : trim t ≠ [] := by
  intro blank
  obtain ⟨back, split, spaces⟩ := trim_split t
  rw [blank, List.append_nil] at split
  rw [split, List.mem_append] at member
  rcases member with front | behind
  · exact Bool.false_ne_true (visible.symm.trans (List.mem_takeWhile_imp front))
  · exact Bool.false_ne_true (visible.symm.trans (List.all_eq_true.mp spaces c behind))

/-- A pattern whose two ends are visible is not trimmed away. -/
theorem infix_trim {pattern front rest : Text} {c d : Char} (starts : pattern = c :: rest) (ends : pattern = front ++ [d])
    (visibleStart : isWhitespace c = false) (visibleEnd : isWhitespace d = false) :
    pattern <:+: trim t ↔ pattern <:+: t := by
  refine ⟨fun inside => inside.trans (trim_inside t), ?_⟩
  rintro ⟨before, after, rfl⟩
  have started : trimStart (before ++ pattern ++ after) =
      before.dropWhile isWhitespace ++ pattern ++ after := by
    rw [trimStart, List.append_assoc, List.dropWhile_append]
    split
    · next blank =>
      rw [starts, List.cons_append, List.dropWhile_cons_of_neg (by simp [visibleStart]), List.isEmpty_iff.mp blank]
      rfl
    · rw [List.append_assoc]
  have ended : trimEnd (before.dropWhile isWhitespace ++ pattern ++ after) =
      before.dropWhile isWhitespace ++ pattern ++ after.rdropWhile isWhitespace := by
    rw [trimEnd, List.rdropWhile, List.rdropWhile, List.reverse_append, List.dropWhile_append]
    split
    · next blank =>
      rw [List.isEmpty_iff.mp blank, ends, ← List.append_assoc, List.reverse_concat,
        List.dropWhile_cons_of_neg (by simp [visibleEnd])]
      simp
    · rw [List.reverse_append, List.reverse_reverse]
  exact ⟨before.dropWhile isWhitespace, after.rdropWhile isWhitespace, by rw [trim, started, ended]⟩

end Trimmed

section Lines
variable {line rest : Text}

theorem linesFrom_line (current : Text) (single : '\n' ∉ line) :
    linesFrom current (line ++ '\n' :: rest) = stripReturn (current ++ line) :: lines rest := by
  induction line generalizing current with
  | nil => rw [List.nil_append, List.append_nil, linesFrom, if_pos rfl, lines]
  | cons c others ih =>
    obtain ⟨different, single⟩ := not_or.mp (mt List.mem_cons.mpr single)
    rw [List.cons_append, linesFrom, if_neg (Ne.symm different), ih _ single, List.append_assoc, List.singleton_append]

/-- A text without a newline is the first line of what follows it. -/
theorem lines_cons (single : '\n' ∉ line) : lines (line ++ '\n' :: rest) = stripReturn line :: lines rest :=
  linesFrom_line [] single

theorem join_append (separator : Text) {ts us : List Text} (left : ts ≠ []) (right : us ≠ []) :
    join separator (ts ++ us) = join separator ts ++ (separator ++ join separator us) := by
  induction ts with
  | nil => exact absurd rfl left
  | cons t others ih =>
    cases others with
    | nil =>
      obtain ⟨u, more, rfl⟩ := List.exists_cons_of_ne_nil right
      exact join_cons_cons separator t u more
    | cons other others =>
      rw [List.cons_append, List.cons_append, join_cons_cons, ← List.cons_append, ih (List.cons_ne_nil _ _), join_cons_cons,
        List.append_assoc, List.append_assoc]

/-- A part that was joined already may as well have been joined with the others. -/
theorem join_joined (separator : Text) {ts us vs : List Text} (nonempty : us ≠ []) :
    join separator (ts ++ join separator us :: vs) = join separator (ts ++ (us ++ vs)) := by
  have after : join separator (join separator us :: vs) = join separator (us ++ vs) := by
    cases vs with
    | nil => rw [List.append_nil, join_singleton]
    | cons v others => rw [join_append separator nonempty (List.cons_ne_nil _ _), join_cons_cons]
  cases ts with
  | nil => exact after
  | cons t others =>
    rw [join_append separator (List.cons_ne_nil _ _) (List.cons_ne_nil _ _),
      join_append separator (List.cons_ne_nil _ _) (List.append_ne_nil_of_left_ne_nil nonempty vs), after]

theorem stripReturn_concat {c : Char} (other : c ≠ '\r') : stripReturn (line ++ [c]) = line ++ [c] := by
  rw [stripReturn, List.getLast?_concat, if_neg fun same => other (Option.some.inj same)]

theorem stripReturn_append (nonempty : rest ≠ []) : stripReturn (line ++ rest) = line ++ stripReturn rest := by
  rw [stripReturn, stripReturn, List.getLast?_append_of_ne_nil _ nonempty, List.dropLast_append_of_ne_nil nonempty]
  split <;> rfl

end Lines

end TextSearch
