import PmKonstruct.Forms.EtoNote
import PmKonstruct.Jobs.JobStore
import PmKonstruct.Library.TextSearch

/- The number and the raiser of an extra to order, read back out of the note that was written. -/
namespace EtoReading
open PlainText DecimalText DomainErrors TextSearch EtoNote
open CalendarDate (padded)

/-- What the number is cut off at. -/
def dash : Text := text " — "

def numberOn (line : Text) : Option Text := do
  let rest ← stripPrefix (text "ETO ") line
  let (number, _) ← splitAtText dash rest
  if trim number = [] then none else some (trim number)

def raiserOn (line : Text) : Option Text := do
  let rest ← stripPrefix (text "Raised by:") line
  if trim rest = [] then none else some (trim rest)

theorem parseEtoNumber_eq (content : Text) (note : DiaryNoteId) :
    parseEtoNumber content note = ((lines content).filterMap numberOn).head?.getD (text "ETO-" ++ decimal note) := rfl

theorem parseEtoRaisedBy_eq (content : Text) : parseEtoRaisedBy content = ((lines content).filterMap raiserOn).head? := rfl

theorem stripPrefix_append (pattern t : Text) : stripPrefix pattern (pattern ++ t) = some t := by
  rw [stripPrefix, if_pos (List.isPrefixOf_iff_prefix.mpr (List.prefix_append _ _)), List.drop_left]

/- The written number: the job's own, a hyphen and digits. -/

theorem padded_mem {width : Nat} {n : Int} {c : Char} (member : c ∈ padded width n) : c = '-' ∨ c.isDigit = true := by
  rcases List.mem_append.mp member with zero | digit
  · exact .inr (by rw [List.eq_of_mem_replicate zero]; decide)
  · exact mem_decimal digit

theorem numeral_visible {c : Char} (numeral : c = '-' ∨ c.isDigit = true) :
    isWhitespace c = false ∧ c ≠ ' ' ∧ c ≠ '\n' ∧ c ≠ '\r' := by
  have visible : isWhitespace c = false := by
    rcases numeral with rfl | digit
    · decide
    · have bounds : 48 ≤ c.toNat ∧ c.toNat ≤ 57 := by
        simpa [Char.isDigit, UInt32.le_iff_toNat_le] using digit
      by_contra blank
      simp only [isWhitespace, Bool.not_eq_false, Bool.or_eq_true, Bool.and_eq_true, decide_eq_true_eq, beq_iff_eq] at blank
      omega
  refine ⟨visible, ?_, ?_, ?_⟩ <;> rintro rfl <;> exact Bool.false_ne_true (visible.symm.trans (by decide))

theorem padded_split (n : Int) : ∃ front d, padded 2 n = front ++ [d] ∧ (d = '-' ∨ d.isDigit = true) := by
  have long : padded 2 n ≠ [] := by
    intro empty
    have short := congrArg List.length empty
    simp only [padded, List.length_append, List.length_replicate, List.length_nil] at short
    omega
  exact ⟨_, _, (List.dropLast_append_getLast long).symm, padded_mem (List.getLast_mem long)⟩

section Written
variable {jobNumber raisedBy : Text} {n : Int} {job : JobId} {header : JobHeader} {input : EtoInput} {note : DiaryNoteId}

theorem poNumber_given (nonblank : trim jobNumber ≠ []) :
    poNumber n jobNumber job = trim jobNumber ++ ('-' :: padded 2 n) := by
  rw [poNumber, if_neg nonblank]

theorem poNumber_single (nonblank : trim jobNumber ≠ []) (single : '\n' ∉ jobNumber) :
    '\n' ∉ poNumber n jobNumber job := by
  rw [poNumber_given nonblank]
  intro member
  rcases List.mem_append.mp member with given | counted
  · exact single ((trim_inside jobNumber).subset given)
  · rcases List.mem_cons.mp counted with hyphen | digit
    · exact absurd hyphen (by decide)
    · exact (numeral_visible (padded_mem digit)).2.2.1 rfl

theorem poNumber_trimmed (nonblank : trim jobNumber ≠ []) : trim (poNumber n jobNumber job) = poNumber n jobNumber job := by
  obtain ⟨c, rest, given⟩ := List.exists_cons_of_ne_nil nonblank
  obtain ⟨front, d, digits, numeral⟩ := padded_split n
  refine @trim_of_edges _ (trim jobNumber ++ ('-' :: front)) (rest ++ '-' :: padded 2 n) c d ?_ ?_
    (trim_cons_visible given) (numeral_visible numeral).1
  · rw [poNumber_given nonblank, given, List.cons_append]
  · rw [poNumber_given nonblank, digits, List.append_assoc, List.cons_append]

/-- Where the written number is cut: at the first dash of the job number, else at its end. -/
def cutAt (jobNumber : Text) (n : Int) (job : JobId) : Nat :=
  (find dash (trim jobNumber)).getD (poNumber n jobNumber job).length

theorem find_dash (nonblank : trim jobNumber ≠ []) (rest : Text) :
    find dash (poNumber n jobNumber job ++ (dash ++ rest)) = some (cutAt jobNumber n job) := by
  have digits : ' ' ∉ padded 2 n := fun member => (numeral_visible (padded_mem member)).2.1 rfl
  have past : find dash (padded 2 n ++ (dash ++ rest)) = some (padded 2 n).length := by
    have skipped := @find_append_of_not_head _ (dash ++ rest) _ (text "— ") digits
    rw [show ' ' :: text "— " = dash from rfl, find_self_append] at skipped
    rw [skipped, Option.map_some, Nat.zero_add]
  have apart : find dash (poNumber n jobNumber job ++ (dash ++ rest)) =
      (find dash (trim jobNumber)).or (some ((padded 2 n).length + ((trim jobNumber).length + 1))) := by
    rw [poNumber_given nonblank, List.append_assoc, List.cons_append, find_append_separator (by decide) (by decide), past]
    rfl
  have lengths : (poNumber n jobNumber job).length = (padded 2 n).length + ((trim jobNumber).length + 1) := by
    rw [poNumber_given nonblank, List.length_append, List.length_cons]
    omega
  rw [apart, ← lengths, cutAt]
  cases find dash (trim jobNumber) <;> rfl

theorem cutAt_le (nonblank : trim jobNumber ≠ []) : cutAt jobNumber n job ≤ (poNumber n jobNumber job).length := by
  rw [cutAt]
  cases found : find dash (trim jobNumber) with
  | none => exact Nat.le_refl _
  | some i =>
    have within := find_some_le found
    rw [poNumber_given nonblank, List.length_append, Option.getD_some]
    omega

theorem cutAt_eq_length_iff (nonblank : trim jobNumber ≠ []) :
    cutAt jobNumber n job = (poNumber n jobNumber job).length ↔ ¬ dash <:+: trim jobNumber := by
  rw [← find_eq_none_iff (by decide), cutAt]
  cases found : find dash (trim jobNumber) with
  | none => simp
  | some i =>
    have within := find_some_le found
    rw [poNumber_given nonblank, List.length_append, List.length_cons, Option.getD_some]
    simp only [reduceCtorEq, iff_false]
    omega

/-- Something visible is left of it, for the number begins with its first visible character. -/
theorem cut_visible (nonblank : trim jobNumber ≠ []) :
    trim ((poNumber n jobNumber job).take (cutAt jobNumber n job)) ≠ [] := by
  obtain ⟨c, rest, given⟩ := List.exists_cons_of_ne_nil nonblank
  have visible := trim_cons_visible given
  have started : ∃ more, poNumber n jobNumber job = c :: more := ⟨_, by rw [poNumber_given nonblank, given]; rfl⟩
  obtain ⟨more, started⟩ := started
  have positive : cutAt jobNumber n job ≠ 0 := by
    rw [cutAt]
    intro zero
    cases found : find dash (trim jobNumber) with
    | none => simp [found, started] at zero
    | some i =>
      have first := find_some_prefix found
      rw [found, Option.getD_some] at zero
      rw [zero, List.drop_zero, given, show dash = ' ' :: text "— " from rfl, List.cons_prefix_cons] at first
      exact Bool.false_ne_true (visible.symm.trans (first.1 ▸ by decide))
  obtain ⟨k, below⟩ := Nat.exists_eq_succ_of_ne_zero positive
  refine trim_ne_nil (c := c) ?_ visible
  rw [below, started, List.take_succ_cons]
  exact List.mem_cons_self

theorem numberOn_banner (nonblank : trim jobNumber ≠ []) :
    numberOn (text "ETO " ++ poNumber n jobNumber job ++ text " — EXTRA TO ORDER") =
      some (trim ((poNumber n jobNumber job).take (cutAt jobNumber n job))) := by
  have banner : text "ETO " ++ poNumber n jobNumber job ++ text " — EXTRA TO ORDER" =
      text "ETO " ++ (poNumber n jobNumber job ++ (dash ++ text "EXTRA TO ORDER")) := List.append_assoc ..
  have cut : splitAtText dash (poNumber n jobNumber job ++ (dash ++ text "EXTRA TO ORDER")) =
      some ((poNumber n jobNumber job).take (cutAt jobNumber n job),
        (poNumber n jobNumber job ++ (dash ++ text "EXTRA TO ORDER")).drop (cutAt jobNumber n job + dash.length)) := by
    rw [splitAtText, find_dash nonblank, Option.map_some, List.take_append_of_le_length (cutAt_le nonblank)]
  rw [banner, numberOn, stripPrefix_append, Option.bind_eq_bind, Option.bind_some, cut, Option.bind_eq_bind,
    Option.bind_some]
  exact if_neg (cut_visible nonblank)

/-- The first lines of the note. -/
theorem note_lines (nonblank : trim jobNumber ≠ []) (single : '\n' ∉ jobNumber) (singleName : '\n' ∉ raisedBy) :
    ∃ rest, lines (etoNote (poNumber n jobNumber job) raisedBy header input) =
      (text "ETO " ++ poNumber n jobNumber job ++ text " — EXTRA TO ORDER") ::
      (text "PURCHASE ORDER: " ++ poNumber n jobNumber job) :: stripReturn (text "Raised by: " ++ raisedBy) :: rest := by
  have number := @poNumber_single jobNumber n job nonblank single
  obtain ⟨front, d, digits, numeral⟩ := padded_split n
  have banner : '\n' ∉ text "ETO " ++ poNumber n jobNumber job ++ text " — EXTRA TO ORDER" := by
    simp only [List.mem_append, not_or]
    exact ⟨⟨by decide, number⟩, by decide⟩
  have order : '\n' ∉ text "PURCHASE ORDER: " ++ poNumber n jobNumber job := by
    simp only [List.mem_append, not_or]
    exact ⟨by decide, number⟩
  have raiser : '\n' ∉ text "Raised by: " ++ raisedBy := by
    simp only [List.mem_append, not_or]
    exact ⟨by decide, singleName⟩
  have bannerEnd : stripReturn (text "ETO " ++ poNumber n jobNumber job ++ text " — EXTRA TO ORDER") =
      text "ETO " ++ poNumber n jobNumber job ++ text " — EXTRA TO ORDER" := by
    rw [show text " — EXTRA TO ORDER" = text " — EXTRA TO ORDE" ++ ['R'] from rfl, ← List.append_assoc,
      stripReturn_concat (by decide)]
  have orderEnd : stripReturn (text "PURCHASE ORDER: " ++ poNumber n jobNumber job) =
      text "PURCHASE ORDER: " ++ poNumber n jobNumber job := by
    rw [poNumber_given nonblank, digits, ← List.cons_append, ← List.append_assoc, ← List.append_assoc,
      stripReturn_concat (numeral_visible numeral).2.2.2]
  rw [etoNote, join_cons_cons, List.singleton_append, lines_cons banner, join_cons_cons, List.singleton_append,
    lines_cons order, join_cons_cons, List.singleton_append, lines_cons raiser, bannerEnd, orderEnd]
  exact ⟨_, rfl⟩

theorem parseEtoNumber_etoNote (nonblank : trim jobNumber ≠ []) (single : '\n' ∉ jobNumber)
    (singleName : '\n' ∉ raisedBy) :
    parseEtoNumber (etoNote (poNumber n jobNumber job) raisedBy header input) note =
      trim ((poNumber n jobNumber job).take (cutAt jobNumber n job)) := by
  obtain ⟨rest, shown⟩ := @note_lines jobNumber raisedBy n job header input nonblank single singleName
  rw [parseEtoNumber_eq, shown, List.filterMap_cons_some (numberOn_banner nonblank), List.head?_cons, Option.getD_some]

theorem parseEtoRaisedBy_etoNote (nonblank : trim jobNumber ≠ []) (single : '\n' ∉ jobNumber)
    (named : trim raisedBy ≠ []) (singleName : '\n' ∉ raisedBy) :
    parseEtoRaisedBy (etoNote (poNumber n jobNumber job) raisedBy header input) = some (trim raisedBy) := by
  obtain ⟨rest, shown⟩ := @note_lines jobNumber raisedBy n job header input nonblank single singleName
  have banner : raiserOn (text "ETO " ++ poNumber n jobNumber job ++ text " — EXTRA TO ORDER") = none := rfl
  have order : raiserOn (text "PURCHASE ORDER: " ++ poNumber n jobNumber job) = none := rfl
  have returned : stripReturn (text "Raised by: " ++ raisedBy) = text "Raised by: " ++ stripReturn raisedBy :=
    stripReturn_append fun empty => named (by rw [empty]; rfl)
  have raiser : raiserOn (stripReturn (text "Raised by: " ++ raisedBy)) = some (trim raisedBy) := by
    rw [returned, show text "Raised by: " ++ stripReturn raisedBy = text "Raised by:" ++ ' ' :: stripReturn raisedBy from
      rfl, raiserOn, stripPrefix_append, Option.bind_eq_bind, Option.bind_some, trim_cons_blank (by decide),
      trim_stripReturn, if_neg named]
  rw [parseEtoRaisedBy_eq, shown, List.filterMap_cons_none banner, List.filterMap_cons_none order,
    List.filterMap_cons_some raiser, List.head?_cons]

end Written

/-- The number and the raiser of a written note are read back as they were exactly when the job number has no dash of its
    own. -/
theorem note_read_iff {jobNumber raisedBy : Text} (nonblank : trim jobNumber ≠ []) (single : '\n' ∉ jobNumber)
    (named : trim raisedBy ≠ []) (singleName : '\n' ∉ raisedBy) (n : Int) (job : JobId) (header : JobHeader)
    (input : EtoInput) (note : DiaryNoteId) :
    (parseEtoNumber (etoNote (poNumber n jobNumber job) raisedBy header input) note = poNumber n jobNumber job ∧
      parseEtoRaisedBy (etoNote (poNumber n jobNumber job) raisedBy header input) = some (trim raisedBy)) ↔
    ¬ dash <:+: trim jobNumber := by
  rw [parseEtoRaisedBy_etoNote nonblank single named singleName, parseEtoNumber_etoNote nonblank single singleName,
    ← @cutAt_eq_length_iff jobNumber n job nonblank]
  constructor
  · rintro ⟨same, -⟩
    have short := trim_length_le ((poNumber n jobNumber job).take (cutAt jobNumber n job))
    rw [same, List.length_take] at short
    have within := @cutAt_le jobNumber n job nonblank
    omega
  · intro whole
    exact ⟨by rw [whole, List.take_length, poNumber_trimmed nonblank], rfl⟩

/- Job 1 of the office is numbered A — B. -/

def dashedJob : JobStore.JobInput :=
  ⟨text "Smith Residence", text "A — B", text "Smith", none, none, text "12 Rose St", none, none, none, none, none, none,
    none, none, none, none⟩

def dashedHeader : JobHeader := ⟨text "A — B", text "Smith Residence", text "12 Rose St"⟩

def sampleInput : EtoInput := ⟨1, text "r", text "d"⟩

theorem dashed_number_cut : dashedJob.normalised.validate = .ok () ∧ sampleInput.validate = .ok () ∧
    parseEtoNumber (etoNote (poNumber 1 dashedJob.jobNumber 1) (text "Sarah") dashedHeader sampleInput) 55 = text "A" ∧
    parseEtoNumber (etoNote (poNumber 1 dashedJob.jobNumber 1) (text "Sarah") dashedHeader sampleInput) 55 ≠
      poNumber 1 dashedJob.jobNumber 1 := by
  decide +kernel

theorem sample_read :
    (parseEtoNumber (etoNote (poNumber 7 (text "J-100") 1) (text "Sarah") dashedHeader sampleInput) 55 =
        poNumber 7 (text "J-100") 1 ∧
      parseEtoRaisedBy (etoNote (poNumber 7 (text "J-100") 1) (text "Sarah") dashedHeader sampleInput) =
        some (trim (text "Sarah"))) ↔
    ¬ dash <:+: trim (text "J-100") :=
  note_read_iff (by decide) (by decide) (by decide) (by decide) 7 1 dashedHeader sampleInput 55

end EtoReading
