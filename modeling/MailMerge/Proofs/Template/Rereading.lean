import MailMerge.Proofs.Template.OnePass
import MailMerge.Proofs.Template.Reading

/-!
# Reading filled lines again

A filled line keeps the ending that it has in the template, and a value without line feeds does not
break a line in two.  So one expects to find in the file, line by line, what was written to it.  Two
kinds of lines are not found again as they were written (`Line.reread?`).  If nothing is left of a line
without an ending, then there is no such line, since without an ending a line is its content.  And a
carriage return that comes to stand directly before a line feed is read as part of the ending.  No
file could do better: it has no room for more than the characters of its lines.

All other lines are found as they were written (`lines_filled`), and the lines are exactly those that
were written if there is none of these two kinds among them (`lines_filled_iff`).
-/

namespace MailMerge.Template

set_option autoImplicit false

variable {row : Row} {line : Line} {all : List Line}

/-! ## Lines that were written -/

/-- What is read where a line was written: nothing if the line has neither content nor ending, and a
line with another ending if a carriage return stands before the line feed. -/
def Line.reread? (line : Line) : Option Line :=
  match line.ending with
  | .none => if line.content = "" then none else some line
  | .lf =>
    if line.content.toList.getLast? = some '\r' then
      some ⟨.ofList line.content.toList.dropLast, .crlf⟩
    else some line
  | .crlf => some line

/-- Where nothing is read, no character was written. -/
theorem chars_of_reread?_eq_none (blank : line.reread? = none) : line.chars = [] := by
  obtain ⟨content, ending⟩ := line
  cases ending with
  | none =>
    obtain rfl : content = "" := by simpa [Line.reread?] using blank
    rfl
  | lf =>
    simp only [Line.reread?] at blank
    split at blank <;> simp at blank
  | crlf => simp [Line.reread?] at blank

/-- What is read is a line as lines are cut, made up of the characters that were written. -/
theorem isProper_of_reread? (noFeed : '\n' ∉ line.content.toList) {read : Line}
    (found : line.reread? = some read) :
    read.IsProper ∧ read.chars = line.chars ∧ (read.ending = .none → line.ending = .none) := by
  obtain ⟨content, ending⟩ := line
  cases ending with
  | none =>
    simp only [Line.reread?] at found
    split at found
    case isTrue => simp at found
    case isFalse some_ =>
      obtain rfl := Option.some.inj found
      exact ⟨⟨noFeed, fun _ => some_, by simp⟩, rfl, fun _ => rfl⟩
  | lf =>
    simp only [Line.reread?] at found
    split at found
    case isTrue last =>
      obtain rfl := Option.some.inj found
      have whole := List.dropLast_append_getLast? '\r' last
      refine ⟨⟨?_, by simp, by simp⟩, ?_, by simp⟩
      · rw [String.toList_ofList]
        exact fun member => noFeed (List.dropLast_subset _ member)
      · simp only [Line.chars, String.toList_ofList, Ending.chars]
        rw [← List.singleton_append, ← List.append_assoc, whole]
    case isFalse other =>
      obtain rfl := Option.some.inj found
      exact ⟨⟨noFeed, by simp, fun _ => other⟩, rfl, by simp⟩
  | crlf =>
    obtain rfl := Option.some.inj found
    exact ⟨⟨noFeed, by simp, by simp⟩, rfl, by simp⟩

/-- Where some lines were written, the file goes on as they do, and the lines that are read are as
lines are cut. -/
theorem reread_lines (noFeed : ∀ line ∈ all, '\n' ∉ line.content.toList) (ended : Ended all) :
    (all.filterMap Line.reread?).flatMap Line.bytes = all.flatMap Line.bytes ∧
      AreProper (all.filterMap Line.reread?) := by
  induction all with
  | nil => exact ⟨rfl, areProper_nil⟩
  | cons line all ih =>
    obtain ⟨here, later⟩ := List.forall_mem_cons.1 noFeed
    obtain ⟨last, rest⟩ := ended_cons.1 ended
    obtain ⟨same, proper⟩ := ih later rest
    cases found : line.reread? with
    | none =>
      rw [List.filterMap_cons_none found, List.flatMap_cons, Line.bytes,
        chars_of_reread?_eq_none found]
      exact ⟨same, proper⟩
    | some read =>
      obtain ⟨first, chars, unended⟩ := isProper_of_reread? here found
      rw [List.filterMap_cons_some found, List.flatMap_cons, List.flatMap_cons, same, Line.bytes,
        Line.bytes, chars]
      refine ⟨rfl, areProper_cons.2 ⟨first, fun none => ?_, proper⟩⟩
      rw [last (unended none)]
      rfl

/-! ## Filled lines -/

theorem mem_foldl_replaceField {fields : List (String × String)} {text : List Char} {c : Char}
    (member : c ∈ fields.foldl replaceField text) :
    c ∈ text ∨ ∃ field ∈ fields, c ∈ field.2.toList := by
  induction fields generalizing text with
  | nil => exact .inl member
  | cons field fields ih =>
    rcases ih member with replaced | ⟨other, within, inserted⟩
    · rcases mem_replaceAll replaced with inserted | kept
      · exact .inr ⟨field, List.mem_cons_self, inserted⟩
      · exact .inl kept
    · exact .inr ⟨other, List.mem_cons_of_mem field within, inserted⟩

/-- Values without line feeds bring none into a line. -/
theorem feed_notMem_fill (values : ∀ field ∈ row.fields, '\n' ∉ field.2.toList)
    (noFeed : '\n' ∉ line.content.toList) : '\n' ∉ (line.fill row).content.toList := by
  rw [Line.fill, substitute, String.toList_ofList, fill_eq]
  intro member
  rcases mem_foldl_replaceField member with kept | ⟨field, within, inserted⟩
  · exact noFeed kept
  · exact values field within inserted

theorem ended_fill (row : Row) (ended : Ended all) : Ended (all.map (Line.fill row)) := by
  unfold Ended
  rw [← List.map_dropLast, List.forall_mem_map]
  exact ended

theorem feed_notMem_map_fill (values : ∀ field ∈ row.fields, '\n' ∉ field.2.toList)
    (proper : AreProper all) : ∀ line ∈ all.map (Line.fill row), '\n' ∉ line.content.toList := by
  rw [List.forall_mem_map]
  exact fun line member => feed_notMem_fill values (proper.proper line member).noFeed

/-- The filled lines of a text are found again, apart from the two kinds that are not. -/
theorem lines_filled (values : ∀ field ∈ row.fields, '\n' ∉ field.2.toList)
    (proper : AreProper all) :
    lines ((all.map (Line.fill row)).flatMap Line.bytes) =
      ((all.map (Line.fill row)).filterMap Line.reread?).map .ok :=
  lines_eq_ok_iff.2 (reread_lines (feed_notMem_map_fill values proper) (ended_fill row proper.ended))

/-- The filled lines of a text are found exactly as they were written if they are as lines are cut. -/
theorem lines_filled_iff (proper : AreProper all) :
    lines ((all.map (Line.fill row)).flatMap Line.bytes) = (all.map (Line.fill row)).map .ok ↔
      ∀ line ∈ all, (line.fill row).IsProper := by
  rw [lines_eq_ok_iff]
  constructor
  · rintro ⟨-, same⟩
    exact List.forall_mem_map.1 same.proper
  · intro each
    exact ⟨rfl, List.forall_mem_map.2 each, ended_fill row proper.ended⟩

end MailMerge.Template
