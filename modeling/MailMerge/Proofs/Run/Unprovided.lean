import MailMerge.Proofs.Run.Rereading
import MailMerge.Proofs.Template.Names
import MailMerge.Proofs.Template.Turns

/-!
# Placeholders that no row provides

Before the rows of a request are made there is a warning for each placeholder of the template that none
of them provides (`notices_noteUnprovided`).  The placeholders are looked for in the whole text,
whereas the files are made line by line, so the question is whether the two see the same ones.

They do, as far as a placeholder can stand in a line: the names without line feeds are found alike and
in the same order, and what is warned about is what no row provides.  A placeholder that a row provides
is filled in wherever it stands, unless an earlier field of that row has it in its own token and takes
it along (`noteUnprovided_lines`).  A name with a line feed is looked for in the text and filled in
nowhere, and some braces in another name are enough to lose a placeholder that is not warned about
(`noteUnprovided_unseen`).
-/

namespace MailMerge.Run

set_option autoImplicit false

open Template (Line Unbraced token)

variable {request : Request} {world : World} {text : String}

/-! ## Warnings -/

theorem notices_noteAll (level : Journal.Level) (messages : List String) (world : World) :
    ((noteAll level messages).run world).2.notices =
      world.notices ++ messages.map fun message => ⟨level, message, none⟩ := by
  induction messages generalizing world with
  | nil => simp [noteAll]
  | cons message rest ih =>
    rw [noteAll, Task.run_bind, ih, List.map_cons, List.append_cons]
    rfl

theorem unprovidedNotice_inj {left right : String}
    (same : unprovidedNotice left = unprovidedNotice right) : left = right := by
  have whole := congrArg String.toList same
  simpa [unprovidedNotice, Template.placeholder, token, String.toList_inj] using whole

/-- The warnings about placeholders of the given names: if there are any rows, one for each that none
of them provides. -/
def warnings (rows : List Row) (names : List String) : List Journal.Notice :=
  if rows = [] then []
  else (unprovided rows names).map fun name => ⟨.warn, unprovidedNotice name, none⟩

theorem mem_warnings {rows : List Row} {names : List String} {name : String} :
    ⟨.warn, unprovidedNotice name, none⟩ ∈ warnings rows names ↔
      rows ≠ [] ∧ name ∈ names ∧ ∀ row ∈ rows, row.contains name = false := by
  have listed : name ∈ unprovided rows names ↔
      name ∈ names ∧ ∀ row ∈ rows, row.contains name = false := by
    simp [unprovided]
  unfold warnings
  split
  case isTrue empty => simp [empty]
  case isFalse some_ =>
    rw [← listed, List.mem_map]
    constructor
    · rintro ⟨other, member, same⟩
      obtain rfl := unprovidedNotice_inj (Journal.Notice.mk.inj same).2.1
      exact ⟨some_, member⟩
    · rintro ⟨-, member⟩
      exact ⟨name, member, rfl⟩

/-- The placeholders of a template that is a text. -/
theorem run_templatePlaceholders_of_text {path : Path}
    (there : world.tree.read path = .ok (utf8 text)) :
    (templatePlaceholders path).run world = (.ok (Template.placeholders text), world) := by
  simp [templatePlaceholders, Task.run_read there, utf8, Utf8.decode_encode]

/-- What is said about the placeholders of a template that is a text. -/
theorem notices_noteUnprovided (there : world.tree.read request.template = .ok (utf8 text)) :
    ((noteUnprovided request).run world).1 = .ok () ∧
      ((noteUnprovided request).run world).2.notices =
        world.notices ++ warnings request.rows (Template.placeholders text) := by
  rw [noteUnprovided, warnings]
  cases request.rows with
  | nil => simp
  | cons row rows => simp [run_templatePlaceholders_of_text there, notices_noteAll]

/-! ## Lines -/

/-- The placeholders of a template and its lines: the names without line feeds are those found in the
lines, in the same order; what is warned about is what no row provides; and a placeholder that a row
provides stands in a line and is filled in wherever no earlier field of the row takes it along, which
fields without braces in their names never do. -/
theorem noteUnprovided_lines (there : world.tree.read request.template = .ok (utf8 text)) :
    ∃ (all : List Line) (names : List String),
      Template.lines (utf8 text) = all.map .ok ∧
        (templatePlaceholders request.template).run world = (.ok names, world) ∧
        (all.flatMap fun line => Template.placeholders line.content).eraseDups =
          names.filter (fun name => '\n' ∉ name.toList) ∧
        ((noteUnprovided request).run world).2.notices =
          world.notices ++ warnings request.rows names ∧
        ∀ row ∈ request.rows, ∀ name ∈ names, row.contains name →
          ⟨.warn, unprovidedNotice name, none⟩ ∉ warnings request.rows names ∧
          ('\n' ∉ name.toList → (∃ line ∈ all, token name.toList <:+: line.content.toList) ∧
            ∀ line ∈ all, ((∀ field ∈ row.fields, Unbraced field.1) → line.Spares row name) ∧
              (line.Spares row name → line.Substitutes row name)) := by
  obtain ⟨all, same, whole, proper⟩ := Template.exists_lines_of_text text
  have found := Template.placeholders_flatMap proper
  rw [whole, String.ofList_toList] at found
  refine ⟨all, _, same, run_templatePlaceholders_of_text there, found,
    (notices_noteUnprovided there).2, ?_⟩
  intro row rowMember name member contained
  refine ⟨?_, ?_⟩
  · intro warned
    obtain ⟨-, -, none⟩ := mem_warnings.1 warned
    simp [none row rowMember] at contained
  · intro unbroken
    obtain ⟨-, unbraced, -⟩ := Template.mem_placeholders.1 member
    have inLines : name ∈ (all.flatMap fun line => Template.placeholders line.content).eraseDups := by
      rw [found, List.mem_filter]
      exact ⟨member, decide_eq_true unbroken⟩
    obtain ⟨line, lineMember, inLine⟩ := List.mem_flatMap.1 (List.mem_eraseDups.1 inLines)
    refine ⟨⟨line, lineMember, (Template.mem_placeholders.1 inLine).2.2⟩, ?_⟩
    intro line _
    refine ⟨fun plain => line.spares_of_unbraced plain, fun spared => ?_⟩
    exact Line.substitutes_of_spares unbraced contained spared

/-- A name without a field, another one with a line feed, and a value with a token in it. -/
theorem noteUnprovided_lines_mixed :
    (World.holding "{{a}}\r\n{{c}} \x7b\x7ba\n\x7d\x7d{{b}}").tree.read ⟨utf8 "pattern"⟩ =
        .ok (utf8 "{{a}}\r\n{{c}} \x7b\x7ba\n\x7d\x7d{{b}}") ∧
      ((noteUnprovided ⟨⟨utf8 "pattern"⟩, [.ofPairs [("a", "{{b}}"), ("b", "")]],
        .fromRecord, none, .continue, .overwrite, 1⟩).run
          (.holding "{{a}}\r\n{{c}} \x7b\x7ba\n\x7d\x7d{{b}}")).2.notices =
        [⟨.warn, unprovidedNotice "c", none⟩, ⟨.warn, unprovidedNotice "a\n", none⟩] ∧
      (⟨"{{a}}", .crlf⟩ : Line).Substitutes (.ofPairs [("a", "{{b}}"), ("b", "")]) "a" := by
  have there : (World.holding "{{a}}\r\n{{c}} \x7b\x7ba\n\x7d\x7d{{b}}").tree.read
      ⟨utf8 "pattern"⟩ = .ok (utf8 "{{a}}\r\n{{c}} \x7b\x7ba\n\x7d\x7d{{b}}") := rfl
  have lines : Template.lines (utf8 "{{a}}\r\n{{c}} \x7b\x7ba\n\x7d\x7d{{b}}") =
      [⟨"{{a}}", .crlf⟩, ⟨"{{c}} \x7b\x7ba", .lf⟩, ⟨"\x7d\x7d{{b}}", .none⟩].map Except.ok := by
    decide +kernel
  have plain : ∀ field ∈ (Row.ofPairs [("a", "{{b}}"), ("b", "")]).fields, Unbraced field.1 := by
    decide +kernel
  obtain ⟨all, names, same, asked, found, noted, each⟩ := @noteUnprovided_lines
    ⟨⟨utf8 "pattern"⟩, [.ofPairs [("a", "{{b}}"), ("b", "")]], .fromRecord, none, .continue,
      .overwrite, 1⟩ _ _ there
  obtain rfl := (List.map_inj_right fun _ _ => Except.ok.inj).1 (lines.symm.trans same)
  obtain rfl : Template.placeholders "{{a}}\r\n{{c}} \x7b\x7ba\n\x7d\x7d{{b}}" = names := by
    rw [run_templatePlaceholders_of_text there] at asked
    exact Except.ok.inj (Prod.mk.inj asked).1
  refine ⟨there, noted.trans (by decide +kernel), ?_⟩
  have filled := (each _ List.mem_cons_self "a" (by decide +kernel) (by decide +kernel)).2
    (by decide)
  obtain ⟨spares, substitutes⟩ := filled.2 _ List.mem_cons_self
  exact substitutes (spares plain)

/-- A text may have a placeholder that none of its lines has.  And a placeholder that a row provides
may be lost on the only line where it stands, because a field before its own has braces in its name. -/
theorem noteUnprovided_unseen :
    (¬ ∀ (text : String) (all : List Line), Template.lines (utf8 text) = all.map .ok →
      Template.placeholders text =
        (all.flatMap fun line => Template.placeholders line.content).eraseDups) ∧
    ¬ ∀ (row : Row) (name text : String) (all : List Line),
      Template.lines (utf8 text) = all.map .ok → name ∈ Template.placeholders text →
        row.contains name →
          ∃ line ∈ all, token name.toList <:+: line.content.toList ∧ line.Substitutes row name := by
  constructor
  · intro claim
    have lines : Template.lines (utf8 "\x7b\x7ba\nb\x7d\x7d") =
        [⟨"\x7b\x7ba", .lf⟩, ⟨"b\x7d\x7d", .none⟩].map Except.ok := by decide +kernel
    exact absurd (claim _ _ lines) (by decide +kernel)
  · intro claim
    have lines : Template.lines (utf8 "{{x}}{{z}}") = [⟨"{{x}}{{z}}", .none⟩].map Except.ok := by
      decide +kernel
    have fields : (Row.ofPairs [("z", "v"), ("x\x7d\x7d\x7b\x7bz", "")]).fields =
        [("x\x7d\x7d\x7b\x7bz", ""), ("z", "v")] := by decide +kernel
    obtain ⟨line, member, -, earlier, value, later, split, filled⟩ :=
      claim (.ofPairs [("z", "v"), ("x\x7d\x7d\x7b\x7bz", "")]) "z" "{{x}}{{z}}" _ lines
        (by decide +kernel) (by decide +kernel)
    obtain rfl := List.mem_singleton.1 member
    have whole := filled "{{x}}".toList [] (by decide +kernel)
    rw [fields] at split
    rcases earlier with _ | ⟨first, _ | ⟨second, more⟩⟩
    · simp at split
    · obtain ⟨rfl, ⟨-, rfl⟩, rfl⟩ : first = ("x\x7d\x7d\x7b\x7bz", "") ∧
          ("z", value) = ("z", "v") ∧ later = [] := by
        simpa [eq_comm] using split
      exact absurd whole (by decide +kernel)
    · simp at split

end MailMerge.Run
