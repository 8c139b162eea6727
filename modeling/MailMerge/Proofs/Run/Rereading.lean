import MailMerge.Proofs.Template.Rereading
import MailMerge.Proofs.Tree.Files

/-!
# Reading again what was written

A task that writes the file of a row by itself comes to its end, and then the file holds the lines of
the template, filled, one behind the other (`run_writeTemporary`).  Read again it has the lines that
were written, each with the ending of its line in the template, apart from a last line of which
nothing is left and from line feeds that a carriage return has come to stand before
(`lines_writeTemporary`).  Both exceptions do occur (`writeTemporary_vanishing`).
-/

namespace MailMerge

set_option autoImplicit false

namespace Run

variable {template temporary : Path} {row : Row} {world : World}

/-! ## Writing a file alone -/

/-- The lines of a template are written, filled, to the end of a file. -/
theorem run_writeLines (template : Path) (row : Row) (all : List Template.Line)
    (going : world.cancelled = false) {written : Bytes}
    (there : world.tree.read temporary = .ok written) : ∃ after : World,
      (writeLines template row temporary (all.map .ok)).run world = (.ok (), after) ∧
        after.tree.read temporary =
          .ok (written ++ (all.map (Template.Line.fill row)).flatMap Template.Line.bytes) := by
  induction all generalizing world written with
  | nil =>
    have asked : Task.isCancelled.run world = (false, world) := going ▸ rfl
    refine ⟨world, ?_, by simpa using there⟩
    rw [List.map_nil, writeLines, Task.run_bind, asked]
    rfl
  | cons line all ih =>
    have asked : Task.isCancelled.run world = (false, world) := going ▸ rfl
    obtain ⟨next, appended, still, held⟩ := Task.run_append there (line.fill row).bytes
    obtain ⟨after, ran, whole⟩ := ih (still.trans going) held
    refine ⟨after, ?_, ?_⟩
    · rw [List.map_cons, writeLines, Task.run_bind, asked]
      simp only [Bool.false_eq_true, if_false, Task.run_bind, appended, ran]
    · rw [whole, List.map_cons, List.flatMap_cons, List.append_assoc]

/-- The file of a row holds the lines of the template, filled. -/
theorem run_writeTemporary (row : Row) {all : List Template.Line} {content : Bytes} {tree : FileTree}
    (same : Template.lines content = all.map .ok) (going : world.cancelled = false)
    (there : world.tree.read template = .ok content)
    (created : world.tree.create temporary = .ok tree)
    (apart : world.tree.target temporary ≠ world.tree.target template) : ∃ after : World,
      (writeTemporary template row temporary).run world = (.ok (), after) ∧
        after.tree.read temporary =
          .ok ((all.map (Template.Line.fill row)).flatMap Template.Line.bytes) := by
  have empty : ({ world with tree } : World).tree.read temporary = .ok [] :=
    FileTree.read_create created
  have still : ({ world with tree } : World).tree.read template = .ok content :=
    FileTree.read_create_of_ne created there apart
  have uncancelled : ({ world with tree } : World).cancelled = false := going
  obtain ⟨after, ran, whole⟩ := run_writeLines template row all uncancelled empty
  refine ⟨after, ?_, whole⟩
  rw [writeTemporary, Task.run_bind, Task.run_kind there]
  simp only [Task.run_bind, Task.run_create created, Task.run_read still, same, ran]

/-! ## Reading it again -/

/-- If no value has a line feed in it, the file of a row, read again, has the lines of the template,
filled, each with its own ending, apart from a line without an ending of which nothing is left, and
from line feeds that a carriage return has come to stand before.  It has all of them exactly as they
were written if there is none of this kind. -/
theorem lines_writeTemporary {tree : FileTree} {text : String}
    (values : ∀ field ∈ row.fields, '\n' ∉ field.2.toList) (going : world.cancelled = false)
    (there : world.tree.read template = .ok (utf8 text))
    (created : world.tree.create temporary = .ok tree)
    (apart : world.tree.target temporary ≠ world.tree.target template) :
    ∃ (all : List Template.Line) (after : World) (octets : Bytes),
      Template.lines (utf8 text) = all.map .ok ∧
        (writeTemporary template row temporary).run world = (.ok (), after) ∧
        after.tree.read temporary = .ok octets ∧
        Template.lines octets =
          ((all.map (Template.Line.fill row)).filterMap Template.Line.reread?).map .ok ∧
        (Template.lines octets = (all.map (Template.Line.fill row)).map .ok ↔
          ∀ line ∈ all, (line.fill row).IsProper) := by
  obtain ⟨all, same, -, proper⟩ := Template.exists_lines_of_text text
  obtain ⟨after, ran, whole⟩ := run_writeTemporary row same going there created apart
  exact ⟨all, after, _, same, ran, whole, Template.lines_filled values proper,
    Template.lines_filled_iff proper⟩

end Run

/-- A world with nothing in it but a template. -/
def World.holding (text : String) : World := { tree := ⟨[([utf8 "pattern"], .file (utf8 text))], []⟩ }

namespace Run

/-- A value that brings a token, a carriage return that comes to stand before a line feed, and a last
line of which nothing is left. -/
theorem lines_writeTemporary_mixed :
    (∀ field ∈ (Row.ofPairs [("A", "x{{B}}"), ("B", "")]).fields, '\n' ∉ field.2.toList) ∧
      ∃ (after : World) (octets : Bytes),
        (writeTemporary ⟨utf8 "pattern"⟩ (.ofPairs [("A", "x{{B}}"), ("B", "")])
          ⟨utf8 "file"⟩).run (.holding "{{A}},\r\n\r{{B}}\n{{B}}") = (.ok (), after) ∧
        after.tree.read ⟨utf8 "file"⟩ = .ok octets ∧
        Template.lines octets = [.ok ⟨"x,", .crlf⟩, .ok ⟨"", .crlf⟩] := by
  have values : ∀ field ∈ (Row.ofPairs [("A", "x{{B}}"), ("B", "")]).fields,
      '\n' ∉ field.2.toList := by decide +kernel
  have found : Template.lines (utf8 "{{A}},\r\n\r{{B}}\n{{B}}") =
      [⟨"{{A}},", .crlf⟩, ⟨"\r{{B}}", .lf⟩, ⟨"{{B}}", .none⟩].map Except.ok := by decide +kernel
  obtain ⟨all, after, octets, same, ran, held, read, -⟩ :=
    @lines_writeTemporary ⟨utf8 "pattern"⟩ ⟨utf8 "file"⟩ (.ofPairs [("A", "x{{B}}"), ("B", "")])
      (.holding "{{A}},\r\n\r{{B}}\n{{B}}") _ "{{A}},\r\n\r{{B}}\n{{B}}" values rfl
      (by decide +kernel) rfl (by decide +kernel)
  obtain rfl : [⟨"{{A}},", .crlf⟩, ⟨"\r{{B}}", .lf⟩, ⟨"{{B}}", .none⟩] = all :=
    (List.map_inj_right fun _ _ => Except.ok.inj).1 (found.symm.trans same)
  exact ⟨values, after, octets, ran, held, read.trans (by decide +kernel)⟩

/-- The lines of a text are found, filled, in the file that a row makes of it. -/
def KeepsLines (row : Row) (text : String) : Prop :=
  ∀ (all : List Template.Line) (after : World) (octets : Bytes),
    Template.lines (utf8 text) = all.map .ok →
    (writeTemporary ⟨utf8 "pattern"⟩ row ⟨utf8 "file"⟩).run (.holding text) = (.ok (), after) →
    after.tree.read ⟨utf8 "file"⟩ = .ok octets →
    Template.lines octets = (all.map (Template.Line.fill row)).map .ok

/-- If the lines of a text are found, then each of them, filled, is as lines are cut. -/
theorem KeepsLines.isProper {row : Row} {text : String} (keeps : KeepsLines row text)
    {all : List Template.Line} (same : Template.lines (utf8 text) = all.map .ok)
    {tree : FileTree} (created : (World.holding text).tree.create ⟨utf8 "file"⟩ = .ok tree) :
    ∀ line ∈ all, (line.fill row).IsProper := by
  have there : (World.holding text).tree.read ⟨utf8 "pattern"⟩ = .ok (utf8 text) := rfl
  have apart : (World.holding text).tree.target ⟨utf8 "file"⟩ ≠
      (World.holding text).tree.target ⟨utf8 "pattern"⟩ := by
    have first : (World.holding text).tree.target ⟨utf8 "file"⟩ =
        .ok (.place [utf8 "file"] false) := rfl
    have second : (World.holding text).tree.target ⟨utf8 "pattern"⟩ =
        .ok (.place [utf8 "pattern"] false) := rfl
    rw [first, second]
    decide
  obtain ⟨after, ran, whole⟩ := run_writeTemporary row same rfl there created apart
  obtain ⟨-, proper⟩ := Template.lines_eq_ok_iff.1 same
  exact (Template.lines_filled_iff proper).1 (keeps all after _ same ran whole)

/-- It is not enough that no value has a carriage return or a line feed in it.  A last line of which
nothing is left is not found; and even if the text ends with a line feed, an empty value can bring a
carriage return of the template before a line feed. -/
theorem writeTemporary_vanishing :
    (¬ ∀ (row : Row) (text : String),
      (∀ field ∈ row.fields, '\r' ∉ field.2.toList ∧ '\n' ∉ field.2.toList) →
        KeepsLines row text) ∧
    ¬ ∀ (row : Row) (text : String),
      (∀ field ∈ row.fields, '\r' ∉ field.2.toList ∧ '\n' ∉ field.2.toList) →
        text.toList.getLast? = some '\n' → KeepsLines row text := by
  have values : ∀ field ∈ (Row.ofPairs [("A", "")]).fields,
      '\r' ∉ field.2.toList ∧ '\n' ∉ field.2.toList := by decide +kernel
  constructor
  · intro claim
    have same : Template.lines (utf8 "{{A}}") = [⟨"{{A}}", .none⟩].map Except.ok := by
      decide +kernel
    have proper := (claim _ "{{A}}" values).isProper same rfl _ List.mem_cons_self
    exact proper.nonempty rfl (by decide +kernel)
  · intro claim
    have same : Template.lines (utf8 "\r{{A}}\n") = [⟨"\r{{A}}", .lf⟩].map Except.ok := by
      decide +kernel
    have last : "\r{{A}}\n".toList.getLast? = some '\n' := by decide +kernel
    have proper := (claim _ "\r{{A}}\n" values last).isProper same rfl _ List.mem_cons_self
    exact proper.noReturn rfl (by decide +kernel)

end Run

end MailMerge
