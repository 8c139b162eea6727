import MailMerge.Proofs.Confinement

/-!
# What files are named after

In fixed mode a file has the name of the template.  The name is taken apart and put together again, and
it comes out as it was wherever its dots stand, but it passes through text: a name that is none becomes
another one, and the destination is not the template (`resolve_templateName`).

A file has the extension of the template, or the text that stands in for it, if the template has one
(`extension?_of_resolve`).  If it has none, neither has the file in fixed mode.  A name from a row,
however, is used as it is, and what stands behind its last dot is then the extension of the file
(`resolve_withoutExtension`).
-/

namespace MailMerge

set_option autoImplicit false

namespace Destination

variable {template : Path} {name : Bytes}

/-! ## The template's name -/

/-- Entries of a directory are the same only if their names are. -/
theorem join_eq_iff (directory : Path) {left right : Bytes} (plain : Path.IsPlain left)
    (plain' : Path.IsPlain right) :
    directory.join ⟨left⟩ = directory.join ⟨right⟩ ↔ left = right := by
  constructor
  · intro same
    have names := congrArg Path.fileName? same
    rw [Path.fileName?_join directory plain, Path.fileName?_join directory plain'] at names
    exact Option.some.inj names
  · rintro rfl
    rfl

/-- In fixed mode the file of every row is an entry of the output directory or, without one, of the
directory of the template, and its name is what is written for the template's name.  This is the
template's name, and without an output directory the file is the template, exactly if the name is
text. -/
theorem resolve_templateName (named : template.fileName? = some name) (row : Row) (index : Nat) :
    (∃ parent, template.parent? = some parent ∧
      resolve template row .fixed none index = .ok (parent.join ⟨cleaned name⟩) ∧
      ((parent.join ⟨cleaned name⟩).components = template.components ↔
        Utf8.isText name = true)) ∧
    ∀ output : Path,
      resolve template row .fixed (some output) index = .ok (output.join ⟨cleaned name⟩) ∧
      (output.join ⟨cleaned name⟩ = output.join ⟨name⟩ ↔ Utf8.isText name = true) := by
  have plain := isPlain_fileName named
  have plain' := isPlain_cleaned plain
  obtain ⟨parent, above, whole⟩ := Path.exists_parent_of_fileName? named
  refine ⟨⟨parent, above, ?_, ?_⟩, fun output => ⟨resolve_of_fileName? named .., ?_⟩⟩
  · rw [resolve_of_fileName? named, directory, above]
    rfl
  · rw [whole, Path.components_join parent plain', List.append_cancel_left_eq, ← cleaned_eq_iff]
    simp
  · rw [join_eq_iff output plain' plain, cleaned_eq_iff]

/-- A template whose name begins with a dot, has several of them and ends in one, written with slashes
and a dot too many. -/
theorem resolve_templateName_dots :
    (Path.ofString "in//.t.tar./.").fileName? = some (utf8 ".t.tar.") ∧
      resolve (.ofString "in//.t.tar./.") (.ofPairs [("FileName", "x")]) .fixed none 3 =
        .ok (.ofString "in/.t.tar.") ∧
      (Path.ofString "in/.t.tar.").components = (Path.ofString "in//.t.tar./.").components ∧
      resolve (.ofString "in//.t.tar./.") .empty .fixed (some (.ofString "out/")) 0 =
        .ok (.ofString "out/.t.tar.") := by
  have named : (Path.ofString "in//.t.tar./.").fileName? = some (utf8 ".t.tar.") := by
    decide +kernel
  have above : (Path.ofString "in//.t.tar./.").parent? = some (.ofString "in") := by decide +kernel
  have text : Utf8.isText (utf8 ".t.tar.") = true := Utf8.isText_encode _
  have whole : cleaned (utf8 ".t.tar.") = utf8 ".t.tar." := cleaned_eq_iff.2 text
  obtain ⟨parent, above', resolved, same⟩ :=
    (resolve_templateName named (.ofPairs [("FileName", "x")]) 3).1
  obtain ⟨beside, kept⟩ := (resolve_templateName named .empty 0).2 (.ofString "out/")
  obtain rfl := Option.some.inj (above.symm.trans above')
  rw [whole] at resolved same
  exact ⟨named, resolved, same.2 text, beside.trans (congrArg _ (kept.2 text))⟩

/-- The name of the template is no text.  In fixed mode, without an output directory, its rows are
written to another file. -/
theorem resolve_foreignName :
    resolve ⟨0xFF :: utf8 ".txt"⟩ .empty .fixed none 0 = .ok (.ofString "\uFFFD.txt") ∧
      (Path.ofString "\uFFFD.txt").components ≠ (⟨0xFF :: utf8 ".txt"⟩ : Path).components := by
  decide +kernel

/-! ## The extension -/

/-- A dot stands behind the first octet of a text exactly if it stands behind its first character. -/
theorem dot_mem_tail_utf8 {text : String} :
    Path.dot ∈ (utf8 text).tail ↔ '.' ∈ text.toList.tail := by
  have inside {chars : List Char} : Path.dot ∈ Utf8.encode chars ↔ '.' ∈ chars :=
    Utf8.mem_encode_iff (by decide)
  unfold utf8
  cases text.toList with
  | nil => simp
  | cons c chars =>
    obtain ⟨b, more, first⟩ := List.exists_cons_of_ne_nil (Utf8.encodeChar_ne_nil c)
    have alone : Path.dot ∉ more := by
      intro member
      have single := Utf8.encodeChar_of_ascii_mem (first ▸ List.mem_cons_of_mem b member) (by decide)
      rw [first] at single
      obtain ⟨-, rfl⟩ := List.cons.inj single
      exact List.not_mem_nil member
    rw [Utf8.encode_cons, first, List.cons_append, List.tail_cons, List.tail_cons, List.mem_append,
      inside]
    tauto

/-- In fixed mode the name is what is written for the template's. -/
theorem exists_fileName_of_resolve {row : Row} {output : Option Path} {index : Nat} {path : Path}
    (resolved : resolve template row .fixed output index = .ok path) :
    ∃ name, template.fileName? = some name ∧ Path.IsPlain (cleaned name) ∧
      path = (directory template output).join ⟨cleaned name⟩ := by
  cases named : template.fileName? with
  | none => simp [resolve, baseName, Path.stem?, named] at resolved
  | some name =>
    rw [resolve_of_fileName? named] at resolved
    exact ⟨name, rfl, isPlain_cleaned (isPlain_fileName named), (Except.ok.inj resolved).symm⟩

theorem extension?_of_fixed {row : Row} {output : Option Path} {index : Nat} {path : Path}
    (resolved : resolve template row .fixed output index = .ok path) :
    path.extension? = template.extension?.map cleaned := by
  obtain ⟨name, named, plain, rfl⟩ := exists_fileName_of_resolve resolved
  obtain ⟨stem, extension, parts⟩ := Path.exists_parts name
  rw [Path.extension?_join _ plain parts.cleaned, Path.extension?, named, Option.bind_some,
    parts.splitName_eq]

/-- In the other mode the name is one that a field of the row holds. -/
theorem exists_chosen_of_resolve {row : Row} {output : Option Path} {index : Nat} {path : Path}
    (resolved : resolve template row .fromRecord output index = .ok path) :
    ∃ name : String, chosenName? row = some name ∧ Path.IsPlain (utf8 name) ∧
      path = (directory template output).join ⟨withExtension template (utf8 name)⟩ := by
  cases chosen : chosenName? row with
  | none => simp [resolve_of_unnamed chosen] at resolved
  | some name =>
    cases problem : nameProblem? name with
    | some problem => simp [resolve_of_problem chosen problem] at resolved
    | none =>
      rw [resolve_of_named chosen problem] at resolved
      exact ⟨name, rfl, isPlain_of_nameProblem? problem, (Except.ok.inj resolved).symm⟩

theorem parts_withExtension {extension base : Bytes}
    (there : template.extension? = some extension) (plain : Path.IsPlain base) :
    Path.Parts (withExtension template base) base (some (cleaned extension)) := by
  obtain ⟨name, stem, -, parts⟩ := Path.exists_parts_of_extension there
  have noDot : Path.dot ∉ extension := by
    cases parts with
    | cut _ noDot => exact noDot
  rw [withExtension, there]
  exact .cut plain.nonempty fun member => noDot (mem_of_mem_cleaned member (by decide))

/-- A file has the extension of the template if the template has one, with a stand-in for what is no
text in it.  If the template has none, the file has none in fixed mode, and otherwise the one that the
name from its row has by itself. -/
theorem extension?_of_resolve {row : Row} {naming : Naming} {output : Option Path} {index : Nat}
    {path : Path} (resolved : resolve template row naming output index = .ok path) :
    (∀ extension, template.extension? = some extension →
      path.extension? = some (cleaned extension) ∧
      (path.extension? = template.extension? ↔ Utf8.isText extension = true)) ∧
    (template.extension? = none →
      (naming = .fixed → path.extension? = none) ∧
      (naming = .fromRecord → ∃ name : String,
        (row.get? "FileName").or (row.get? "Dateiname") = some name ∧
        path.extension? = (Path.ofString name).extension? ∧
        (path.extension? = none ↔ '.' ∉ name.toList.tail))) := by
  have kept : ∀ extension, template.extension? = some extension →
      path.extension? = some (cleaned extension) := by
    intro extension there
    cases naming with
    | fixed => rw [extension?_of_fixed resolved, there, Option.map_some]
    | fromRecord =>
      obtain ⟨name, -, plain, rfl⟩ := exists_chosen_of_resolve resolved
      exact Path.extension?_join _ (isPlain_withExtension plain) (parts_withExtension there plain)
  constructor
  · intro extension there
    refine ⟨kept extension there, ?_⟩
    rw [kept extension there, there, Option.some.injEq, cleaned_eq_iff]
  · intro none_
    constructor
    · rintro rfl
      rw [extension?_of_fixed resolved, none_, Option.map_none]
    · rintro rfl
      obtain ⟨name, chosen, plain, rfl⟩ := exists_chosen_of_resolve resolved
      obtain ⟨stem, extension, parts⟩ := Path.exists_parts (utf8 name)
      have bare : withExtension template (utf8 name) = utf8 name := by rw [withExtension, none_]
      have alone : (Path.ofString name).extension? = extension := by
        rw [Path.ofString, Path.extension?, Path.fileName?_of_plain plain, Option.bind_some,
          parts.splitName_eq]
      refine ⟨name, (chosenName?_eq row).symm.trans chosen, ?_, ?_⟩
      · rw [bare, Path.extension?_join _ plain parts, alone]
      · rw [bare, Path.extension?_join _ plain parts, parts.eq_none_iff, dot_mem_tail_utf8]

/-- An extension that is no text, behind a name from a row that begins with a dot and ends in one. -/
theorem extension?_of_resolve_dots :
    resolve ⟨utf8 "t.a." ++ [0xFF]⟩ (.ofPairs [("Dateiname", ".x.")]) .fromRecord none 0 =
        .ok (.ofString ".x..\uFFFD") ∧
      (Path.ofString ".x..\uFFFD").extension? = some (utf8 "\uFFFD") ∧
      (Path.ofString ".x..\uFFFD").extension? ≠
        (⟨utf8 "t.a." ++ [0xFF]⟩ : Path).extension? := by
  have resolved : resolve ⟨utf8 "t.a." ++ [0xFF]⟩ (.ofPairs [("Dateiname", ".x.")]) .fromRecord
      none 0 = .ok (.ofString ".x..\uFFFD") := by decide +kernel
  obtain ⟨behind, same⟩ := (extension?_of_resolve resolved).1 [0xFF] (by decide +kernel)
  refine ⟨resolved, behind.trans (by decide +kernel), fun kept => ?_⟩
  exact absurd (same.1 kept) (by decide +kernel)

/-- The template has no extension, and the name from the row has one. -/
theorem resolve_withoutExtension :
    resolve (.ofString "README") (.ofPairs [("FileName", "report.csv")]) .fromRecord none 0 =
        .ok (.ofString "report.csv") ∧
      (Path.ofString "README").extension? = none ∧
      (Path.ofString "report.csv").extension? = some (utf8 "csv") := by
  decide +kernel

end Destination

end MailMerge
