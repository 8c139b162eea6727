import Mathlib.Data.List.TakeWhile
import MailMerge.Proofs.Destination
import MailMerge.Proofs.Path.Components

/-!
# Destinations stay in their directory

The name of a row's file is a text from a dataset, and it is put behind the path of a directory.  It
could lead out of the directory, or nowhere, if it had a separator in it or meant a directory itself.
All such names are refused, and no others (`nameProblem?_eq_none`).

So there are three ways for a row to be resolved, and it depends on nothing but the chosen name which of
them is taken (`resolve_fromRecord`): no field holds a name, or the name is refused, or the destination
has the components of the directory and one more, the name with the template's extension behind it.
This is true of every directory, whether it is written with dots or slashes at its end or has no text at
all, and of extensions that are no text.
-/

namespace MailMerge

set_option autoImplicit false

/-- A text is blank if nothing is left of it once the blanks around it are taken off. -/
theorem isBlankText_iff {text : String} : isBlankText text = true ↔ trimmed text = "" := by
  have parts := List.takeWhile_append_dropWhile (p := isBlank) (l := text.toList)
  have before : ∀ c ∈ text.toList.takeWhile isBlank, isBlank c = true :=
    fun c member => List.mem_takeWhile_imp member
  rw [trimmed, trim, trimEnd, trimStart, String.ofList_eq_empty_iff, List.reverse_eq_nil_iff,
    List.dropWhile_eq_nil_iff, isBlankText, List.all_eq_true]
  constructor
  · intro blank c member
    exact blank c ((List.dropWhile_suffix _).subset (List.mem_reverse.1 member))
  · intro blank c member
    rw [← parts] at member
    rcases List.mem_append.1 member with first | rest
    · exact before c first
    · exact blank c (List.mem_reverse.2 rest)

namespace Destination

variable {template : Path} {row : Row} {output : Option Path} {index : Nat} {name : String}

/-! ## Names that are refused -/

/-- A name from a row that cannot be used: nothing is left of it without the blanks around it, it has a
separator or the character zero in it, or it means a directory. -/
def IsRefused (name : String) : Prop :=
  trimmed name = "" ∨ '/' ∈ name.toList ∨ '\\' ∈ name.toList ∨ Char.ofNat 0 ∈ name.toList ∨
    name = "." ∨ name = ".."

instance : DecidablePred IsRefused := fun name =>
  inferInstanceAs (Decidable (trimmed name = "" ∨ '/' ∈ name.toList ∨ '\\' ∈ name.toList ∨
    Char.ofNat 0 ∈ name.toList ∨ name = "." ∨ name = ".."))

/-- A name has no problem if it is not to be refused. -/
theorem nameProblem?_eq_none : nameProblem? name = none ↔ ¬ IsRefused name := by
  simp only [nameProblem?, IsRefused, ← isBlankText_iff, Bool.or_eq_true, List.contains_iff_mem,
    decide_eq_true_eq]
  split_ifs with blank separator directory nul
  · simp [blank]
  · tauto
  · tauto
  · simp [nul]
  · tauto

/-- The name is taken from the first field, and from the second one only if the first is not there. -/
theorem chosenName?_eq (row : Row) :
    chosenName? row = (row.get? "FileName").or (row.get? "Dateiname") := by
  rw [chosenName?, nameFields, List.findSome?_cons, List.findSome?_cons, List.findSome?_nil]
  cases row.get? "FileName" with
  | some name => rfl
  | none => cases row.get? "Dateiname" <;> rfl

/-! ## The three ways to resolve a row -/

theorem resolve_of_unnamed (unnamed : chosenName? row = none) :
    resolve template row .fromRecord output index = .error (.missingField nameFields index) := by
  simp only [resolve, baseName, unnamed]

theorem resolve_of_problem {problem : NameProblem} (chosen : chosenName? row = some name)
    (refused : nameProblem? name = some problem) :
    resolve template row .fromRecord output index = .error (.invalidName name problem) := by
  simp only [resolve, baseName, chosen, refused]

theorem resolve_of_named (chosen : chosenName? row = some name) (fine : nameProblem? name = none) :
    resolve template row .fromRecord output index =
      .ok ((directory template output).join ⟨withExtension template (utf8 name)⟩) := by
  simp only [resolve, baseName, chosen, fine]

/-- What stands behind the name: a dot and the template's extension, with a stand-in for what is no
text in it, if the template has one. -/
theorem withExtension_eq (template : Path) (base : Bytes) :
    withExtension template base = base ++ template.extension?.elim []
      fun extension => Path.dot :: Utf8.encode (Utf8.decodeLossy extension) := by
  unfold withExtension
  cases template.extension? with
  | none => exact (List.append_nil base).symm
  | some extension => rfl

theorem directory_eq (template : Path) (output : Option Path) :
    directory template output = output.getD (template.parent?.getD ⟨[]⟩) := by
  cases output <;> rfl

/-- The name of a row's file comes from the first of the two fields that is there.  If there is none the
row fails because of that; if there is one the row fails exactly if the name is to be refused; and
otherwise its destination is an entry of the directory: it has one component more than the directory,
namely the name with the template's extension, and its parent has the components of the directory. -/
theorem resolve_fromRecord (template : Path) (row : Row) (output : Option Path) (index : Nat) :
    ((∃ tried place, resolve template row .fromRecord output index =
        .error (.missingField tried place)) ↔
      row.get? "FileName" = none ∧ row.get? "Dateiname" = none) ∧
    (∀ name, (∃ problem, resolve template row .fromRecord output index =
        .error (.invalidName name problem)) ↔
      (row.get? "FileName").or (row.get? "Dateiname") = some name ∧ IsRefused name) ∧
    ∀ name, (row.get? "FileName").or (row.get? "Dateiname") = some name → ¬ IsRefused name →
      ∃ path parent, resolve template row .fromRecord output index = .ok path ∧
        path.components = (output.getD (template.parent?.getD ⟨[]⟩)).components ++
          [.name (utf8 name ++ template.extension?.elim []
            fun extension => Path.dot :: Utf8.encode (Utf8.decodeLossy extension))] ∧
        path.parent? = some parent ∧
        parent.components = (output.getD (template.parent?.getD ⟨[]⟩)).components := by
  simp only [← chosenName?_eq, ← withExtension_eq, ← directory_eq]
  have unnamed : chosenName? row = none ↔
      row.get? "FileName" = none ∧ row.get? "Dateiname" = none := by
    rw [chosenName?_eq, Option.or_eq_none_iff]
  rw [← unnamed]
  cases chosen : chosenName? row with
  | none => simp [resolve_of_unnamed chosen]
  | some name =>
    cases problem : nameProblem? name with
    | some problem =>
      have refused : IsRefused name := by
        by_contra fine
        simp [nameProblem?_eq_none.2 fine] at problem
      simp [resolve_of_problem chosen problem, refused, eq_comm]
    | none =>
      have fine := nameProblem?_eq_none.1 problem
      have plain : Path.IsPlain (withExtension template (utf8 name)) :=
        isPlain_withExtension (isPlain_of_nameProblem? problem)
      obtain ⟨parent, above, same⟩ := Path.exists_parent_join (directory template output) plain
      have resolved : resolve template row .fromRecord output index =
          .ok ((directory template output).join ⟨withExtension template (utf8 name)⟩) :=
        resolve_of_named chosen problem
      refine ⟨by simp [resolved], ?_, ?_⟩
      · intro other
        simp only [resolved, reduceCtorEq, exists_false, Option.some.injEq, false_iff, not_and]
        rintro rfl
        exact fine
      · intro other here _
        obtain rfl := Option.some.inj here
        exact ⟨_, parent, resolved, Path.components_join _ plain, above, same⟩

/-- A name that ends in dots, a directory written with dots and slashes at its end, and an extension
that is no text. -/
theorem resolve_fromRecord_dots :
    ((Row.ofPairs [("Dateiname", ".."), ("FileName", "x..")]).get? "FileName").or
        ((Row.ofPairs [("Dateiname", ".."), ("FileName", "x..")]).get? "Dateiname") = some "x.." ∧
      ¬ IsRefused "x.." ∧
      ∃ path parent, resolve ⟨utf8 "in/t." ++ [0xFF]⟩
          (.ofPairs [("Dateiname", ".."), ("FileName", "x..")]) .fromRecord
          (some ⟨utf8 "./out/.//"⟩) 0 = .ok path ∧
        path.components = [.current, .name (utf8 "out"), .name (utf8 "x...\uFFFD")] ∧
        path.parent? = some parent ∧ parent.components = [.current, .name (utf8 "out")] := by
  have chosen : ((Row.ofPairs [("Dateiname", ".."), ("FileName", "x..")]).get? "FileName").or
      ((Row.ofPairs [("Dateiname", ".."), ("FileName", "x..")]).get? "Dateiname") = some "x.." := by
    decide +kernel
  have fine : ¬ IsRefused "x.." := by decide +kernel
  obtain ⟨path, parent, resolved, whole, above, same⟩ :=
    (resolve_fromRecord ⟨utf8 "in/t." ++ [0xFF]⟩ (.ofPairs [("Dateiname", ".."), ("FileName", "x..")])
      (some ⟨utf8 "./out/.//"⟩) 0).2.2 _ chosen fine
  exact ⟨chosen, fine, path, parent, resolved, whole.trans (by decide +kernel), above,
    same.trans (by decide +kernel)⟩

end Destination

end MailMerge
