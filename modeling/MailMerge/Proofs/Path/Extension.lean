import Mathlib.Data.List.TakeWhile
import MailMerge.Proofs.Path.Siblings
import MailMerge.Proofs.Text.StandIn

/-!
# Stem and extension

A name is cut into stem and extension at its last dot, unless it has no dot but perhaps its first octet
(`Parts`).  That is all there is to say about how names are cut (`splitName_eq_iff`), so what becomes of
the extension when something is put behind a name, or when a text stands in for a name that is none, is
read off these two rules.

A text that stands in for a name is cut where the name is (`Parts.cleaned`): dots are the same in both.
-/

namespace MailMerge.Path

set_option autoImplicit false

/-- The stem and the extension of a name. -/
inductive Parts : Bytes → Bytes → Option Bytes → Prop where
  /-- A name without a dot behind its first octet has no extension. -/
  | whole {name : Bytes} (noDot : dot ∉ name.tail) : Parts name name none
  /-- A name with such a dot is cut at the last one. -/
  | cut {stem extension : Bytes} (nonempty : stem ≠ []) (noDot : dot ∉ extension) :
      Parts (stem ++ dot :: extension) stem (some extension)

variable {name stem : Bytes} {extension : Option Bytes}

/-! ## Cutting at the last dot -/

theorem splitLastDot?_append (before : Bytes) {behind : Bytes} (noDot : dot ∉ behind) :
    splitLastDot? (before ++ dot :: behind) = some (before, behind) := by
  have passed : ∀ b ∈ behind.reverse, (b != dot) = true := by
    intro b member
    exact bne_iff_ne.2 fun same => noDot (same ▸ List.mem_reverse.1 member)
  have turned : (before ++ dot :: behind).reverse = behind.reverse ++ dot :: before.reverse := by
    simp
  rw [splitLastDot?, turned, List.takeWhile_append_of_pos passed,
    List.dropWhile_append_of_pos passed]
  simp

theorem splitLastDot?_eq_none (noDot : dot ∉ name) : splitLastDot? name = none := by
  have all : name.reverse.dropWhile (· != dot) = [] := by
    refine List.dropWhile_eq_nil_iff.2 fun b member => ?_
    exact bne_iff_ne.2 fun same => noDot (same ▸ List.mem_reverse.1 member)
  rw [splitLastDot?, all]

/-- A name is cut as the rules say. -/
theorem Parts.splitName_eq (parts : Parts name stem extension) :
    splitName name = (stem, extension) := by
  cases parts with
  | whole noDot =>
    cases name with
    | nil => rfl
    | cons b rest =>
      by_cases first : b = dot
      · have split : splitLastDot? (dot :: rest) = some ([], rest) := splitLastDot?_append [] noDot
        rw [first, splitName, split]
      · have none_ : dot ∉ b :: rest := by
          rintro (_ | ⟨_, later⟩)
          · exact first rfl
          · exact noDot later
        rw [splitName, splitLastDot?_eq_none none_]
  | cut nonempty noDot =>
    obtain ⟨b, rest, rfl⟩ := List.exists_cons_of_ne_nil nonempty
    rw [splitName, splitLastDot?_append _ noDot]

/-- The rules cut every name. -/
theorem exists_parts (name : Bytes) : ∃ stem extension, Parts name stem extension := by
  by_cases dotted : dot ∈ name.tail
  · obtain ⟨behind, before, turned, noDot⟩ :=
      List.eq_append_cons_of_mem (List.mem_reverse.2 dotted)
    have tail : name.tail = before.reverse ++ dot :: behind.reverse := by
      rw [← List.reverse_reverse name.tail, turned]
      simp
    cases name with
    | nil => simp at dotted
    | cons b rest =>
      have whole : b :: rest = (b :: before.reverse) ++ dot :: behind.reverse :=
        congrArg (b :: ·) tail
      rw [whole]
      exact ⟨_, _, .cut (List.cons_ne_nil _ _) fun member => noDot (List.mem_reverse.1 member)⟩
  · exact ⟨name, none, .whole dotted⟩

theorem splitName_eq_iff : splitName name = (stem, extension) ↔ Parts name stem extension := by
  refine ⟨fun split => ?_, Parts.splitName_eq⟩
  obtain ⟨_, _, parts⟩ := exists_parts name
  rw [parts.splitName_eq] at split
  obtain ⟨rfl, rfl⟩ := Prod.mk.inj split
  exact parts

/-- A name has no extension exactly if no dot stands behind its first octet. -/
theorem Parts.eq_none_iff (parts : Parts name stem extension) :
    extension = none ↔ dot ∉ name.tail := by
  cases parts with
  | whole noDot => simp [noDot]
  | cut nonempty noDot =>
    obtain ⟨b, rest, rfl⟩ := List.exists_cons_of_ne_nil nonempty
    simp

/-- A name is its stem and, behind a dot, its extension. -/
theorem Parts.eq_append (parts : Parts name stem extension) :
    name = stem ++ extension.elim [] (dot :: ·) := by
  cases parts with
  | whole => exact (List.append_nil name).symm
  | cut => rfl

/-- The stand-in for a name is cut where the name is. -/
theorem Parts.cleaned (parts : Parts name stem extension) :
    Parts (Destination.cleaned name) (Destination.cleaned stem)
      (extension.map Destination.cleaned) := by
  have keeps {octets : Bytes} (noDot : dot ∉ octets) : dot ∉ Destination.cleaned octets :=
    fun member => noDot (Destination.mem_of_mem_cleaned member (by decide))
  cases parts with
  | cut nonempty noDot =>
    rw [Destination.cleaned_append]
    exact .cut (Destination.cleaned_ne_nil nonempty) (keeps noDot)
  | whole noDot =>
    refine .whole ?_
    cases name with
    | nil => simp
    | cons b rest =>
      by_cases first : b = dot
      · have whole : Destination.cleaned (dot :: rest) = dot :: Destination.cleaned rest := by
          simpa using Destination.cleaned_append [] rest
        rw [first, whole]
        exact keeps noDot
      · refine fun member => keeps ?_ (List.mem_of_mem_tail member)
        rintro (_ | ⟨_, later⟩)
        · exact first rfl
        · exact noDot later

/-! ## The extension of an entry -/

theorem exists_parts_of_stem {path : Path} (stemmed : path.stem? = some stem) :
    ∃ name extension, path.fileName? = some name ∧ Parts name stem extension := by
  obtain ⟨name, named, rfl⟩ := Option.map_eq_some_iff.1 stemmed
  exact ⟨name, _, named, splitName_eq_iff.1 rfl⟩

theorem exists_parts_of_extension {path : Path} {octets : Bytes}
    (there : path.extension? = some octets) :
    ∃ name stem, path.fileName? = some name ∧ Parts name stem (some octets) := by
  obtain ⟨name, named, split⟩ := Option.bind_eq_some_iff.1 there
  exact ⟨name, _, named, splitName_eq_iff.1 (Prod.ext rfl split)⟩

/-- An entry of a directory has the extension of its name. -/
theorem extension?_join (directory : Path) (plain : IsPlain name)
    (parts : Parts name stem extension) : (directory.join ⟨name⟩).extension? = extension := by
  rw [extension?, fileName?_join directory plain, Option.bind_some, parts.splitName_eq]

/-- A name by itself is a path with this file name. -/
theorem fileName?_of_plain (plain : IsPlain name) : (⟨name⟩ : Path).fileName? = some name := by
  have here : (⟨[]⟩ : Path).join ⟨name⟩ = ⟨name⟩ := by
    rw [join, plain.isAbsolute]
    rfl
  exact here ▸ fileName?_join ⟨[]⟩ plain

end MailMerge.Path

namespace MailMerge.Destination

/-! ## The name in fixed mode -/

/-- A file that takes stem and extension from the template has the template's name, or what stands in
for it. -/
theorem withExtension_stem {template : Path} {name stem : Bytes}
    (named : template.fileName? = some name) (stemmed : template.stem? = some stem) :
    withExtension template (cleaned stem) = cleaned name := by
  obtain ⟨before, extension, parts⟩ := Path.exists_parts name
  have split := parts.splitName_eq
  obtain rfl : before = stem := by
    rw [Path.stem?, named, Option.map_some, split] at stemmed
    exact Option.some.inj stemmed
  have behind : template.extension? = extension := by
    rw [Path.extension?, named, Option.bind_some, split]
  rw [parts.cleaned.eq_append, withExtension, behind]
  cases extension with
  | none => exact (List.append_nil _).symm
  | some octets => rfl

end MailMerge.Destination
