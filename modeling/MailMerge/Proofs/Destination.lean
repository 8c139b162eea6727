import MailMerge.Proofs.Path.Extension

/-!
# The names of destinations

Every destination is an entry of the directory of the generated files, under a plain name
(`exists_plain_of_resolve`): a name from a row is checked to be one, and what is made of the
template's name is one again, even when the template's name is no text.  A row that has no
destination has failed for a reason of its own (`failure_of_resolve`).
-/

namespace MailMerge

set_option autoImplicit false

namespace Utf8

/-- An octet of ASCII stands for the character of its number. -/
theorem eq_ofNat_of_ascii_mem {c : Char} {b : UInt8} (member : b ∈ encodeChar c)
    (ascii : b.toNat < 0x80) : c = Char.ofNat b.toNat := by
  have single := encodeChar_of_ascii_mem member ascii
  unfold encodeChar encodePoint at single
  split_ifs at single with small
  · obtain rfl := (List.cons.inj single).1
    rw [UInt8.toNat_ofNat', Nat.mod_eq_of_lt (by omega), Char.ofNat_toNat]
  all_goals simp at single

theorem mem_of_ascii_mem {text : List Char} {b : UInt8} (member : b ∈ encode text)
    (ascii : b.toNat < 0x80) : Char.ofNat b.toNat ∈ text := by
  obtain ⟨c, inside, here⟩ := List.mem_flatMap.1 member
  exact eq_ofNat_of_ascii_mem here ascii ▸ inside

/-- An octet of ASCII is in what is written for a text exactly if its character is in the text. -/
theorem mem_encode_iff {text : List Char} {b : UInt8} (ascii : b.toNat < 0x80) :
    b ∈ encode text ↔ Char.ofNat b.toNat ∈ text := by
  refine ⟨fun member => mem_of_ascii_mem member ascii, fun member => ?_⟩
  have single := encodeChar_of_alone (lead_of_ascii ascii)
  exact List.mem_flatMap.2 ⟨_, member, single ▸ List.mem_singleton_self b⟩

/-- A text whose octets are all ASCII can be read off them one by one. -/
theorem eq_map_of_ascii {text : List Char} (ascii : ∀ b ∈ encode text, b.toNat < 0x80) :
    text = (encode text).map fun b => Char.ofNat b.toNat := by
  induction text with
  | nil => rfl
  | cons c rest ih =>
    obtain ⟨b, more, octets⟩ := List.exists_cons_of_ne_nil (encodeChar_ne_nil c)
    have member : b ∈ encodeChar c := octets ▸ List.mem_cons_self
    have small := ascii b (List.mem_append_left _ member)
    rw [encode_cons, encodeChar_of_ascii_mem member small, List.map_append, List.map_singleton,
      ← ih fun d later => ascii d (List.mem_append_right _ later),
      ← eq_ofNat_of_ascii_mem member small]
    rfl

end Utf8

namespace Destination

open MailMerge.Path (IsPlain)

/-! ## Names -/

theorem slash_not_mem_cleaned {octets : Bytes} (none : Path.slash ∉ octets) :
    Path.slash ∉ cleaned octets :=
  fun member => none (mem_of_mem_cleaned member (by decide))

/-- What is written for some octets is dots only if they are those dots. -/
theorem eq_of_cleaned_eq_dots {octets dots : Bytes} (same : cleaned octets = dots)
    (all : ∀ b ∈ dots, b = Path.dot) : octets = dots := by
  rw [← same]
  refine (cleaned_eq_self fun b member => ?_).symm
  rw [all b (same ▸ member)]
  decide

theorem isPlain_cleaned {name : Bytes} (plain : IsPlain name) : IsPlain (cleaned name) := by
  refine ⟨cleaned_ne_nil plain.nonempty, slash_not_mem_cleaned plain.noSlash, fun here => ?_,
    fun above => ?_⟩
  · exact plain.notHere (eq_of_cleaned_eq_dots here (by simp))
  · exact plain.notAbove (eq_of_cleaned_eq_dots above (by simp))

/-- A file name of a path is a plain name. -/
theorem isPlain_fileName {path : Path} {name : Bytes} (named : path.fileName? = some name) :
    IsPlain name := by
  unfold Path.fileName? at named
  split at named
  case h_2 => simp at named
  case h_1 octets last =>
    obtain rfl := Option.some.inj named
    have member := List.mem_of_getLast? last
    rcases List.mem_append.1 member with start | inside
    · unfold Path.startComponents at start
      split_ifs at start <;> simp at start
    · obtain ⟨segment, present, component⟩ := List.mem_filterMap.1 inside
      unfold Path.component? at component
      split_ifs at component with filler up
      · simp at component
      obtain rfl := Path.Component.name.inj (Option.some.inj component)
      simp only [Path.isFiller, Bool.or_eq_true, beq_iff_eq, not_or] at filler
      exact ⟨filler.1, Path.slash_not_mem_of_mem_segments present, filler.2, up⟩

theorem isPlain_of_stem {template : Path} {stem : Bytes} (stemmed : template.stem? = some stem) :
    IsPlain (withExtension template (cleaned stem)) := by
  obtain ⟨name, _, named, _⟩ := Path.exists_parts_of_stem stemmed
  rw [withExtension_stem named stemmed]
  exact isPlain_cleaned (isPlain_fileName named)

/-- A name from a row that has no problem is a plain name. -/
theorem isPlain_of_nameProblem? {name : String} (fine : nameProblem? name = none) :
    IsPlain (utf8 name) := by
  unfold nameProblem? at fine
  split_ifs at fine with blank separator directory nul
  simp only [Bool.or_eq_true, List.contains_iff_mem, not_or] at separator
  simp only [Bool.or_eq_true, decide_eq_true_eq, not_or] at directory
  have text : ∀ dots : List Char, utf8 name = Utf8.encode dots → (∀ c ∈ dots, c = '.') →
      name = .ofList dots := by
    intro dots same all
    have ascii : ∀ b ∈ Utf8.encode dots, b.toNat < 0x80 := by
      intro b member
      obtain ⟨c, inside, here⟩ := List.mem_flatMap.1 member
      rw [all c inside] at here
      have octets : Utf8.encodeChar '.' = [Path.dot] := by decide
      rw [octets, List.mem_singleton] at here
      rw [here]
      decide
    change Utf8.encode name.toList = _ at same
    have left := Utf8.eq_map_of_ascii (same ▸ ascii)
    rw [same, ← Utf8.eq_map_of_ascii ascii] at left
    rw [← left, String.ofList_toList]
  refine ⟨fun empty => ?_, fun member => ?_, fun here => ?_, fun above => ?_⟩
  · obtain rfl := text [] empty (by simp)
    exact blank (by decide)
  · exact separator.1 (Utf8.mem_of_ascii_mem member (by decide))
  · exact directory.1 (text ['.'] (here.trans (by decide)) (by simp))
  · exact directory.2 (text ['.', '.'] (above.trans (by decide)) (by simp))

theorem isPlain_withExtension {template : Path} {base : Bytes} (plain : IsPlain base) :
    IsPlain (withExtension template base) := by
  unfold withExtension
  cases extension : template.extension? with
  | none => exact plain
  | some octets =>
    obtain ⟨name, stem, named, parts⟩ := Path.exists_parts_of_extension extension
    have noSlash : Path.slash ∉ octets := by
      intro member
      refine (isPlain_fileName named).noSlash ?_
      rw [parts.eq_append]
      exact List.mem_append_right _ (List.mem_cons_of_mem _ member)
    have nonempty := plain.nonempty
    have notHere := plain.notHere
    refine ⟨by simp, ?_, ?_, ?_⟩
    · simp only [List.mem_append, List.mem_cons, not_or]
      exact ⟨plain.noSlash, by decide, slash_not_mem_cleaned noSlash⟩
    · intro here
      cases base <;> simp_all
    · intro above
      cases base with
      | nil => exact nonempty rfl
      | cons b rest => cases rest <;> simp_all

/-- A row's file is an entry of the directory of the generated files. -/
theorem exists_plain_of_resolve {template : Path} {row : Row} {naming : Naming}
    {output : Option Path} {index : Nat} {path : Path}
    (resolved : resolve template row naming output index = .ok path) :
    ∃ name, IsPlain name ∧ path = (directory template output).join ⟨name⟩ := by
  unfold resolve at resolved
  split at resolved
  case h_2 => simp at resolved
  case h_1 base named =>
    refine ⟨withExtension template base, ?_, (Except.ok.inj resolved).symm⟩
    unfold baseName at named
    split at named
    case h_1 =>
      split at named
      case h_1 stem stemmed =>
        obtain rfl := Except.ok.inj named
        exact isPlain_of_stem stemmed
      case h_2 => simp at named
    case h_2 =>
      split at named
      case h_1 => simp at named
      case h_2 name _ =>
        split at named
        case h_1 => simp at named
        case h_2 fine =>
          obtain rfl := Except.ok.inj named
          exact isPlain_withExtension (isPlain_of_nameProblem? fine)

/-- In fixed mode every row has the same destination, under the template's name or what stands in for
it. -/
theorem resolve_of_fileName? {template : Path} {name : Bytes}
    (named : template.fileName? = some name) (row : Row) (output : Option Path) (index : Nat) :
    resolve template row .fixed output index =
      .ok ((directory template output).join ⟨cleaned name⟩) := by
  obtain ⟨stem, stemmed⟩ : ∃ stem, template.stem? = some stem := by
    rw [Path.stem?, named]
    exact ⟨_, rfl⟩
  simp only [resolve, baseName, stemmed, withExtension_stem named stemmed]

/-- A row that has no destination lacks a name or has one that cannot be used. -/
theorem failure_of_resolve {template : Path} {row : Row} {naming : Naming}
    {output : Option Path} {index : Nat} {failure : Failure}
    (failed : resolve template row naming output index = .error failure) :
    (∃ name problem, failure = .invalidName name problem) ∨
      failure = .missingField nameFields index := by
  unfold resolve baseName at failed
  split at failed
  case h_1 => simp at failed
  case h_2 named =>
    obtain rfl := Except.error.inj failed
    split at named
    · split at named
      · simp at named
      · exact .inl ⟨_, _, (Except.error.inj named).symm⟩
    · split at named
      · exact .inr (Except.error.inj named).symm
      · split at named
        · exact .inl ⟨_, _, (Except.error.inj named).symm⟩
        · simp at named

/-- A row that has no destination fails for a reason of its own. -/
theorem category_of_resolve {template : Path} {row : Row} {naming : Naming}
    {output : Option Path} {index : Nat} {failure : Failure}
    (failed : resolve template row naming output index = .error failure) :
    failure.category = .record := by
  rcases failure_of_resolve failed with ⟨name, problem, rfl⟩ | rfl
  · rfl
  · rfl

end Destination

end MailMerge
