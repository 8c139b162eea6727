import MailMerge.Proofs.Destination
import MailMerge.Proofs.Tree.Making

/-!
# Destinations that the file system accepts

Nothing about a destination can be refused but its length.  A template that can be opened has no
octet zero in its path, so there is none in the names that are made of it, and a name from a row is
checked to have none (`Destination.nul_not_mem_of_resolve`).  Where an entry of a directory lands is
therefore known as soon as it is known whether there is a directory in its place and whether its
name or its path is too long (`FileTree.landing_join`).
-/

namespace MailMerge

set_option autoImplicit false

/-! ## The octet zero -/

namespace Path

theorem hasNul_eq_false {path : Path} : path.hasNul = false ↔ 0 ∉ path.bytes := by
  simp [hasNul]

theorem mem_of_mem_splitSlashes {octets segment : Bytes} {b : UInt8}
    (member : segment ∈ splitSlashes octets) (inside : b ∈ segment) : b ∈ octets := by
  induction octets generalizing segment with
  | nil => simp_all [splitSlashes]
  | cons c rest ih =>
    by_cases slashed : c = slash
    · rw [splitSlashes, if_pos slashed] at member
      rcases List.mem_cons.1 member with rfl | later
      · exact absurd inside List.not_mem_nil
      · exact List.mem_cons_of_mem _ (ih later inside)
    · obtain ⟨first, more, split, whole⟩ := splitSlashes_cons slashed rest
      rw [whole] at member
      rcases List.mem_cons.1 member with rfl | later
      · rcases List.mem_cons.1 inside with rfl | behind
        · exact List.mem_cons_self
        · exact List.mem_cons_of_mem _ (ih (split ▸ List.mem_cons_self) behind)
      · exact List.mem_cons_of_mem _ (ih (split ▸ List.mem_cons_of_mem _ later) inside)

/-- The file name of a path is a part of it. -/
theorem mem_of_mem_fileName {path : Path} {name : Bytes} {b : UInt8}
    (named : path.fileName? = some name) (inside : b ∈ name) : b ∈ path.bytes := by
  unfold fileName? at named
  split at named
  case h_2 => simp at named
  case h_1 octets last =>
    obtain rfl := Option.some.inj named
    rcases List.mem_append.1 (List.mem_of_getLast? last) with start | within
    · unfold startComponents at start
      split_ifs at start <;> simp at start
    · obtain ⟨segment, present, component⟩ := List.mem_filterMap.1 within
      unfold Path.component? at component
      split_ifs at component
      · simp at component
      obtain rfl := Component.name.inj (Option.some.inj component)
      have member := mem_of_mem_splitSlashes present inside
      split_ifs at member
      · exact List.mem_of_mem_drop member
      · exact member

theorem mem_of_mem_stem {path : Path} {stem : Bytes} {b : UInt8}
    (named : path.stem? = some stem) (inside : b ∈ stem) : b ∈ path.bytes := by
  obtain ⟨name, extension, file, parts⟩ := exists_parts_of_stem named
  exact mem_of_mem_fileName file (parts.eq_append ▸ List.mem_append_left _ inside)

theorem mem_of_mem_extension {path : Path} {extension : Bytes} {b : UInt8}
    (named : path.extension? = some extension) (inside : b ∈ extension) : b ∈ path.bytes := by
  obtain ⟨name, stem, file, parts⟩ := exists_parts_of_extension named
  refine mem_of_mem_fileName file (parts.eq_append ▸ List.mem_append_right _ ?_)
  exact List.mem_cons_of_mem _ inside

theorem joinSlashes_splitSlashes (octets : Bytes) : joinSlashes (splitSlashes octets) = octets := by
  induction octets with
  | nil => rfl
  | cons b rest ih =>
    by_cases slashed : b = slash
    · rw [splitSlashes, if_pos slashed, slashed]
      obtain ⟨segment, more, split⟩ := List.exists_cons_of_ne_nil (splitSlashes_ne_nil rest)
      rw [split] at ih ⊢
      rw [joinSlashes.eq_3 _ _ (by simp), ih, List.nil_append]
    · obtain ⟨segment, more, split, whole⟩ := splitSlashes_cons slashed rest
      rw [split] at ih
      rw [whole, ← ih]
      cases more <;> rfl

/-- A path begins with what is left of it when it is trimmed. -/
theorem trimmed_prefix (path : Path) : path.trimmed.bytes <+: path.bytes := by
  obtain ⟨fillers, whole, _⟩ := dropFiller_spec path.isAbsolute path.segments.reverse
  have segments : path.segments =
      (dropFiller path.isAbsolute path.segments.reverse).reverse ++ fillers.reverse := by
    rw [← List.reverse_append, ← whole, List.reverse_reverse]
  have bytes : path.bytes =
      (if path.isAbsolute then [slash] else []) ++ joinSlashes path.segments := by
    cases start : path.isAbsolute with
    | false => simp [segments_of_relative start, joinSlashes_splitSlashes]
    | true =>
      obtain ⟨octets, rfl⟩ := exists_of_isAbsolute start
      simp [segments_of_absolute, joinSlashes_splitSlashes]
  rw [trimmed, ofBackwards, bytes]
  refine (List.prefix_append_right_inj _).2 ?_
  generalize (dropFiller path.isAbsolute path.segments.reverse).reverse = kept at segments
  rw [segments]
  by_cases none : kept = []
  · simp [none, joinSlashes]
  by_cases nothing : fillers.reverse = []
  · simp [nothing]
  · rw [joinSlashes_append none nothing]
    exact List.prefix_append ..

theorem nul_not_mem_join {directory entry : Path} (none : 0 ∉ directory.bytes)
    (free : 0 ∉ entry.bytes) : 0 ∉ (directory.join entry).bytes := by
  have other : (0 : UInt8) ≠ slash := by decide
  unfold join
  split_ifs <;> simp [none, free, other]

theorem nul_not_mem_temporaryName {name : Bytes} (none : 0 ∉ name) (index : Nat) :
    0 ∉ temporaryName name index := by
  intro member
  rcases List.mem_cons.1 member with first | member
  · exact absurd first (by decide)
  rcases List.mem_append.1 member with stem | mark
  · exact none (Destination.mem_of_mem_cleaned stem (by decide))
  · rw [utf8, String.toList_append, Utf8.encode_append] at mark
    rcases List.mem_append.1 mark with mark | number
    · exact absurd mark (by decide)
    · have number : 0 ∈ digits index := by
        rwa [show (toString index).toList = Nat.toDigits 10 index from Nat.toList_repr] at number
      exact absurd (isDigit_of_mem_digits number) (by decide)

end Path

namespace Destination

open MailMerge.Path (IsPlain)

theorem nul_not_mem_withExtension {template : Path} {base : Bytes} (none : 0 ∉ template.bytes)
    (free : 0 ∉ base) : 0 ∉ withExtension template base := by
  unfold withExtension
  cases named : template.extension? with
  | none => exact free
  | some extension =>
    simp only [List.mem_append, List.mem_cons, not_or]
    refine ⟨free, by decide, fun member => none ?_⟩
    exact Path.mem_of_mem_extension named (mem_of_mem_cleaned member (by decide))

theorem nul_not_mem_of_nameProblem? {name : String} (fine : nameProblem? name = none) :
    0 ∉ utf8 name := by
  unfold nameProblem? at fine
  split_ifs at fine with blank separator directory nul
  intro member
  refine nul (List.contains_iff_mem.2 ?_)
  exact Utf8.mem_of_ascii_mem member (by decide)

/-- The path of a row's file has no octet zero in it if the template's path and the directory's have
none. -/
theorem nul_not_mem_of_resolve {template : Path} {row : Row} {naming : Naming}
    {output : Option Path} {index : Nat} {path : Path} (none : 0 ∉ template.bytes)
    (clear : 0 ∉ (directory template output).bytes)
    (resolved : resolve template row naming output index = .ok path) : 0 ∉ path.bytes := by
  unfold resolve at resolved
  split at resolved
  case h_2 => simp at resolved
  case h_1 base based =>
    obtain rfl := Except.ok.inj resolved
    refine Path.nul_not_mem_join clear (nul_not_mem_withExtension none ?_)
    unfold baseName at based
    split at based
    case h_1 =>
      split at based
      case h_2 => simp at based
      case h_1 stem named =>
        obtain rfl := Except.ok.inj based
        refine fun member => none (Path.mem_of_mem_stem named ?_)
        exact mem_of_mem_cleaned member (by decide)
    case h_2 =>
      split at based
      case h_1 => simp at based
      case h_2 =>
        split at based
        case h_1 => simp at based
        case h_2 fine =>
          obtain rfl := Except.ok.inj based
          exact nul_not_mem_of_nameProblem? fine

end Destination

/-! ## Entries of a directory -/

namespace FileTree

theorem nul_not_mem_of_accepted {path : Path} (accepted : path.refusal? = none) :
    0 ∉ path.bytes := by
  unfold Path.refusal? at accepted
  split_ifs at accepted with nul
  exact Path.hasNul_eq_false.1 (Bool.eq_false_iff.2 nul)

/-- A directory is there under its trimmed path, if there is anything left of it. -/
theorem isDirectory_trimmed {tree : FileTree} {path : Path} (found : tree.isDirectory path = true)
    (named : path.trimmed.bytes ≠ []) : tree.isDirectory path.trimmed = true := by
  have accepted := refusal?_of_isDirectory found
  obtain ⟨location, walked⟩ := (isDirectory_iff tree accepted).1 found
  refine (isDirectory_iff tree ?_).2 ⟨location, (walk_trimmed tree path).trans walked⟩
  have start := path.trimmed_prefix
  have noNul : ¬ path.trimmed.hasNul = true := by
    rw [Bool.not_eq_true, Path.hasNul_eq_false]
    exact fun member => nul_not_mem_of_accepted accepted (start.subset member)
  have short : ¬ pathLimit < path.trimmed.bytes.length := by
    unfold Path.refusal? at accepted
    split_ifs at accepted with _ _ long
    exact fun longer => long (Nat.lt_of_lt_of_le longer start.length_le)
  rw [Path.refusal?, if_neg noNul, if_neg (by simpa [Path.isEmpty] using named), if_neg short]

variable {tree : FileTree} {directory : Path} {home : Location} {name : Bytes}

/-- A path that leads to a directory is none in which something could land. -/
theorem landing_of_isDirectory {path : Path} (found : tree.isDirectory path = true) :
    tree.landing path = .error .isADirectory := by
  have accepted := refusal?_of_isDirectory found
  obtain ⟨location, walked⟩ := (isDirectory_iff tree accepted).1 found
  rw [walk_eq tree accepted] at walked
  unfold landing
  cases target : tree.target path with
  | error fault => simp [target] at walked
  | ok goal =>
    cases goal with
    | here location => rfl
    | place location wanted =>
      simp only [target] at walked ⊢
      split at walked
      case h_1 there => simp [there]
      case h_2 => simp at walked
      case h_3 => simp at walked

/-- Where an entry of a directory lands. -/
theorem landing_join (reached : tree.walk directory = .ok home) (plain : Path.IsPlain name)
    (noNul : 0 ∉ (directory.join ⟨name⟩).bytes) :
    tree.landing (directory.join ⟨name⟩) =
      if tree.isDirectory (directory.join ⟨name⟩) = true then .error .isADirectory
      else if pathLimit < (directory.join ⟨name⟩).bytes.length ∨ nameLimit < name.length then
        .error .nameTooLong
      else .ok (name :: home) := by
  by_cases found : tree.isDirectory (directory.join ⟨name⟩) = true
  · rw [if_pos found, landing_of_isDirectory found]
  rw [if_neg found]
  have target := target_join reached plain
  have nonempty : (directory.join ⟨name⟩).isEmpty = false := by
    rw [Path.isEmpty, List.isEmpty_eq_false_iff]
    intro empty
    have none := Path.names_join directory plain
    simp [names_of_bytes_eq_nil empty] at none
  unfold Path.refusal? at target
  rw [Path.hasNul_eq_false.2 noNul, nonempty] at target
  simp only [Bool.false_eq_true, if_false] at target
  unfold landing
  rw [target]
  by_cases long : pathLimit < (directory.join ⟨name⟩).bytes.length
  · simp [long]
  by_cases longer : nameLimit < name.length
  · simp [long, longer]
  · simp only [long, longer, if_false, or_self] at target ⊢
    rw [if_neg]
    intro there
    refine found ?_
    simp [isDirectory, kind, find, target, there, Entry.kind]

end FileTree

end MailMerge
