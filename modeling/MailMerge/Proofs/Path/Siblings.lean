import MailMerge.Proofs.Path.Names
import MailMerge.Proofs.Text.Pieces

/-!
# Entries of a directory and their temporary siblings

All files of a request belong into one directory, each under a plain name.  A path that is made by
putting a plain name behind the path of a directory has this name as its last one (`names_join`) and
the directory as its parent (`parent?_join`), and its temporary sibling is made in the same way from
a name in which the row's index can be read off (`temporary_join`, `temporaryName_index`), and then the
text of the name it was made from (`temporaryName_inj`).  So the temporary files of two rows never have
the same name.
-/

namespace MailMerge.Path

set_option autoImplicit false

/-! ## Trimmed paths -/

/-- The path without what stands behind its last component. -/
def trimmed (path : Path) : Path :=
  ofBackwards path.isAbsolute (dropFiller path.isAbsolute path.segments.reverse)

theorem kept_trimmed (path : Path) :
    Kept path.isAbsolute (dropFiller path.isAbsolute path.segments.reverse) := by
  refine kept_dropFiller (fun segment member => ?_) fun relative segment first empty => ?_
  · exact slash_not_mem_of_mem_segments (List.mem_reverse.1 member)
  · rw [List.getLast?_reverse] at first
    have none := bytes_eq_nil_of_head_segments relative (empty ▸ first)
    rw [segments_of_relative relative, none]
    rfl

@[simp] theorem isAbsolute_trimmed (path : Path) : path.trimmed.isAbsolute = path.isAbsolute :=
  isAbsolute_ofBackwards (kept_trimmed path)

theorem trimmed_ofBackwards {absolute : Bool} {backwards : List Bytes}
    (kept : Kept absolute backwards) :
    (ofBackwards absolute backwards).trimmed = ofBackwards absolute backwards := by
  rw [trimmed, isAbsolute_ofBackwards kept]
  cases backwards with
  | nil =>
    rw [(ofBackwards_nil absolute).2, List.reverse_singleton, dropFiller_nil_cons, kept.dropped]
  | cons last before =>
    rw [(segments_ofBackwards kept (List.cons_ne_nil _ _)).2, List.reverse_reverse, kept.dropped]

/-- Nothing is left to be cut off when a path has been trimmed. -/
theorem trimmed_trimmed (path : Path) : path.trimmed.trimmed = path.trimmed :=
  trimmed_ofBackwards (kept_trimmed path)

/-- Only dots are lost when a path is trimmed. -/
theorem names_trimmed (path : Path) :
    ∃ dots, path.names = path.trimmed.names ++ dots ∧ ∀ name ∈ dots, name = [dot] := by
  obtain ⟨fillers, whole, all⟩ := dropFiller_spec path.isAbsolute path.segments.reverse
  refine ⟨(fillers.filter (· != [])).reverse, ?_, fun name member => ?_⟩
  · rw [trimmed, names_ofBackwards (kept_trimmed path), names_eq_segments,
      ← List.reverse_reverse path.segments]
    conv_lhs => rw [whole]
    simp [List.filter_reverse]
  · exact eq_dot_of_filler all name (List.mem_reverse.1 member)

/-- The ancestors of a trimmed path are a lineage. -/
theorem lineage_trimmed (path : Path) :
    Lineage (FileTree.ancestors path.trimmed.bytes.length path.trimmed) :=
  lineage_ancestors _ (kept_trimmed path) (Nat.le_refl _)

/-! ## Entries of a directory -/

/-- A name that an entry of a directory can have. -/
structure IsPlain (name : Bytes) : Prop where
  nonempty : name ≠ []
  noSlash : slash ∉ name
  notHere : name ≠ [dot]
  notAbove : name ≠ [dot, dot]

theorem IsPlain.isFiller {name : Bytes} (plain : IsPlain name) : isFiller name = false := by
  simp [Path.isFiller, plain.nonempty, plain.notHere]

theorem IsPlain.component? {name : Bytes} (plain : IsPlain name) :
    component? name = some (.name name) := by
  rw [Path.component?, plain.isFiller, if_neg (by simp), if_neg plain.notAbove]

theorem IsPlain.isAbsolute {name : Bytes} (plain : IsPlain name) :
    (⟨name⟩ : Path).isAbsolute = false := by
  cases name with
  | nil => rfl
  | cons b rest =>
    have other : b ≠ slash := fun same => plain.noSlash (same ▸ List.mem_cons_self)
    simpa [Path.isAbsolute] using other

/-- A name put behind some octets becomes the last segment, after those that the octets have. -/
theorem splitSlashes_attach (octets : Bytes) {name : Bytes} (noSlash : slash ∉ name) :
    ∃ before, splitSlashes (if octets.isEmpty || octets.getLast? == some slash then octets ++ name
        else octets ++ slash :: name) = before ++ [name] ∧
      (splitSlashes octets = before ∨ splitSlashes octets = before ++ [[]]) := by
  have alone := splitSlashes_of_slash_not_mem noSlash
  by_cases empty : octets = []
  · exact ⟨[], by simp [empty, alone], .inr (by simp [empty, splitSlashes])⟩
  by_cases slashed : octets.getLast? = some slash
  · obtain ⟨before, rfl⟩ := List.getLast?_eq_some_iff.1 slashed
    refine ⟨splitSlashes before, ?_, .inr (splitSlashes_append before [])⟩
    rw [if_pos (by simp), List.append_assoc, List.singleton_append, splitSlashes_append, alone]
  · refine ⟨splitSlashes octets, ?_, .inl rfl⟩
    rw [if_neg (by simp [empty, slashed]), splitSlashes_append, alone]

theorem segments_join (directory : Path) {name : Bytes} (plain : IsPlain name) :
    (directory.join ⟨name⟩).isAbsolute = directory.isAbsolute ∧
      ∃ before, (directory.join ⟨name⟩).segments = before ++ [name] ∧
        (directory.segments = before ∨ directory.segments = before ++ [[]]) := by
  have relative := plain.isAbsolute
  have joined : directory.join ⟨name⟩ =
      ⟨if directory.bytes.isEmpty || directory.bytes.getLast? == some slash then
        directory.bytes ++ name else directory.bytes ++ slash :: name⟩ := by
    rw [join, relative, if_neg (by simp)]
    exact (apply_ite Path.mk _ _ _).symm
  cases start : directory.isAbsolute with
  | true =>
    obtain ⟨octets, rfl⟩ := exists_of_isAbsolute start
    obtain ⟨before, split, rest⟩ := splitSlashes_attach octets plain.noSlash
    have inner : (⟨slash :: octets⟩ : Path).join ⟨name⟩ =
        ⟨slash :: if octets.isEmpty || octets.getLast? == some slash then octets ++ name
          else octets ++ slash :: name⟩ := by
      rw [joined]
      cases octets with
      | nil => simp
      | cons b rest =>
        simp only [List.isEmpty_cons, List.getLast?_cons_cons, Bool.false_or]
        split <;> rfl
    rw [inner]
    refine ⟨by simp [isAbsolute], before, ?_, ?_⟩
    · rw [segments_of_absolute, split]
    · rwa [segments_of_absolute]
  | false =>
    obtain ⟨before, split, rest⟩ := splitSlashes_attach directory.bytes plain.noSlash
    have relative' : (directory.join ⟨name⟩).isAbsolute = false := by
      rw [joined]
      cases octets : directory.bytes with
      | nil => simpa [isAbsolute] using relative
      | cons b more =>
        have : b ≠ slash := by simpa [isAbsolute, octets] using start
        split <;> simp [isAbsolute, this]
    refine ⟨relative', before, ?_, ?_⟩
    · rw [segments_of_relative relative', joined, split]
    · rwa [segments_of_relative start]

@[simp] theorem isAbsolute_join (directory : Path) {name : Bytes} (plain : IsPlain name) :
    (directory.join ⟨name⟩).isAbsolute = directory.isAbsolute :=
  (segments_join directory plain).1

/-- The entry of a directory has one more name than the directory. -/
theorem names_join (directory : Path) {name : Bytes} (plain : IsPlain name) :
    (directory.join ⟨name⟩).names = directory.names ++ [name] := by
  obtain ⟨_, before, entry, same | same⟩ := segments_join directory plain
  all_goals simp [names_eq_segments, entry, same, plain.nonempty]

theorem fileName?_join (directory : Path) {name : Bytes} (plain : IsPlain name) :
    (directory.join ⟨name⟩).fileName? = some name := by
  obtain ⟨_, before, entry, _⟩ := segments_join directory plain
  simp [fileName?, components, entry, List.filterMap_append, plain.component?]

/-- The parent of an entry is its directory, trimmed. -/
theorem parent?_join (directory : Path) {name : Bytes} (plain : IsPlain name) :
    (directory.join ⟨name⟩).parent? = some directory.trimmed := by
  obtain ⟨start, before, entry, same⟩ := segments_join directory plain
  have kept : dropFiller directory.isAbsolute (before ++ [name]).reverse =
      name :: before.reverse := by
    simp [dropFiller, plain.isFiller]
  rw [parent?, start, entry, kept, trimmed]
  rcases same with same | same
  · rw [same]
  · rw [same, List.reverse_append, List.reverse_singleton, List.singleton_append,
      dropFiller_nil_cons]

/-- The directory of an entry is a parent of its path. -/
theorem hasParent_join (directory : Path) {name : Bytes} (plain : IsPlain name) :
    HasParent (directory.join ⟨name⟩) directory := by
  have positive := List.length_pos_iff.2 plain.nonempty
  refine ⟨(isAbsolute_join directory plain).symm, ⟨[], name, ?_, by simp⟩, ?_, fun b inside => ?_⟩
  · rw [names_join directory plain, List.append_nil]
  · rw [join, plain.isAbsolute, if_neg (by simp)]
    split_ifs
    · simp only [List.length_append]
      omega
    · simp only [List.length_append, List.length_cons]
      omega
  · rw [join, plain.isAbsolute, if_neg (by simp)]
    split_ifs
    · exact List.mem_append_left _ inside
    · exact List.mem_append_left _ inside

/-! ## Temporary siblings -/

/-- The name under which a row's file is written until it is complete. -/
def temporaryName (name : Bytes) (index : Nat) : Bytes :=
  dot :: (Destination.cleaned name ++ utf8 (Destination.temporaryMark ++ toString index))

/-- The temporary sibling of an entry is an entry of the same directory. -/
theorem temporary_join (directory : Path) {name : Bytes} (plain : IsPlain name) (index : Nat) :
    Destination.temporary (directory.join ⟨name⟩) index =
      directory.trimmed.join ⟨temporaryName name index⟩ := by
  rw [Destination.temporary, withFileName, fileName?_join directory plain,
    parent?_join directory plain]
  rfl

/-- The octets of a number. -/
def digits (n : Nat) : Bytes := Utf8.encode (Nat.toDigits 10 n)

/-- An octet that is a digit. -/
def isDigit (b : UInt8) : Bool := 0x30 ≤ b && b ≤ 0x39

theorem encode_digits {text : List Char} (all : ∀ c ∈ text, c.isDigit = true) :
    Utf8.encode text = text.map fun c => UInt8.ofNat c.toNat := by
  induction text with
  | nil => rfl
  | cons c rest ih =>
    have bounds := all c List.mem_cons_self
    simp only [Char.isDigit, Bool.and_eq_true, decide_eq_true_eq, UInt32.le_iff_toNat_le] at bounds
    have small : c.toNat < 0x80 := Nat.lt_of_le_of_lt bounds.2 (by decide)
    rw [Utf8.encode_cons, ih fun d member => all d (List.mem_cons_of_mem _ member),
      Utf8.encodeChar, Utf8.encodePoint, if_pos small]
    rfl

theorem bounds_of_mem_toDigits {c : Char} {n : Nat} (member : c ∈ Nat.toDigits 10 n) :
    0x30 ≤ c.toNat ∧ c.toNat ≤ 0x39 := by
  have bounds := Nat.isDigit_of_mem_toDigits (by decide) (by decide) member
  simp only [Char.isDigit, Bool.and_eq_true, decide_eq_true_eq, UInt32.le_iff_toNat_le] at bounds
  exact bounds

theorem digits_eq (n : Nat) : digits n = (Nat.toDigits 10 n).map fun c => UInt8.ofNat c.toNat :=
  encode_digits fun _ member => Nat.isDigit_of_mem_toDigits (by decide) (by decide) member

theorem isDigit_of_mem_digits {b : UInt8} {n : Nat} (member : b ∈ digits n) : isDigit b = true := by
  rw [digits_eq] at member
  obtain ⟨c, inside, rfl⟩ := List.mem_map.1 member
  have bounds := bounds_of_mem_toDigits inside
  simp only [isDigit, UInt8.le_iff_toNat_le, Bool.and_eq_true, decide_eq_true_eq,
    UInt8.toNat_ofNat']
  constructor <;> simp <;> omega

/-- Different numbers have different octets. -/
theorem digits_injective {m n : Nat} (same : digits m = digits n) : m = n := by
  have back : ∀ k, (digits k).map (fun b => Char.ofNat b.toNat) = Nat.toDigits 10 k := by
    intro k
    rw [digits_eq, List.map_map]
    conv_rhs => rw [← List.map_id (Nat.toDigits 10 k)]
    refine List.map_congr_left fun c member => ?_
    have bounds := bounds_of_mem_toDigits member
    show Char.ofNat (UInt8.ofNat c.toNat).toNat = c
    rw [UInt8.toNat_ofNat', Nat.mod_eq_of_lt (by omega), Char.ofNat_toNat]
  have chars : Nat.toDigits 10 m = Nat.toDigits 10 n := by rw [← back m, same, back n]
  rw [← Nat.ofDigitChars_ten_toDigits (n := m), chars, Nat.ofDigitChars_ten_toDigits]

/-- A temporary name ends in a hyphen and the row's index. -/
theorem temporaryName_eq (name : Bytes) (index : Nat) :
    ∃ before, temporaryName name index = before ++ 0x2D :: digits index := by
  have mark : Destination.temporaryMark.toList = ".rowmerge-tmp".toList ++ ['-'] := by decide
  refine ⟨dot :: (Destination.cleaned name ++ utf8 ".rowmerge-tmp"), ?_⟩
  rw [temporaryName, utf8, String.toList_append, mark, Utf8.encode_append, Utf8.encode_append]
  have number : (toString index).toList = Nat.toDigits 10 index := Nat.toList_repr
  have hyphen : Utf8.encode ['-'] = [0x2D] := by decide
  rw [number, hyphen]
  simp [utf8, digits]

/-- The index of a row can be read off the name of its temporary file. -/
theorem temporaryName_index {left right : Bytes} {i j : Nat}
    (same : temporaryName left i = temporaryName right j) : i = j := by
  have last : ∀ (before : Bytes) (n : Nat),
      (before ++ 0x2D :: digits n).reverse.takeWhile isDigit = (digits n).reverse := by
    intro before n
    have stop : isDigit 0x2D = false := by decide
    rw [List.reverse_append, List.reverse_cons, List.append_assoc, List.takeWhile_append_of_pos
      fun b member => isDigit_of_mem_digits (List.mem_reverse.1 member)]
    simp [stop]
  obtain ⟨before, left⟩ := temporaryName_eq left i
  obtain ⟨before', right⟩ := temporaryName_eq right j
  have reversed : (digits i).reverse = (digits j).reverse := by
    rw [← last before i, ← last before' j, ← left, ← right, same]
  exact digits_injective (List.reverse_inj.1 reversed)

/-- The name of a destination and the index of a row can be read off the name of the temporary file. -/
theorem temporaryName_inj {left right : Bytes} {i j : Nat} :
    temporaryName left i = temporaryName right j ↔
      Destination.cleaned left = Destination.cleaned right ∧ i = j := by
  constructor
  · intro same
    obtain rfl := temporaryName_index same
    exact ⟨List.append_cancel_right (List.cons.inj same).2, rfl⟩
  · rintro ⟨same, rfl⟩
    rw [temporaryName, temporaryName, same]

/-- A temporary name is longer than the name it is made from. -/
theorem length_lt_temporaryName (name : Bytes) (index : Nat) :
    name.length < (temporaryName name index).length := by
  have := Destination.length_le_cleaned name
  simp only [temporaryName, List.length_cons, List.length_append]
  omega

theorem temporaryName_ne (name : Bytes) (index : Nat) : temporaryName name index ≠ name := by
  intro same
  have longer := length_lt_temporaryName name index
  rw [same] at longer
  exact Nat.lt_irrefl _ longer

/-- The mark and the index have no slash in them. -/
theorem slash_not_mem_mark (index : Nat) :
    slash ∉ utf8 (Destination.temporaryMark ++ toString index) := by
  intro member
  rw [utf8, String.toList_append, Utf8.encode_append] at member
  rcases List.mem_append.1 member with mark | number
  · exact absurd mark (by decide)
  · have number : slash ∈ digits index := by
      rwa [show (toString index).toList = Nat.toDigits 10 index from Nat.toList_repr] at number
    exact absurd (isDigit_of_mem_digits number) (by decide)

theorem isPlain_temporaryName {name : Bytes} (plain : IsPlain name) (index : Nat) :
    IsPlain (temporaryName name index) := by
  have long : 14 ≤ (utf8 (Destination.temporaryMark ++ toString index)).length := by
    rw [utf8, String.toList_append, Utf8.encode_append, List.length_append]
    exact Nat.le_add_right_of_le (by decide)
  have size : (temporaryName name index).length = 1 + (Destination.cleaned name).length +
      (utf8 (Destination.temporaryMark ++ toString index)).length := by
    simp only [temporaryName, List.length_cons, List.length_append]
    omega
  have differs : ∀ short : Bytes, short.length < 3 → temporaryName name index ≠ short := by
    rintro short bound rfl
    omega
  refine ⟨differs [] (by decide), ?_, differs [dot] (by decide), differs [dot, dot] (by decide)⟩
  intro member
  rcases List.mem_cons.1 member with first | member
  · exact absurd first (by decide)
  · rcases List.mem_append.1 member with stem | mark
    · exact plain.noSlash (Destination.mem_of_mem_cleaned stem (by decide))
    · exact slash_not_mem_mark index mark

end MailMerge.Path
