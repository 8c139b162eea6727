import Mathlib.Tactic.Common
import MailMerge.FileTree

/-!
# The names of a path

The file system reads a path as a list of names, and everything that a path leads to depends on
these names and on whether the path starts at the root.  This module says what the operations on
paths do to the names: putting an entry behind a directory appends one name (`names_join`), and
taking the parent drops the last name together with the dots before it (`lineage_ancestors`).

A path is trimmed when nothing but its last component stands at its end.  Parents are trimmed, and
so are their parents, which is why the ancestors of a directory form a chain in which every path is
one name longer than the next.
-/

namespace MailMerge.Path

set_option autoImplicit false

/-! ## Splitting and joining -/

theorem splitSlashes_ne_nil (octets : Bytes) : splitSlashes octets ≠ [] := by
  cases octets with
  | nil => simp [splitSlashes]
  | cons b rest =>
    simp only [splitSlashes]
    split
    · simp
    · split <;> simp

theorem splitSlashes_cons {b : UInt8} (other : b ≠ slash) (rest : Bytes) :
    ∃ segment more, splitSlashes rest = segment :: more ∧
      splitSlashes (b :: rest) = (b :: segment) :: more := by
  cases split : splitSlashes rest with
  | nil => exact absurd split (splitSlashes_ne_nil rest)
  | cons segment more => exact ⟨segment, more, rfl, by simp [splitSlashes, other, split]⟩

theorem slash_not_mem_of_mem_splitSlashes {octets segment : Bytes}
    (member : segment ∈ splitSlashes octets) : slash ∉ segment := by
  induction octets generalizing segment with
  | nil => simp_all [splitSlashes]
  | cons b rest ih =>
    by_cases here : b = slash
    · rw [splitSlashes, if_pos here] at member
      rcases List.mem_cons.1 member with rfl | later
      · simp
      · exact ih later
    · obtain ⟨first, more, before, after⟩ := splitSlashes_cons here rest
      rw [after] at member
      rcases List.mem_cons.1 member with rfl | later
      · have := ih (before ▸ List.mem_cons_self)
        simp_all [Ne.symm here]
      · exact ih (before ▸ List.mem_cons_of_mem _ later)

theorem splitSlashes_of_slash_not_mem {octets : Bytes} (none : slash ∉ octets) :
    splitSlashes octets = [octets] := by
  induction octets with
  | nil => rfl
  | cons b rest ih =>
    simp only [List.mem_cons, not_or] at none
    simp [splitSlashes, Ne.symm none.1, ih none.2]

theorem splitSlashes_append (left right : Bytes) :
    splitSlashes (left ++ slash :: right) = splitSlashes left ++ splitSlashes right := by
  induction left with
  | nil => simp [splitSlashes]
  | cons b rest ih =>
    by_cases here : b = slash
    · simp [splitSlashes, here, ih]
    · obtain ⟨segment, more, before, after⟩ := splitSlashes_cons here rest
      rw [after, List.cons_append, splitSlashes, if_neg here, ih, before]
      rfl

theorem splitSlashes_joinSlashes {segments : List Bytes} (nonempty : segments ≠ [])
    (plain : ∀ segment ∈ segments, slash ∉ segment) :
    splitSlashes (joinSlashes segments) = segments := by
  induction segments with
  | nil => exact absurd rfl nonempty
  | cons segment more ih =>
    have here := splitSlashes_of_slash_not_mem (plain segment List.mem_cons_self)
    cases more with
    | nil => simpa [joinSlashes] using here
    | cons next more =>
      rw [joinSlashes, splitSlashes_append, here,
        ih (by simp) fun other member => plain other (List.mem_cons_of_mem _ member)]
      · rfl
      · simp

theorem joinSlashes_append {left right : List Bytes} (before : left ≠ []) (after : right ≠ []) :
    joinSlashes (left ++ right) = joinSlashes left ++ slash :: joinSlashes right := by
  induction left with
  | nil => exact absurd rfl before
  | cons segment more ih =>
    cases more with
    | nil =>
      cases right with
      | nil => exact absurd rfl after
      | cons next rest => rfl
    | cons next rest =>
      have := ih (by simp)
      simp only [List.cons_append] at this ⊢
      rw [joinSlashes, this]
      · simp [joinSlashes]
      · simp

/-! ## Names -/

/-- The names in a path, dots included. -/
def names (path : Path) : List Bytes := (splitSlashes path.bytes).filter (· != [])

theorem segments_of_absolute {octets : Bytes} :
    (⟨slash :: octets⟩ : Path).segments = splitSlashes octets := by
  simp [segments, isAbsolute]

theorem segments_of_relative {path : Path} (relative : path.isAbsolute = false) :
    path.segments = splitSlashes path.bytes := by
  simp [segments, relative]

theorem exists_of_isAbsolute {path : Path} (absolute : path.isAbsolute = true) :
    ∃ octets, path = ⟨slash :: octets⟩ := by
  obtain ⟨bytes⟩ := path
  cases bytes with
  | nil => simp [isAbsolute] at absolute
  | cons b rest => exact ⟨rest, by simpa [isAbsolute] using absolute⟩

theorem names_eq_segments (path : Path) : path.names = path.segments.filter (· != []) := by
  cases start : path.isAbsolute with
  | false => rw [names, segments_of_relative start]
  | true =>
    obtain ⟨octets, rfl⟩ := exists_of_isAbsolute start
    simp [names, segments_of_absolute, splitSlashes]

theorem slash_not_mem_of_mem_segments {path : Path} {segment : Bytes}
    (member : segment ∈ path.segments) : slash ∉ segment :=
  slash_not_mem_of_mem_splitSlashes member

/-- The first segment of a relative path is empty only if the path is. -/
theorem bytes_eq_nil_of_head_segments {path : Path} (relative : path.isAbsolute = false)
    (first : path.segments.head? = some []) : path.bytes = [] := by
  obtain ⟨bytes⟩ := path
  cases bytes with
  | nil => rfl
  | cons b rest =>
    have other : b ≠ slash := by simpa [isAbsolute] using relative
    obtain ⟨segment, more, _, after⟩ := splitSlashes_cons other rest
    rw [segments_of_relative relative, after] at first
    simp at first

/-! ## What is dropped at the end -/

theorem isFiller_iff {segment : Bytes} :
    isFiller segment = true ↔ segment = [] ∨ segment = [dot] := by
  simp [isFiller]

/-- What is dropped are fillers, and the rest stays. -/
theorem dropFiller_spec (absolute : Bool) (backwards : List Bytes) :
    ∃ fillers, backwards = fillers ++ dropFiller absolute backwards ∧
      ∀ segment ∈ fillers, isFiller segment = true := by
  unfold dropFiller
  have whole := List.takeWhile_append_dropWhile (p := isFiller) (l := backwards)
  have fillers : ∀ segment ∈ backwards.takeWhile isFiller, isFiller segment = true :=
    List.all_eq_true.1 List.all_takeWhile
  cases kept : backwards.dropWhile isFiller with
  | cons last before => exact ⟨_, (kept ▸ whole).symm, fillers⟩
  | nil =>
    rw [kept, List.append_nil] at whole
    rw [whole] at fillers
    simp only
    split
    case isFalse => exact ⟨backwards, by simp, fillers⟩
    case isTrue start =>
      obtain ⟨_, start⟩ := Bool.and_eq_true_iff.1 start
      obtain ⟨init, rfl⟩ := List.getLast?_eq_some_iff.1 (beq_iff_eq.1 start)
      exact ⟨init, rfl, fun segment member => fillers segment (List.mem_append_left _ member)⟩

/-- What is kept has a real name at its end, or is the single dot of the path `.`. -/
theorem dropFiller_cons {absolute : Bool} {backwards before : List Bytes} {last : Bytes}
    (kept : dropFiller absolute backwards = last :: before) :
    isFiller last = false ∨ (absolute = false ∧ last = [dot] ∧ before = []) := by
  unfold dropFiller at kept
  split at kept
  · split at kept
    · simp_all
    · cases kept
  · next rest _ =>
    refine .inl ?_
    have := List.head?_dropWhile_not isFiller backwards
    rw [kept] at this
    simpa using this

theorem dropFiller_idem (absolute : Bool) (backwards : List Bytes) :
    dropFiller absolute (dropFiller absolute backwards) = dropFiller absolute backwards := by
  cases kept : dropFiller absolute backwards with
  | nil => simp [dropFiller]
  | cons last before =>
    rcases dropFiller_cons kept with real | ⟨rfl, rfl, rfl⟩
    · simp [dropFiller, real]
    · simp [dropFiller, isFiller]

/-- Fillers in front of everything else are dropped. -/
theorem dropFiller_nil_cons (absolute : Bool) (backwards : List Bytes) :
    dropFiller absolute ([] :: backwards) = dropFiller absolute backwards := by
  have first : isFiller [] = true := by simp [isFiller]
  cases backwards with
  | nil => simp [dropFiller, first]
  | cons segment more => simp [dropFiller, List.dropWhile_cons, first]

/-! ## Paths that end in a component -/

/-- Segments, last first, of a path that ends in its last component. -/
structure Kept (absolute : Bool) (backwards : List Bytes) : Prop where
  dropped : dropFiller absolute backwards = backwards
  plain : ∀ segment ∈ backwards, slash ∉ segment
  relative : absolute = false → ∀ segment, backwards.getLast? = some segment → segment ≠ []

/-- A part of the segments from the start on ends in its last component when what stands at its end
is dropped. -/
theorem kept_dropFiller {absolute : Bool} {backwards : List Bytes}
    (plain : ∀ segment ∈ backwards, slash ∉ segment)
    (relative : absolute = false → ∀ segment, backwards.getLast? = some segment →
      segment = [] → backwards = [[]]) : Kept absolute (dropFiller absolute backwards) := by
  obtain ⟨fillers, whole, _⟩ := dropFiller_spec absolute backwards
  refine ⟨dropFiller_idem _ _, fun segment member => plain segment ?_, ?_⟩
  · rw [whole]
    exact List.mem_append_right _ member
  · intro start segment last empty
    have nonempty : dropFiller absolute backwards ≠ [] := by
      intro none
      simp [none] at last
    have single := relative start segment (by rw [whole, List.getLast?_append, last]; rfl) empty
    rw [single, dropFiller_nil_cons] at nonempty
    simp [dropFiller] at nonempty

theorem segments_ofBackwards {absolute : Bool} {backwards : List Bytes}
    (kept : Kept absolute backwards) (nonempty : backwards ≠ []) :
    (ofBackwards absolute backwards).isAbsolute = absolute ∧
      (ofBackwards absolute backwards).segments = backwards.reverse := by
  have back : splitSlashes (joinSlashes backwards.reverse) = backwards.reverse :=
    splitSlashes_joinSlashes (by simpa using nonempty) fun segment member =>
      kept.plain segment (List.mem_reverse.1 member)
  cases absolute with
  | true =>
    refine ⟨by simp [ofBackwards, isAbsolute], ?_⟩
    simpa [ofBackwards] using segments_of_absolute.trans back
  | false =>
    have start : (ofBackwards false backwards).isAbsolute = false := by
      cases bytes : joinSlashes backwards.reverse with
      | nil => simp [ofBackwards, isAbsolute, bytes]
      | cons b rest =>
        -- A slash in front would be the end of an empty first segment.
        have other : b ≠ slash := by
          rintro rfl
          rw [bytes] at back
          simp only [splitSlashes, if_true] at back
          refine kept.relative rfl [] ?_ rfl
          rw [← List.head?_reverse, ← back]
          rfl
        simp [ofBackwards, isAbsolute, bytes, other]
    refine ⟨start, ?_⟩
    rw [segments_of_relative start]
    simpa [ofBackwards] using back

theorem ofBackwards_nil (absolute : Bool) :
    (ofBackwards absolute []).isAbsolute = absolute ∧
      (ofBackwards absolute []).segments = [[]] := by
  cases absolute <;> exact ⟨rfl, rfl⟩

theorem isAbsolute_ofBackwards {absolute : Bool} {backwards : List Bytes}
    (kept : Kept absolute backwards) : (ofBackwards absolute backwards).isAbsolute = absolute := by
  by_cases empty : backwards = []
  · rw [empty]
    exact (ofBackwards_nil absolute).1
  · exact (segments_ofBackwards kept empty).1

theorem names_ofBackwards {absolute : Bool} {backwards : List Bytes}
    (kept : Kept absolute backwards) :
    (ofBackwards absolute backwards).names = backwards.reverse.filter (· != []) := by
  rw [names_eq_segments]
  by_cases empty : backwards = []
  · rw [empty, (ofBackwards_nil absolute).2]
    rfl
  · rw [(segments_ofBackwards kept empty).2]

theorem parent?_ofBackwards {absolute : Bool} {backwards : List Bytes}
    (kept : Kept absolute backwards) :
    (ofBackwards absolute backwards).parent? =
      match backwards with
      | [] => none
      | _ :: before => some (ofBackwards absolute (dropFiller absolute before)) := by
  unfold parent?
  cases backwards with
  | nil =>
    rw [(ofBackwards_nil absolute).1, (ofBackwards_nil absolute).2]
    simp [dropFiller, isFiller]
  | cons last before =>
    obtain ⟨start, segments⟩ := segments_ofBackwards kept (by simp)
    rw [start, segments, List.reverse_reverse, kept.dropped]

/-! ## Ancestors -/

/-- What a path and the path of its directory have to do with each other. -/
structure HasParent (path parent : Path) : Prop where
  start : parent.isAbsolute = path.isAbsolute
  names : ∃ dots last, path.names = parent.names ++ dots ++ [last] ∧ ∀ name ∈ dots, name = [dot]
  shorter : parent.bytes.length < path.bytes.length
  octets : ∀ b ∈ parent.bytes, b ∈ path.bytes

/-- Paths each of which is the parent of the one before, up to one without names. -/
inductive Lineage : List Path → Prop where
  | top {path : Path} : path.names = [] → Lineage [path]
  | step {path parent : Path} {above : List Path} :
      HasParent path parent → Lineage (parent :: above) → Lineage (path :: parent :: above)

theorem eq_dot_of_filler {fillers : List Bytes}
    (all : ∀ segment ∈ fillers, isFiller segment = true) :
    ∀ name ∈ fillers.filter (· != []), name = [dot] := by
  intro name member
  obtain ⟨member, nonempty⟩ := List.mem_filter.1 member
  rcases isFiller_iff.1 (all name member) with rfl | rfl
  · simp at nonempty
  · rfl

theorem kept_parent {absolute : Bool} {before : List Bytes} {last : Bytes}
    (kept : Kept absolute (last :: before)) : Kept absolute (dropFiller absolute before) := by
  refine kept_dropFiller
    (fun segment member => kept.plain segment (List.mem_cons_of_mem _ member)) ?_
  intro start segment first empty
  refine absurd empty (kept.relative start segment ?_)
  cases before with
  | nil => simp at first
  | cons next rest => rwa [List.getLast?_cons_cons]

/-- The last component of a path that ends in one is not empty. -/
theorem Kept.last_ne_nil {absolute : Bool} {before : List Bytes} {last : Bytes}
    (kept : Kept absolute (last :: before)) : last ≠ [] := by
  rintro rfl
  rcases dropFiller_cons kept.dropped with real | ⟨_, same, _⟩
  · simp [isFiller] at real
  · cases same

theorem hasParent_ofBackwards {absolute : Bool} {before : List Bytes} {last : Bytes}
    (kept : Kept absolute (last :: before)) :
    HasParent (ofBackwards absolute (last :: before))
      (ofBackwards absolute (dropFiller absolute before)) := by
  obtain ⟨fillers, whole, all⟩ := dropFiller_spec absolute before
  have nonempty := kept.last_ne_nil
  -- The text of the path is the text of its parent with something behind it.
  have text : ∃ octets, octets ≠ [] ∧ joinSlashes (last :: before).reverse =
      joinSlashes (dropFiller absolute before).reverse ++ octets := by
    have tail : joinSlashes (fillers.reverse ++ [last]) ≠ [] := by
      cases first : fillers.reverse with
      | nil => simpa [joinSlashes] using nonempty
      | cons filler more =>
        rw [joinSlashes_append (by simp) (by simp)]
        simp
    have segments : (last :: before).reverse =
        (dropFiller absolute before).reverse ++ (fillers.reverse ++ [last]) := by
      conv_lhs => rw [whole]
      simp
    rw [segments]
    by_cases empty : dropFiller absolute before = []
    · exact ⟨_, tail, by simp [empty, joinSlashes]⟩
    · rw [joinSlashes_append (by simpa using empty) (by simp)]
      exact ⟨_, by simp, rfl⟩
  obtain ⟨octets, more, text⟩ := text
  refine ⟨?_, ⟨(fillers.filter (· != [])).reverse, last, ?_, ?_⟩, ?_, ?_⟩
  · rw [isAbsolute_ofBackwards kept, isAbsolute_ofBackwards (kept_parent kept)]
  · rw [names_ofBackwards kept, names_ofBackwards (kept_parent kept)]
    conv_lhs => rw [whole]
    simp [nonempty, List.filter_reverse]
  · intro name member
    exact eq_dot_of_filler all name (List.mem_reverse.1 member)
  · have := List.length_pos_iff.2 more
    simp only [ofBackwards, text, List.length_append]
    omega
  · intro b member
    simp only [ofBackwards, text, List.mem_append] at member ⊢
    rcases member with root | inside
    · exact .inl root
    · exact .inr (.inl inside)

theorem ancestors_eq_cons (depth : Nat) (path : Path) :
    ∃ above, FileTree.ancestors depth path = path :: above := by
  cases depth with
  | zero => exact ⟨[], rfl⟩
  | succ depth =>
    rw [FileTree.ancestors]
    split
    · exact ⟨[], rfl⟩
    · exact ⟨_, rfl⟩

/-- The ancestors of a path that ends in a component are a lineage. -/
theorem lineage_ancestors {absolute : Bool} (depth : Nat) {backwards : List Bytes}
    (kept : Kept absolute backwards)
    (enough : (ofBackwards absolute backwards).bytes.length ≤ depth) :
    Lineage (FileTree.ancestors depth (ofBackwards absolute backwards)) := by
  induction depth generalizing backwards with
  | zero =>
    refine .top ?_
    have none : (ofBackwards absolute backwards).bytes = [] :=
      List.length_eq_zero_iff.1 (Nat.le_zero.1 enough)
    simp [names, none, splitSlashes]
  | succ depth ih =>
    have parent := parent?_ofBackwards kept
    cases backwards with
    | nil =>
      rw [FileTree.ancestors, parent]
      refine .top ?_
      rw [names_ofBackwards kept]
      rfl
    | cons last before =>
      have above := hasParent_ofBackwards kept
      rw [FileTree.ancestors, parent]
      have shorter := above.shorter
      have rest := ih (kept_parent kept) (by omega)
      obtain ⟨further, same⟩ :=
        ancestors_eq_cons depth (ofBackwards absolute (dropFiller absolute before))
      simp only [same] at rest ⊢
      exact .step above rest

end MailMerge.Path
