import Mathlib.Data.List.TakeWhile
import MailMerge.Proofs.Template.Streaming

/-!
# The names found in a text

A name is found in a text exactly if it is a name and its token stands somewhere in the text
(`mem_namesIn`).  A name may have a line feed in it, since only braces end a name.  Such a name is
found in a text as a whole, but in none of its lines.  All other names are found alike, and in the same
order, whether the text is searched as a whole or line by line (`namesIn_lines`), and this remains so
when of each name only the first appearance counts (`placeholders_flatMap`).
-/

namespace MailMerge.Template

set_option autoImplicit false

/-! ## Names and tokens -/

/-- The text begins with the placeholder of a name if it begins with the token of the name. -/
theorem leadingName?_eq_some {text name : List Char} : leadingName? text = some name ↔
    name ≠ [] ∧ (∀ c ∈ name, isNameChar c = true) ∧ token name <+: text := by
  constructor
  · intro found
    unfold leadingName? at found
    split at found
    case h_1 rest =>
      simp only at found
      split_ifs at found with blank closed
      obtain rfl := Option.some.inj found
      obtain ⟨more, closes⟩ := List.isPrefixOf_iff_prefix.1 closed
      refine ⟨by simpa using blank, fun c member => List.mem_takeWhile_imp member, more, ?_⟩
      rw [token, List.cons_append, List.cons_append, List.append_assoc, closes,
        List.takeWhile_append_dropWhile]
    case h_2 => simp at found
  · rintro ⟨some_, named, more, rfl⟩
    have ends : isNameChar '}' = false := rfl
    have first : (name ++ '}' :: '}' :: more).takeWhile isNameChar = name := by
      rw [List.takeWhile_append_of_pos named]
      simp [ends]
    have rest : (name ++ '}' :: '}' :: more).dropWhile isNameChar = '}' :: '}' :: more := by
      rw [List.dropWhile_append_of_pos named]
      simp [ends]
    simp [leadingName?, token, first, rest, some_]

theorem namesIn_cons (c : Char) (text : List Char) :
    namesIn (c :: text) = (leadingName? (c :: text)).toList ++ namesIn text := by
  rw [namesIn]
  cases leadingName? (c :: text) <;> rfl

/-- A name is found where its token stands. -/
theorem mem_namesIn {text name : List Char} : name ∈ namesIn text ↔
    name ≠ [] ∧ (∀ c ∈ name, isNameChar c = true) ∧ token name <:+: text := by
  induction text with
  | nil => simp [namesIn, token]
  | cons c text ih =>
    rw [namesIn_cons, List.mem_append, Option.mem_toList, leadingName?_eq_some, ih,
      List.infix_cons_iff]
    tauto

/-- A name is without braces if it consists of what a name may contain. -/
theorem unbraced_iff {name : String} :
    Unbraced name ↔ ∀ c ∈ name.toList, isNameChar c = true := by
  refine ⟨Unbraced.isNameChar, fun each => ⟨fun member => ?_, fun member => ?_⟩⟩
  · simpa [isNameChar] using each _ member
  · simpa [isNameChar] using each _ member

theorem mem_placeholders {text name : String} : name ∈ placeholders text ↔
    name ≠ "" ∧ Unbraced name ∧ token name.toList <:+: text.toList := by
  have found : name ∈ placeholders text ↔ name.toList ∈ namesIn text.toList := by
    rw [placeholders, List.mem_eraseDups, List.mem_map]
    constructor
    · rintro ⟨chars, member, rfl⟩
      rwa [String.toList_ofList]
    · intro member
      exact ⟨_, member, String.ofList_toList⟩
  rw [found, mem_namesIn, unbraced_iff, Ne, String.toList_eq_nil_iff]

/-! ## Line by line -/

variable {content rest : List Char} {ending : Ending}

/-- At the beginning of a part of a line the same name is found as in the line by itself, or one that
goes on behind the line. -/
theorem leadingName?_line {part : List Char} (nonempty : part ≠ []) (noFeed : '\n' ∉ part)
    (last : ending = .none → rest = []) :
    (leadingName? (part ++ (ending.chars ++ rest))).filter (fun name => '\n' ∉ name) =
      leadingName? part := by
  refine Option.ext fun name => ?_
  rw [Option.filter_eq_some_iff, leadingName?_eq_some, leadingName?_eq_some, decide_eq_true_eq]
  constructor
  · rintro ⟨⟨some_, named, starts⟩, unbroken⟩
    exact ⟨some_, named, (unspanned_before_ending unbroken last part).prefix_left nonempty starts⟩
  · rintro ⟨some_, named, starts⟩
    have unbroken : '\n' ∉ name :=
      fun member => noFeed (starts.subset (feed_mem_token.2 member))
    exact ⟨⟨some_, named, starts.trans (List.prefix_append _ _)⟩, unbroken⟩

theorem namesIn_ending (ending : Ending) (rest : List Char) :
    namesIn (ending.chars ++ rest) = namesIn rest := by
  cases ending <;> simp [Ending.chars, namesIn, leadingName?]

/-- In a line and what follows it, the names without line feeds are those of the line by itself, and
those of what follows. -/
theorem namesIn_line (noFeed : '\n' ∉ content) (last : ending = .none → rest = []) :
    (namesIn (content ++ (ending.chars ++ rest))).filter (fun name => '\n' ∉ name) =
      namesIn content ++ (namesIn rest).filter (fun name => '\n' ∉ name) := by
  induction content with
  | nil => rw [List.nil_append, namesIn_ending, namesIn, List.nil_append]
  | cons c content ih =>
    have here := leadingName?_line (List.cons_ne_nil c content) noFeed last
    have later := ih fun member => noFeed (List.mem_cons_of_mem c member)
    rw [List.cons_append] at here
    rw [List.cons_append, namesIn_cons, namesIn_cons, List.filter_append, later,
      ← Option.toList_filter, here, List.append_assoc]

/-- In a text, the names without line feeds are those of its lines. -/
theorem namesIn_lines {all : List Line} (proper : AreProper all) :
    (namesIn (all.flatMap Line.chars)).filter (fun name => '\n' ∉ name) =
      all.flatMap fun line => namesIn line.content.toList := by
  induction all with
  | nil => rfl
  | cons line all ih =>
    obtain ⟨first, last, later⟩ := areProper_cons.1 proper
    have followed : line.ending = .none → all.flatMap Line.chars = [] :=
      fun unended => by rw [last unended]; rfl
    rw [List.flatMap_cons, List.flatMap_cons, Line.chars, List.append_assoc,
      namesIn_line first.noFeed followed, ih later]

/-! ## First appearances -/

section First

variable {α β : Type} [BEq β]

/-- What is true of a list once its first item is left out of the rest is true of all lists.  This is how
repetitions are left out. -/
theorem eraseDups_induction {motive : List β → Prop} (nil : motive [])
    (cons : ∀ item items, motive (items.filter fun other => !other == item) → motive (item :: items))
    (items : List β) : motive items := by
  induction size : items.length using Nat.strongRecOn generalizing items with
  | ind count ih =>
    cases items with
    | nil => exact nil
    | cons item items =>
      have shorter := List.length_filter_le (fun other => !other == item) items
      apply cons
      apply ih _ _ _ rfl
      rw [← size, List.length_cons]
      omega

variable [LawfulBEq β]

/-- What is left out may be left out first. -/
theorem filter_eraseDups (keep : β → Bool) (items : List β) :
    items.eraseDups.filter keep = (items.filter keep).eraseDups := by
  induction items using eraseDups_induction with
  | nil => rfl
  | cons item items ih =>
    rw [List.eraseDups_cons, List.filter_cons, List.filter_cons, ih, List.filter_comm]
    split
    · rw [List.eraseDups_cons]
    case isFalse left =>
      have absent : ∀ other ∈ items.filter keep, (!other == item) = true := by
        intro other member
        obtain ⟨-, kept⟩ := List.mem_filter.1 member
        simp only [Bool.not_eq_true', beq_eq_false_iff_ne]
        rintro rfl
        exact left kept
      rw [List.filter_eq_self.2 absent]

theorem eraseDups_eraseDups (items : List β) : items.eraseDups.eraseDups = items.eraseDups := by
  induction items using eraseDups_induction with
  | nil => rfl
  | cons item items ih =>
    rw [List.eraseDups_cons, List.eraseDups_cons, filter_eraseDups, List.filter_filter]
    simp only [Bool.and_self]
    rw [ih]

/-- Repetitions within the parts of a list may be left out first. -/
theorem eraseDups_flatMap (parts : α → List β) (items : List α) :
    (items.flatMap fun item => (parts item).eraseDups).eraseDups =
      (items.flatMap parts).eraseDups := by
  induction items with
  | nil => rfl
  | cons item items ih =>
    have absent : (fun other => !(parts item).eraseDups.elem other) =
        fun other => !(parts item).elem other := by
      funext other
      rw [Bool.eq_iff_iff]
      simp [List.mem_eraseDups]
    rw [List.flatMap_cons, List.flatMap_cons, List.eraseDups_append, List.eraseDups_append,
      eraseDups_eraseDups, List.removeAll, List.removeAll, absent, ← filter_eraseDups, ih,
      filter_eraseDups]

end First

/-- The names without line feeds that are found in a text are those that are found in its lines. -/
theorem placeholders_flatMap {all : List Line} (proper : AreProper all) :
    (all.flatMap fun line => placeholders line.content).eraseDups =
      (placeholders (.ofList (all.flatMap Line.chars))).filter (fun name => '\n' ∉ name.toList) := by
  have unbroken : ((fun name : String => decide ('\n' ∉ name.toList)) ∘ String.ofList) =
      fun name => decide ('\n' ∉ name) := by
    funext name
    simp
  unfold placeholders
  rw [eraseDups_flatMap, filter_eraseDups, String.toList_ofList, List.filter_map, unbroken,
    namesIn_lines proper, List.map_flatMap]

end MailMerge.Template
