import Mathlib.Data.List.Basic
import MailMerge.Proofs.Settings.References
import MailMerge.Settings.File
import MailMerge.World

/-!
# Expanding the references of a text

The values are asked for before anything is replaced, and asking leaves the world as it is; so the
expanded text is that of one pass in which every reference has the value that its variable has in the
world (`run_expandVariables`).  Put on the one division of the text, it is the parts that are copied and
the values between them, and no value is looked at again (`expandVariables_divided`).

A reference whose variable is set is replaced exactly if nothing in front of it has opened a reference
that is not closed there (`expandVariables_reference`).  An opening that is not closed, be it in a
comment many lines before, takes the next reference as a part of its own name.

The system looks for an entry that begins with the name and an equals sign.  A name that holds an
equals sign itself can thus be found in the value of another variable
(`run_expandVariables_withinValue`), and for such names the entries matter whose name it begins with.
-/

namespace MailMerge

open Variables

set_option autoImplicit false

variable {world other : World} {text : String} {name : Bytes}

/-! ## Looking up -/

/-- The value of an environment variable, if it is set and text. -/
def World.text? (world : World) (name : String) : Option String :=
  (world.valueOf? (utf8 name)).bind fun octets =>
    match Utf8.decode octets with
    | .ok text => some (.ofList text)
    | .error _ => none

/-- The value that one entry has for a name. -/
def World.valueIn? (name : Bytes) (entry : Bytes × Bytes) : Option Bytes :=
  if (name ++ [0x3D]).isPrefixOf (entry.1 ++ 0x3D :: entry.2)
  then some ((entry.1 ++ 0x3D :: entry.2).drop (name.length + 1)) else none

theorem World.valueOf?_eq (world : World) (name : Bytes) : world.valueOf? name =
    if name.contains 0 then none else world.«variables».findSome? (valueIn? name) := rfl

theorem World.valueIn?_own (name value : Bytes) : valueIn? name (name, value) = some value := by
  have begins : (name ++ [0x3D]).isPrefixOf (name ++ 0x3D :: value) = true :=
    List.isPrefixOf_iff_prefix.2 ⟨value, by simp⟩
  rw [valueIn?, if_pos begins]
  simp

/-- The entry of another variable has no value for a name, unless the name begins with that of the
variable and an equals sign. -/
theorem World.valueIn?_eq_none {owner : Bytes} (plain : 0x3D ∉ owner) (differs : name ≠ owner)
    (apart : ¬ owner ++ [0x3D] <+: name) (value : Bytes) : valueIn? name (owner, value) = none := by
  apply if_neg
  intro begins
  obtain ⟨behind, same⟩ := List.isPrefixOf_iff_prefix.1 begins
  rw [List.append_assoc] at same
  rcases List.append_eq_append_iff.1 same with ⟨more, rfl, further⟩ | ⟨more, rfl, further⟩
  · cases more with
    | nil => exact differs (List.append_nil _).symm
    | cons b more =>
      obtain ⟨rfl, -⟩ := List.cons_eq_cons.1 further
      simp at plain
  · cases more with
    | nil => exact differs (List.append_nil _)
    | cons b more =>
      obtain ⟨rfl, -⟩ := List.cons_eq_cons.1 further
      exact apart ⟨more, by simp⟩

/-- A name without an equals sign is looked up among the names of the variables. -/
theorem World.valueOf?_eq_lookup (plain : ∀ entry ∈ world.«variables», 0x3D ∉ entry.1)
    (unequal : 0x3D ∉ name) (nonzero : 0 ∉ name) :
    world.valueOf? name = world.«variables».lookup name := by
  have allowed : name.contains 0 = false := by simpa using nonzero
  rw [World.valueOf?_eq, allowed, if_neg Bool.false_ne_true]
  generalize world.«variables» = entries at plain
  induction entries with
  | nil => rfl
  | cons entry entries ih =>
    obtain ⟨owner, value⟩ := entry
    obtain ⟨here, later⟩ := List.forall_mem_cons.1 plain
    rw [List.findSome?_cons, List.lookup_cons, ih later]
    by_cases same : name = owner
    · subst same
      simp [World.valueIn?_own]
    · have apart : ¬ owner ++ [0x3D] <+: name := by
        intro begins
        exact unequal (begins.subset (by simp))
      simp [World.valueIn?_eq_none here same apart, beq_false_of_ne same]

/-- The entries of another variable do not matter, unless the name begins with that of the variable and
an equals sign. -/
theorem World.valueOf?_congr {changed : Bytes} (plain : 0x3D ∉ changed)
    (same : world.«variables».filter (·.1 != changed) = other.«variables».filter (·.1 != changed))
    (differs : name ≠ changed) (apart : ¬ changed ++ [0x3D] <+: name) :
    world.valueOf? name = other.valueOf? name := by
  have passed (entries : List (Bytes × Bytes)) : entries.findSome? (World.valueIn? name) =
      (entries.filter (·.1 != changed)).findSome? (World.valueIn? name) := by
    induction entries with
    | nil => rfl
    | cons entry entries ih =>
      obtain ⟨owner, value⟩ := entry
      by_cases its : owner = changed
      · subst its
        simp [World.valueIn?_eq_none plain differs apart, ih]
      · simp [its, List.findSome?_cons, ih]
  rw [World.valueOf?_eq, World.valueOf?_eq, passed, same, ← passed]

/-! ## One pass -/

theorem Task.run_textVariable (name : String) (world : World) :
    (Task.textVariable name).run world = (world.text? name, world) := by
  have asked : (Task.perform (.variable name)).run world = (world.valueOf? (utf8 name), world) := rfl
  rw [Task.textVariable, Task.run_bind, asked, World.text?]
  cases world.valueOf? (utf8 name) with
  | none => rfl
  | some octets =>
    simp only [Option.bind_some]
    cases Utf8.decode octets <;> rfl

theorem Task.run_textVariables (names : List String) (world : World) :
    ((Task.textVariables names).run world).2 = world := by
  induction names with
  | nil => rfl
  | cons name rest ih =>
    simp only [Task.textVariables, Task.run_bind, Task.run_pure, Task.run_textVariable]
    exact ih

/-- The values that were asked for are those in the world. -/
theorem Task.lookup_run_textVariables (names : List String) (name : String) (world : World) :
    ((Task.textVariables names).run world).1.lookup name =
      if name ∈ names then world.text? name else none := by
  induction names with
  | nil => rfl
  | cons first names ih =>
    have values : ((Task.textVariables (first :: names)).run world).1 =
        ((world.text? first).map fun text => (first, text)).toList ++
          ((Task.textVariables names).run world).1 := by
      simp only [Task.textVariables, Task.run_bind, Task.run_textVariable, Task.run_pure]
    rw [values, List.lookup_append, ih]
    by_cases same : name = first
    · subst same
      cases value : world.text? name <;> simp
    · cases world.text? first <;> simp [same, beq_false_of_ne same]

namespace Variables

variable {value? other? : String → Option String}

/-- The expanded text depends on the names that are in the text. -/
theorem expand_congr (agree : ∀ name ∈ namesIn text, value? name = other? name) :
    expand value? text = expand other? text := by
  unfold expand
  unfold namesIn at agree
  refine congrArg String.ofList ?_
  generalize cut text.toList = pieces at agree
  induction pieces with
  | nil => rfl
  | cons piece pieces ih =>
    cases piece with
    | char c => simp [Piece.expand, ih agree]
    | reference name =>
      obtain ⟨here, later⟩ := List.forall_mem_cons.1 agree
      simp [Piece.expand, here, ih later]

theorem expand_of_cut {text front behind : List Char} {piece : Piece}
    (whole : cut text = cut front ++ piece :: cut behind) :
    expand value? (.ofList text) = expand value? (.ofList front) ++ .ofList (piece.expand value?) ++
      expand value? (.ofList behind) := by
  simp [expand, whole, String.ofList_append, String.append_assoc]

theorem expand_eq_rejoin {cuts : List (List Char × List Char)} {last : List Char}
    (divided : Divided text.toList cuts last) :
    expand value? text = .ofList (rejoin value? cuts last) := by
  rw [expand, pieces_of_divided divided, flatMap_expand_pieces]

end Variables

/-- Expanding the references of a text is one pass with the values in the world, which stays as it
is. -/
theorem run_expandVariables (text : String) (world : World) :
    (Task.expandVariables text).run world = (expand world.text? text, world) := by
  have values : ∀ name ∈ namesIn text,
      ((Task.textVariables (namesIn text)).run world).1.lookup name = world.text? name := by
    intro name member
    rw [Task.lookup_run_textVariables, if_pos member]
  rw [Task.expandVariables, Task.run_bind, Task.run_pure, Task.run_textVariables,
    expand_congr values]

/-! ## The references of a text -/

/-- A text has one division at its references, and expanding it gives the parts that are copied with
the values of the references between them, whatever the values are.  So the text stays as it is when
none of the names has a value, and a variable has no part in the result if none of the names is its own
or begins with its own and an equals sign.  A name without an equals sign has the value of the variable
of that name. -/
theorem expandVariables_divided (text : String) :
    ∃ cuts last,
      (∀ cuts' last', Divided text.toList cuts' last' ↔ cuts' = cuts ∧ last' = last) ∧
      ∀ world : World,
        (Task.expandVariables text).run world = (.ofList (rejoin world.text? cuts last), world) ∧
        ((∀ part ∈ cuts, world.text? (.ofList part.2) = none) →
          ((Task.expandVariables text).run world).1 = text) ∧
        (∀ (other : World) (changed : Bytes), 0x3D ∉ changed →
          world.«variables».filter (·.1 != changed) = other.«variables».filter (·.1 != changed) →
          (∀ part ∈ cuts, utf8 (.ofList part.2) ≠ changed ∧
            ¬ changed ++ [0x3D] <+: utf8 (.ofList part.2)) →
          ((Task.expandVariables text).run other).1 = ((Task.expandVariables text).run world).1) ∧
        ((∀ entry ∈ world.«variables», 0x3D ∉ entry.1) → ∀ name, 0x3D ∉ name → 0 ∉ name →
          world.valueOf? name = world.«variables».lookup name) := by
  generalize division : gather (cut text.toList) = both
  obtain ⟨cuts, last⟩ := both
  have divided : Divided text.toList cuts last := divided_iff.2 division.symm
  have expanded (world : World) :
      (Task.expandVariables text).run world = (.ofList (rejoin world.text? cuts last), world) := by
    rw [run_expandVariables, expand_eq_rejoin divided]
  refine ⟨cuts, last, fun cuts' last' => ?_, fun world => ⟨expanded world, ?_, ?_, ?_⟩⟩
  · rw [divided_iff, division, Prod.mk.injEq]
  · intro unset
    rw [expanded, divided.rejoin_eq unset, String.ofList_toList]
  · intro other changed plain same apart
    have agree : ∀ part ∈ cuts, other.text? (.ofList part.2) = world.text? (.ofList part.2) := by
      intro part member
      obtain ⟨differs, begins⟩ := apart part member
      rw [World.text?, World.text?, World.valueOf?_congr plain same differs begins]
    rw [expanded, expanded]
    refine congrArg String.ofList ?_
    unfold rejoin
    refine congrArg (· ++ last) (List.flatMap_congr fun part member => ?_)
    rw [standIn, standIn, agree part member]
  · intro plain name unequal nonzero
    exact World.valueOf?_eq_lookup plain unequal nonzero

/-- Nothing but these environment variables. -/
def World.setting (entries : List (String × String)) : World :=
  { tree := ⟨[], []⟩, «variables» := entries.map fun entry => (utf8 entry.1, utf8 entry.2) }

/-- A value that looks like a reference stays as it is, and so do an empty pair of braces and an open
one; the variable that the value names has no part in it, and without any variable nothing changes. -/
theorem expandVariables_divided_once :
    Divided "$\x7bA\x7d$\x7b\x7d $\x7bB".toList [([], ['A'])] "$\x7b\x7d $\x7bB".toList ∧
    ((Task.expandVariables "$\x7bA\x7d$\x7b\x7d $\x7bB").run
      (.setting [("A", "$\x7bB\x7d"), ("B", "b")])).1 = "$\x7bB\x7d$\x7b\x7d $\x7bB" ∧
    ((Task.expandVariables "$\x7bA\x7d$\x7b\x7d $\x7bB").run
      (.setting [("A", "$\x7bB\x7d"), ("B", "c")])).1 = "$\x7bB\x7d$\x7b\x7d $\x7bB" ∧
    ((Task.expandVariables "$\x7bA\x7d$\x7b\x7d $\x7bB").run (.setting [("B", "b")])).1 =
      "$\x7bA\x7d$\x7b\x7d $\x7bB" := by
  obtain ⟨cuts, last, only, expanded⟩ :=
    expandVariables_divided "$\x7bA\x7d$\x7b\x7d $\x7bB"
  have divided : Divided "$\x7bA\x7d$\x7b\x7d $\x7bB".toList [([], ['A'])]
      "$\x7b\x7d $\x7bB".toList := divided_iff.2 (by decide +kernel)
  obtain ⟨rfl, rfl⟩ := (only _ _).1 divided
  obtain ⟨once, -, apart, -⟩ := expanded (.setting [("A", "$\x7bB\x7d"), ("B", "b")])
  have first : ((Task.expandVariables "$\x7bA\x7d$\x7b\x7d $\x7bB").run
      (.setting [("A", "$\x7bB\x7d"), ("B", "b")])).1 = "$\x7bB\x7d$\x7b\x7d $\x7bB" := by
    rw [once]
    decide +kernel
  have changed := apart (.setting [("A", "$\x7bB\x7d"), ("B", "c")]) (utf8 "B") (by decide +kernel)
    (by decide +kernel) (by decide +kernel)
  obtain ⟨-, unset, -⟩ := expanded (.setting [("B", "b")])
  exact ⟨divided, first, changed.trans first, unset (by decide +kernel)⟩

/-- The name reaches into the value of a variable that is not among the names: of another value of it
the rest is put in, while the name has none with the first one. -/
theorem run_expandVariables_withinValue :
    namesIn "$\x7bA=B\x7d" = ["A=B"] ∧
    ((Task.expandVariables "$\x7bA=B\x7d").run (.setting [("A", "x")])).1 = "$\x7bA=B\x7d" ∧
    ((Task.expandVariables "$\x7bA=B\x7d").run (.setting [("A", "B=c")])).1 = "c" := by
  decide +kernel

/-! ## One reference -/

/-- A reference to a variable that is set is one of those that are cut out exactly if no opening in
front of it is left unclosed.  Then its value takes its place, and what is before and behind it is
expanded by itself.  Otherwise the first opening that is left unclosed has a name that reaches up to the
end of the reference, and that name is looked up instead. -/
theorem expandVariables_reference {before name : List Char} {value : String} (named : IsName name)
    (set : world.text? (.ofList name) = some value) (after : List Char) :
    (CutOut before name after ↔ ¬ Unclosed before) ∧
    (¬ Unclosed before →
      (Task.expandVariables (.ofList (before ++ (Piece.reference name).source ++ after))).run world =
        (expand world.text? (.ofList before) ++ value ++ expand world.text? (.ofList after), world)) ∧
    (Unclosed before → ∃ left inner,
      before = left ++ '$' :: '{' :: inner ∧ '}' ∉ inner ∧ ¬ Unclosed left ∧
      (Task.expandVariables (.ofList (before ++ (Piece.reference name).source ++ after))).run world =
        (expand world.text? (.ofList left) ++
          .ofList (standIn world.text? (inner ++ '$' :: '{' :: name)) ++
          expand world.text? (.ofList after), world)) := by
  refine ⟨cutOut_iff named, fun closed => ?_, fun unclosed => ?_⟩
  · have put : (Piece.reference name).expand world.text? = value.toList := by
      rw [expand_reference, standIn, set, Option.elim_some]
    rw [run_expandVariables, expand_of_cut (cut_append_reference closed named after), put,
      String.ofList_toList]
  · obtain ⟨left, inner, rfl, open_, first⟩ := unclosed.exists_first
    refine ⟨left, inner, rfl, open_, first, ?_⟩
    rw [run_expandVariables, expand_of_cut (cut_append_of_unclosed first open_ named after),
      expand_reference]

/-- Behind braces that are empty, a variable that is not set and a single dollar sign the reference is
found. -/
theorem expandVariables_reference_found :
    IsName ['A'] ∧ (World.setting [("A", "x")]).text? (.ofList ['A']) = some "x" ∧
    ¬ Unclosed "$\x7b\x7d $\x7bB\x7d $".toList ∧
    (Task.expandVariables (.ofList ("$\x7b\x7d $\x7bB\x7d $".toList ++
        (Piece.reference ['A']).source ++ "\n".toList))).run (.setting [("A", "x")]) =
      ("$\x7b\x7d $\x7bB\x7d $x\n", .setting [("A", "x")]) := by
  have named : IsName ['A'] := ⟨by decide, by decide⟩
  have set : (World.setting [("A", "x")]).text? (.ofList ['A']) = some "x" := by decide +kernel
  have among : CutOut "$\x7b\x7d $\x7bB\x7d $".toList ['A'] "\n".toList :=
    ⟨[.char '$', .char '\x7b', .char '\x7d', .char ' ', .reference ['B'], .char ' ', .char '$'],
      [.char '\n'], by decide +kernel, by decide +kernel⟩
  have closed : ¬ Unclosed "$\x7b\x7d $\x7bB\x7d $".toList := (cutOut_iff named).1 among
  have replaced := (expandVariables_reference named set "\n".toList).2.1 closed
  refine ⟨named, set, closed, ?_⟩
  rw [replaced]
  exact congrArg (·, _) (by decide +kernel)

/-- A comment that opens a reference takes the reference in the next line along. -/
theorem run_expandVariables_opened :
    (World.setting [("A", "x")]).text? "A" = some "x" ∧
    ((Task.expandVariables "# $\x7b\n$\x7bA\x7d").run (.setting [("A", "x")])).1 =
      "# $\x7b\n$\x7bA\x7d" := by
  decide +kernel

end MailMerge
