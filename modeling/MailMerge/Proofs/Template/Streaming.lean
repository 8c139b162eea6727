import MailMerge.Proofs.Template.OnePass
import MailMerge.Proofs.Template.Reading

/-!
# Filling a template as a stream

A file is made line by line, so that neither the template nor the file has to be held as a whole.  If
no name of the row has a line feed in it, this makes no difference: the lines, each filled by itself
and with its own ending behind it, are the text filled as a whole (`flatMap_fill_eq_substitute`).

The reason is that a token ends in a brace and has no line feed, so that no occurrence of it reaches
into an ending, or out of one (`unspanned_before_ending`, `unspanned_after_ending`).  This is true of
any text in front of an ending, so it does not matter what earlier fields have brought into the lines,
not even if these are line breaks of their own: the boundaries that count are those of the template
(`foldl_replaceField_line`).
-/

namespace MailMerge.Template

set_option autoImplicit false

/-! ## Tokens and endings -/

/-- A part at the end of a text has its last character. -/
theorem mem_of_suffix {part text : List Char} {c : Char} (last : text.getLast? = some c)
    (nonempty : part ≠ []) (suffix : part <:+ text) : c ∈ part := by
  obtain ⟨before, rfl⟩ := suffix
  rw [List.getLast?_append_of_ne_nil _ nonempty] at last
  exact List.mem_of_getLast? last

theorem getLast?_token (name : List Char) : (token name).getLast? = some '}' := by
  rw [token, ← List.cons_append, ← List.cons_append, List.getLast?_append_of_ne_nil _ (by simp)]
  rfl

theorem getLast?_ending {ending : Ending} (ended : ending ≠ .none) :
    ending.chars.getLast? = some '\n' := by
  cases ending with
  | none => exact absurd rfl ended
  | lf => rfl
  | crlf => rfl

theorem brace_notMem_ending (ending : Ending) : '}' ∉ ending.chars := by
  cases ending <;> decide

theorem feed_mem_token {name : List Char} : '\n' ∈ token name ↔ '\n' ∈ name := by
  simp [token]

variable {name rest : List Char} {ending : Ending}

/-- No token reaches from the text before an ending into it. -/
theorem unspanned_before_ending (noFeed : '\n' ∉ name) (last : ending = .none → rest = [])
    (content : List Char) : Unspanned (token name) content (ending.chars ++ rest) := by
  intro front back whole _ nonempty _ starts
  have suffix : back <:+ token name := ⟨front, whole.symm⟩
  -- the token would end within the ending, which has no brace, or go on behind its line feed
  rcases List.prefix_or_prefix_of_prefix starts (List.prefix_append _ rest) with inside | beyond
  · exact brace_notMem_ending ending
      (inside.subset (mem_of_suffix (getLast?_token name) nonempty suffix))
  · by_cases unended : ending = .none
    · rw [last unended, unended] at starts
      exact nonempty (List.prefix_nil.1 starts)
    · have feed : '\n' ∈ back := beyond.subset (List.mem_of_getLast? (getLast?_ending unended))
      exact noFeed (feed_mem_token.1 (suffix.subset feed))

/-- No token reaches out of an ending into the text behind it. -/
theorem unspanned_after_ending (noFeed : '\n' ∉ name) (ending : Ending) (rest : List Char) :
    Unspanned (token name) ending.chars rest := by
  intro front back whole nonempty _ suffix _
  by_cases unended : ending = .none
  · rw [unended] at suffix
    exact nonempty (List.suffix_nil.1 suffix)
  · have feed : '\n' ∈ front := mem_of_suffix (getLast?_ending unended) nonempty suffix
    exact noFeed (feed_mem_token.1 (whole ▸ List.mem_append_left back feed))

/-- No token stands in an ending. -/
theorem replaceField_ending (ending : Ending) (field : String × String) :
    replaceField ending.chars field = ending.chars := by
  refine replaceAll_of_absent (fun inside => brace_notMem_ending ending ?_) _
  exact inside.subset (List.mem_of_getLast? (getLast?_token field.1.toList))

/-! ## Line by line -/

variable {fields : List (String × String)}

/-- One field is applied to a line and to what follows it. -/
theorem replaceField_line {field : String × String} (noFeed : '\n' ∉ field.1.toList)
    (content : List Char) (last : ending = .none → rest = []) :
    replaceField (content ++ (ending.chars ++ rest)) field =
      replaceField content field ++ (ending.chars ++ replaceField rest field) := by
  have into := unspanned_before_ending noFeed last content
  have outOf := unspanned_after_ending noFeed ending rest
  have kept := replaceField_ending ending field
  unfold replaceField at kept ⊢
  rw [replaceAll_append_of_unspanned (token_ne_nil _) into,
    replaceAll_append_of_unspanned (token_ne_nil _) outOf, kept]

theorem foldl_replaceField_nil (fields : List (String × String)) :
    fields.foldl replaceField [] = [] :=
  foldl_replaceField_of_absent (by simp)

/-- All fields are applied to a line and to what follows it. -/
theorem foldl_replaceField_line (noFeed : ∀ field ∈ fields, '\n' ∉ field.1.toList)
    (content : List Char) (last : ending = .none → rest = []) :
    fields.foldl replaceField (content ++ (ending.chars ++ rest)) =
      fields.foldl replaceField content ++ (ending.chars ++ fields.foldl replaceField rest) := by
  induction fields generalizing content rest with
  | nil => rfl
  | cons field fields ih =>
    have here := noFeed field List.mem_cons_self
    have later : ∀ other ∈ fields, '\n' ∉ other.1.toList :=
      fun other member => noFeed other (List.mem_cons_of_mem field member)
    have still : ending = .none → replaceField rest field = [] :=
      fun unended => by rw [last unended]; rfl
    rw [List.foldl_cons, replaceField_line here content last, ih later _ still]
    rfl

/-- All fields are applied to each line of a text. -/
theorem foldl_replaceField_lines (noFeed : ∀ field ∈ fields, '\n' ∉ field.1.toList)
    {all : List Line} (proper : AreProper all) :
    fields.foldl replaceField (all.flatMap Line.chars) =
      all.flatMap fun line => fields.foldl replaceField line.content.toList ++ line.ending.chars := by
  induction all with
  | nil => exact foldl_replaceField_nil fields
  | cons line all ih =>
    obtain ⟨_, last, later⟩ := areProper_cons.1 proper
    have followed : line.ending = .none → all.flatMap Line.chars = [] :=
      fun unended => by rw [last unended]; rfl
    simp only [List.flatMap_cons, Line.chars, List.append_assoc]
    rw [← ih later]
    exact foldl_replaceField_line noFeed line.content.toList followed

/-- A text is filled line by line: if no name of the row has a line feed in it, the lines of the text,
filled one by one and with their endings behind them, are the text filled as a whole. -/
theorem flatMap_fill_eq_substitute {row : Row} (names : ∀ name ∈ row.names, '\n' ∉ name.toList)
    (text : String) : ∃ all : List Line, lines (utf8 text) = all.map .ok ∧
      (all.flatMap fun line => utf8 (substitute row line.content) ++ Utf8.encode line.ending.chars) =
        utf8 (substitute row text) := by
  obtain ⟨all, same, whole, proper⟩ := exists_lines_of_text text
  have noFeed : ∀ field ∈ row.fields, '\n' ∉ field.1.toList :=
    fun field member => names field.1 (List.mem_map_of_mem member)
  have filled : fill row text.toList =
      all.flatMap fun line => fill row line.content.toList ++ line.ending.chars := by
    simp only [fill_eq, ← whole]
    exact foldl_replaceField_lines noFeed proper
  refine ⟨all, same, ?_⟩
  simp only [utf8, substitute, String.toList_ofList, filled, ← Utf8.encode_append]
  rw [Utf8.encode, List.flatMap_assoc]
  rfl

/-- A name with a brace and a carriage return in it, a value that brings a line feed and a token, a
carriage return before the token and no ending at the end of the text. -/
theorem flatMap_fill_eq_substitute_mixed :
    (∀ name ∈ (Row.ofPairs [("a\x7d\r", "\n{{b}}"), ("b", "x\r")]).names, '\n' ∉ name.toList) ∧
      ∃ all : List Line,
        lines (utf8 "\r\x7b\x7ba\x7d\r\x7d\x7d\r\n{{b}}\n\n{{c}}{{b}}") = all.map .ok ∧
          (all.flatMap fun line =>
            utf8 (substitute (Row.ofPairs [("a\x7d\r", "\n{{b}}"), ("b", "x\r")]) line.content) ++
              Utf8.encode line.ending.chars) =
            utf8 (substitute (Row.ofPairs [("a\x7d\r", "\n{{b}}"), ("b", "x\r")])
              "\r\x7b\x7ba\x7d\r\x7d\x7d\r\n{{b}}\n\n{{c}}{{b}}") := by
  have names : ∀ name ∈ (Row.ofPairs [("a\x7d\r", "\n{{b}}"), ("b", "x\r")]).names,
      '\n' ∉ name.toList := by decide +kernel
  exact ⟨names, flatMap_fill_eq_substitute names _⟩

end MailMerge.Template
