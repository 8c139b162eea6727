import MailMerge.Journal.Filter
import MailMerge.Settings.Sections

/-!
# Command line flags

The arguments of the program are flags, and some flags take a value: the next argument, or what
stands behind an equals sign in the same one, or behind a flag of one letter.  Letters of flags without
a value may share an argument.

An argument that looks like a flag is never taken as the value of the flag before it.  A value that
stands in an argument of its own is judged only when the next flag that takes part in the parsing is
met, or at the end; so an unknown flag behind a bad value is what is reported.  Each flag may be given
once.
-/

namespace MailMerge

set_option autoImplicit false

/-- What is wrong with the arguments, or the wish for help. -/
inductive UsageFault where
  /-- An argument is no flag and no value of one. -/
  | unknownArgument
  /-- A value is missing, or is none of those that are possible. -/
  | invalidValue
  /-- A value is not a number. -/
  | valueValidation
  /-- A value is not text. -/
  | invalidUtf8
  /-- A flag is given twice. -/
  | argumentConflict
  /-- A flag without a value is given one. -/
  | tooManyValues
  /-- Help is wanted. -/
  | displayHelp
  deriving DecidableEq, Repr

/-- The exit code when the program ends because of its arguments. -/
def UsageFault.exitCode : UsageFault → Nat
  | .displayHelp => 0
  | _ => 2

/-- What the flags say.  What they leave open is left to the settings file and the defaults. -/
structure Flags where
  /-- The path of the dataset. -/
  dataset : Option Path := none
  /-- The path of the template. -/
  template : Option Path := none
  /-- The directory for the files. -/
  outputDir : Option Path := none
  /-- Where the names of the files come from. -/
  naming : Option Naming := none
  /-- The text that was given for the delimiter. -/
  delimiter : Option String := none
  /-- What a failing row means for the others. -/
  onError : Option ErrorPolicy := none
  /-- What a repeated destination means for the later row. -/
  onDuplicate : Option DuplicatePolicy := none
  /-- How many rows may be in the making at the same time. -/
  concurrency : Option Nat := none
  /-- The path of the settings file. -/
  config : Option Path := none
  /-- Whether to say only where each row would go. -/
  dryRun : Bool := false
  /-- Where to write the report. -/
  reportJson : Option Path := none
  /-- Whether notices are written as JSON. -/
  logJson : Bool := false
  /-- Whether to say more. -/
  verbose : Bool := false
  deriving DecidableEq

namespace Flags

/-! ## The flags there are -/

/-- A flag. -/
inductive Flag where
  | dataset
  | template
  | outputDir
  | mode
  | delimiter
  | onError
  | onDuplicate
  | concurrency
  | config
  | dryRun
  | reportJson
  | logJson
  | verbose
  | help
  deriving DecidableEq, Repr

/-- The name of a flag behind two hyphens. -/
def Flag.name : Flag → String
  | .dataset => "dataset"
  | .template => "template"
  | .outputDir => "output-dir"
  | .mode => "mode"
  | .delimiter => "delimiter"
  | .onError => "on-error"
  | .onDuplicate => "on-duplicate"
  | .concurrency => "concurrency"
  | .config => "config"
  | .dryRun => "dry-run"
  | .reportJson => "report-json"
  | .logJson => "log-json"
  | .verbose => "verbose"
  | .help => "help"

/-- All flags. -/
def Flag.all : List Flag :=
  [.dataset, .template, .outputDir, .mode, .delimiter, .onError, .onDuplicate, .concurrency,
    .config, .dryRun, .reportJson, .logJson, .verbose, .help]

/-- Whether a flag takes a value. -/
def Flag.takesValue : Flag → Bool
  | .dryRun | .logJson | .verbose | .help => false
  | _ => true

/-- The flag with this name. -/
def Flag.ofName? (name : Bytes) : Option Flag := Flag.all.find? fun flag => utf8 flag.name == name

/-- The flag with this letter. -/
def Flag.ofLetter? (letter : UInt8) : Option Flag :=
  if letter = 0x63 then some .config
  else if letter = 0x76 then some .verbose
  else if letter = 0x68 then some .help
  else none

/-! ## Values -/

/-- The text of a value. -/
def textValue (value : Bytes) : Except UsageFault String :=
  match Utf8.decode value with
  | .ok text => .ok (.ofList text)
  | .error _ => .error .invalidUtf8

/-- A value that is a path. -/
def pathValue (value : Bytes) : Except UsageFault Path :=
  if value.isEmpty then .error .invalidValue else .ok ⟨value⟩

/-- A value that is one of two words. -/
def choiceValue {α : Type} (first second : String × α) (value : Bytes) : Except UsageFault α :=
  if value = utf8 first.1 then .ok first.2
  else if value = utf8 second.1 then .ok second.2
  else .error .invalidValue

/-- A value that is a count, in decimal digits, perhaps with a plus sign in front. -/
def countValue (value : Bytes) : Except UsageFault Nat := do
  let text ← textValue value
  let digits := match text.toList with
    | '+' :: rest => rest
    | chars => chars
  match Journal.digitsValue? digits with
  | some n => if n ≤ Datum.countLimit then .ok n else .error .valueValidation
  | none => .error .valueValidation

/-- The flags with the value of one of them set. -/
def setValue (flags : Flags) (flag : Flag) (value : Bytes) : Except UsageFault Flags := do
  match flag with
  | .dataset => return { flags with dataset := ← pathValue value }
  | .template => return { flags with template := ← pathValue value }
  | .outputDir => return { flags with outputDir := ← pathValue value }
  | .mode =>
    return { flags with
      naming := ← choiceValue ("fixed", Naming.fixed) ("from-record", Naming.fromRecord) value }
  | .delimiter => return { flags with delimiter := ← textValue value }
  | .onError =>
    return { flags with
      onError := ← choiceValue ("continue", ErrorPolicy.continue) ("abort", ErrorPolicy.abort) value }
  | .onDuplicate =>
    return { flags with
      onDuplicate :=
        ← choiceValue ("overwrite", DuplicatePolicy.overwrite) ("error", DuplicatePolicy.error) value }
  | .concurrency => return { flags with concurrency := ← countValue value }
  | .config => return { flags with config := ← pathValue value }
  | .reportJson => return { flags with reportJson := ← pathValue value }
  | .dryRun => return { flags with dryRun := true }
  | .logJson => return { flags with logJson := true }
  | .verbose => return { flags with verbose := true }
  | .help => .error .displayHelp

/-! ## Parsing -/

/-- How far the arguments have been parsed. -/
structure Parsing where
  /-- What they say so far. -/
  flags : Flags := {}
  /-- The flags that were given. -/
  given : List Flag := []
  /-- A flag that waits for its value, with the value if it has come. -/
  waiting : Option (Flag × Option Bytes) := none

/-- Take note of a flag and its value, if it has one. -/
def Parsing.accept (parsing : Parsing) (flag : Flag) (value : Bytes) :
    Except UsageFault Parsing :=
  if flag = .help then .error .displayHelp
  else if parsing.given.contains flag then .error .argumentConflict
  else
    match parsing.flags.setValue flag value with
    | .ok flags => .ok { parsing with flags, given := flag :: parsing.given }
    | .error fault => .error fault

/-- Judge the flag that waits for its value. -/
def Parsing.resolve (parsing : Parsing) : Except UsageFault Parsing :=
  match parsing.waiting with
  | none => .ok parsing
  | some (_, none) => .error .invalidValue
  | some (flag, some value) => { parsing with waiting := none }.accept flag value

/-- Take note of a flag and its value, after the flag before it has been judged. -/
def Parsing.take (parsing : Parsing) (flag : Flag) (value : Bytes) : Except UsageFault Parsing := do
  let parsing ← parsing.resolve
  parsing.accept flag value

/-- Let a flag wait for its value. -/
def Parsing.await (parsing : Parsing) (flag : Flag) : Except UsageFault Parsing := do
  let parsing ← parsing.resolve
  return { parsing with waiting := some (flag, none) }

/-- The octet of the hyphen. -/
def hyphen : UInt8 := 0x2D

/-- The octet of the equals sign. -/
def equalsSign : UInt8 := 0x3D

/-- Parse an argument behind its two hyphens. -/
def Parsing.long (parsing : Parsing) (text : Bytes) : Except UsageFault Parsing :=
  let name := text.takeWhile (· != equalsSign)
  match Flag.ofName? name, text.dropWhile (· != equalsSign) with
  | none, _ => .error .unknownArgument
  | some flag, [] => if flag.takesValue then parsing.await flag else parsing.take flag []
  | some flag, _ :: value =>
    if flag.takesValue then parsing.take flag value else .error .tooManyValues

/-- Parse an argument behind its one hyphen, letter by letter. -/
def Parsing.short (parsing : Parsing) : Bytes → Except UsageFault Parsing
  | [] => .ok parsing
  | letter :: rest =>
    match Flag.ofLetter? letter with
    | none => .error .unknownArgument
    | some flag =>
      if flag.takesValue then
        match rest with
        | [] => parsing.await flag
        | first :: behind => parsing.take flag (if first = equalsSign then behind else rest)
      else
        match parsing.take flag [] with
        | .ok parsing => parsing.short rest
        | .error fault => .error fault

/-- Parse the arguments, until two hyphens alone end the flags. -/
def Parsing.arguments (parsing : Parsing) : List Bytes → Except UsageFault Parsing
  | [] => parsing.resolve
  | argument :: rest =>
    match argument with
    | [0x2D, 0x2D] => if rest.isEmpty then parsing.resolve else .error .unknownArgument
    | 0x2D :: 0x2D :: text =>
      match parsing.long text with
      | .ok parsing => parsing.arguments rest
      | .error fault => .error fault
    | 0x2D :: letter :: text =>
      match parsing.short (letter :: text) with
      | .ok parsing => parsing.arguments rest
      | .error fault => .error fault
    | value =>
      match parsing.waiting with
      | some (flag, none) =>
        { parsing with waiting := some (flag, some value) }.arguments rest
      | _ => .error .unknownArgument

/-- What the arguments of the program say. -/
def parse (arguments : List Bytes) : Except UsageFault Flags := do
  let parsing ← Parsing.arguments {} arguments
  return parsing.flags

/-! ## From flags to settings -/

/-- The settings with what the flags say in place of what was there. -/
def override (flags : Flags) (settings : Settings) : Settings where
  name := settings.name
  dataset := flags.dataset.getD settings.dataset
  template := flags.template.getD settings.template
  outputDir := flags.outputDir.or settings.outputDir
  delimiter := flags.delimiter.or settings.delimiter
  naming := flags.naming.getD settings.naming
  errorPolicy := flags.onError.getD settings.errorPolicy
  duplicatePolicy := flags.onDuplicate.getD settings.duplicatePolicy
  concurrency := flags.concurrency.getD settings.concurrency
  logLevel := if flags.verbose then some "debug" else settings.logLevel

end Flags

end MailMerge
