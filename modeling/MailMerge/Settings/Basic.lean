import MailMerge.Request
import MailMerge.Text.Quoted

/-!
# Settings

The settings of one run, after all sources of settings have been merged.  `Settings.check` says
whether a run can be started with them; the first thing that is wrong is what is reported, in the
order dataset, template, output directory, concurrency, delimiter.
-/

namespace MailMerge

set_option autoImplicit false

/-- The settings of one run. -/
structure Settings where
  /-- A label for the run. -/
  name : Option String := none
  /-- The path of the dataset. -/
  dataset : Path := .ofString "data.csv"
  /-- The path of the template. -/
  template : Path := .ofString "template.txt"
  /-- The directory for the files, if it is not the template's. -/
  outputDir : Option Path := none
  /-- The text that was given for the delimiter. -/
  delimiter : Option String := none
  /-- Where the names of the files come from. -/
  naming : Naming := .fromRecord
  /-- What a failing row means for the others. -/
  errorPolicy : ErrorPolicy := .continue
  /-- What a repeated destination means for the later row. -/
  duplicatePolicy : DuplicatePolicy := .overwrite
  /-- How many rows may be in the making at the same time. -/
  concurrency : Nat := 1
  /-- The level of the notices that are displayed. -/
  logLevel : Option String := none
  deriving DecidableEq

namespace Settings

/-- The greatest number of rows that may be in the making at the same time. -/
def maxConcurrency : Nat := 64

/-! ## Checks -/

/-- Check that a path is neither blank nor has the character zero in it. -/
def checkPath (field text : String) : Except Failure Unit :=
  if isBlankText text then .error (.invalidSetting field text .emptyPath)
  else if text.toList.contains (Char.ofNat 0) then .error (.invalidSetting field text .nulInPath)
  else .ok ()

/-- Check that a number is within its bounds. -/
def checkRange (field : String) (value low high : Int) : Except Failure Unit :=
  if value < low || high < value then
    .error (.invalidSetting field (toString value) (.outOfRange low high))
  else .ok ()

/-- Whether a character may separate fields: any of the basic alphabet but the quotation mark and the
two that end a line. -/
def isDelimiter (c : Char) : Bool := c.toNat < 128 && c != '"' && c != '\n' && c != '\r'

/-- The octet that a delimiter stands for. -/
def checkDelimiter (field text : String) : Except Failure UInt8 :=
  match text.toList with
  | [c] =>
    if isDelimiter c then .ok (.ofNat c.toNat)
    else .error (.invalidSetting field text .badDelimiter)
  | _ => .error (.invalidSetting field text .badDelimiter)

/-- The octet of the delimiter in the settings, if one is given. -/
def delimiterOctet (settings : Settings) : Except Failure (Option UInt8) :=
  match settings.delimiter with
  | none => .ok none
  | some text =>
    match checkDelimiter "delimiter" text with
    | .ok octet => .ok (some octet)
    | .error failure => .error failure

/-- Check that the output directory, if one is given, can be one. -/
def checkOutputDir (settings : Settings) : Except Failure Unit :=
  match settings.outputDir with
  | none => .ok ()
  | some path => checkPath "output_dir" path.display

/-- Check whether a run can be started with the settings. -/
def check (settings : Settings) : Except Failure Unit := do
  checkPath "dataset" settings.dataset.display
  checkPath "template" settings.template.display
  settings.checkOutputDir
  checkRange "concurrency" settings.concurrency 1 maxConcurrency
  let _ ← settings.delimiterOctet
  return ()

/-! ## From settings to a request -/

/-- The request of a run over some rows. -/
def request (settings : Settings) (rows : List Row) : Request where
  template := settings.template
  rows := rows
  naming := settings.naming
  outputDir := settings.outputDir
  errorPolicy := settings.errorPolicy
  duplicatePolicy := settings.duplicatePolicy
  concurrency := max settings.concurrency 1

/-! ## Settings in a notice -/

/-- An optional value in a notice. -/
def describeOption {α : Type} (describe : α → String) : Option α → String
  | none => "None"
  | some value => "Some(" ++ describe value ++ ")"

/-- The naming in a notice. -/
def describeNaming : Naming → String
  | .fixed => "Fixed"
  | .fromRecord => "FromRecord"

/-- The error policy in a notice. -/
def describeErrorPolicy : ErrorPolicy → String
  | .continue => "Continue"
  | .abort => "Abort"

/-- The duplicate policy in a notice. -/
def describeDuplicatePolicy : DuplicatePolicy → String
  | .overwrite => "Overwrite"
  | .error => "Error"

/-- All settings in a notice. -/
def describe (settings : Settings) : String :=
  "JobConfig \x7b name: " ++ describeOption Quoted.string settings.name ++
    ", dataset: " ++ Quoted.octets settings.dataset.bytes ++
    ", template: " ++ Quoted.octets settings.template.bytes ++
    ", output_dir: " ++ describeOption (fun path => Quoted.octets path.bytes) settings.outputDir ++
    ", delimiter: " ++ describeOption Quoted.string settings.delimiter ++
    ", mode: " ++ describeNaming settings.naming ++
    ", error_policy: " ++ describeErrorPolicy settings.errorPolicy ++
    ", duplicate_policy: " ++ describeDuplicatePolicy settings.duplicatePolicy ++
    ", concurrency: " ++ toString settings.concurrency ++
    ", log_level: " ++ describeOption Quoted.string settings.logLevel ++ " \x7d"

end Settings

end MailMerge
