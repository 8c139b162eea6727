import MailMerge.Datum
import MailMerge.Fault

/-!
# Failures

Everything that can go wrong in a merge, as one type of causes.  A cause carries what its message
names and nothing else; the wording is in `Failure.message` alone.

Failures are grouped twice.  The category says which part of the job is concerned, and the severity,
a function of the category, says how bad the failure is for the program's exit code.  Advice and the
friendly form of the message follow from the cause and the category.
-/

namespace MailMerge

set_option autoImplicit false

/-! ## Causes -/

/-- What is wrong with the name of a file to generate. -/
inductive NameProblem where
  /-- The template path does not end in a plain name. -/
  | templateHasNone
  /-- The name is blank. -/
  | empty
  /-- The name has a slash or a backslash in it. -/
  | separator
  /-- The name means the directory itself or the one above. -/
  | directory
  /-- The name has the character zero in it. -/
  | nul
  /-- A reason given in words. -/
  | other (text : String)
  deriving DecidableEq, Repr

/-- The problem in words. -/
def NameProblem.message : NameProblem → String
  | .templateHasNone => "template path has no file name"
  | .empty => "file name is empty"
  | .separator => "file name contains a path separator"
  | .directory => "file name refers to a directory"
  | .nul => "file name contains null bytes"
  | .other text => text

/-- What is wrong with the shape of a dataset. -/
inductive DatasetProblem where
  /-- There is no header, or it is blank. -/
  | noHeader
  /-- The column with this number, counted from one, has no name. -/
  | unnamedColumn (number : Nat)
  /-- Two columns have this name. -/
  | repeatedColumn (name : String)
  /-- A record has more or fewer fields than the header. -/
  | fieldCount (expected found : Nat)
  /-- The file is not text. -/
  | notText (error : Utf8.DecodeError)
  /-- A reason given in words. -/
  | other (text : String)
  deriving DecidableEq, Repr

/-- The problem in words. -/
def DatasetProblem.message : DatasetProblem → String
  | .noHeader => "dataset has no header row"
  | .unnamedColumn number => "column " ++ toString number ++ " has an empty header"
  | .repeatedColumn name => "duplicate column '" ++ name ++ "'"
  | .fieldCount expected found =>
    "expected " ++ toString expected ++ " fields but found " ++ toString found
  | .notText error => "dataset is not valid UTF-8: " ++ error.message
  | .other text => text

/-- Why the records of a dataset could not be read. -/
inductive RecordProblem where
  /-- A field of a record is not text. -/
  | fieldNotText (record line byte field index : Nat)
  /-- The records could not be fetched. -/
  | unreadable (fault : Fault)
  deriving DecidableEq, Repr

/-- The problem of the field alone, if it is one. -/
def RecordProblem.cause? : RecordProblem → Option String
  | .fieldNotText _ _ _ field index =>
    some ("invalid utf-8: invalid UTF-8 in field " ++ toString field ++ " near byte index " ++
      toString index)
  | .unreadable fault => some fault.message

/-- The problem in words. -/
def RecordProblem.message : RecordProblem → String
  | .fieldNotText record line byte field index =>
    "CSV parse error: record " ++ toString record ++ " (line " ++ toString line ++ ", field: " ++
      toString field ++ ", byte: " ++ toString byte ++
      "): invalid utf-8: invalid UTF-8 in field " ++ toString field ++ " near byte index " ++
      toString index
  | .unreadable fault => fault.message

/-- What is wrong with the value of a setting. -/
inductive SettingProblem where
  /-- A path is blank. -/
  | emptyPath
  /-- A path has the character zero in it. -/
  | nulInPath
  /-- A number is outside its bounds. -/
  | outOfRange (low high : Int)
  /-- A delimiter is not one suitable character. -/
  | badDelimiter
  /-- A reason given in words. -/
  | other (text : String)
  deriving DecidableEq, Repr

/-- The problem in words. -/
def SettingProblem.message : SettingProblem → String
  | .emptyPath => "Path cannot be empty"
  | .nulInPath => "Path contains null bytes"
  | .outOfRange low high => "Value must be between " ++ toString low ++ " and " ++ toString high
  | .badDelimiter => "Delimiter must be a single ASCII character other than quote or newline"
  | .other text => text

/-- Why a document holds no settings. -/
inductive DocumentProblem where
  /-- The text is no document of the expected format. -/
  | malformed
  /-- A value in the document is not what it should be. -/
  | unreadable (misfit : Datum.Misfit)
  /-- A reason given in words. -/
  | other (text : String)
  deriving DecidableEq, Repr

/-- The problem in words. -/
def DocumentProblem.message : DocumentProblem → String
  | .malformed => "TOML parsing error: the text is no document"
  | .unreadable misfit => "TOML parsing error: " ++ misfit.message
  | .other text => text

/-- The cause of a failure. -/
inductive Failure where
  /-- The template is not a file. -/
  | templateNotFound (path : Path)
  /-- A row has none of the fields that could name its file. -/
  | missingField (tried : List String) (row : Nat)
  /-- A row's file cannot have the name that was given. -/
  | invalidName (value : String) (problem : NameProblem)
  /-- Two rows have the same destination, and that is not allowed. -/
  | duplicateDestination (path : Path) (firstRow row : Nat)
  /-- An operation on a file failed. -/
  | io (path : Path) (fault : Fault)
  /-- The dataset is not a table. -/
  | dataset (line : Nat) (problem : DatasetProblem)
  /-- The records of the dataset could not be read. -/
  | records (problem : RecordProblem)
  /-- The report or the settings could not be turned into or from a document. -/
  | serialization (text : String)
  /-- The run was cancelled. -/
  | cancelled
  /-- The settings as a whole are unusable. -/
  | configuration (text : String)
  /-- A part of the settings is unusable. -/
  | invalidConfiguration (field : String) (problem : DocumentProblem)
  /-- A setting has a value that it cannot have. -/
  | invalidSetting (field value : String) (problem : SettingProblem)
  deriving DecidableEq, Repr

namespace Failure

/-- The failure in words. -/
def message : Failure → String
  | .templateNotFound path => "Template file not found: " ++ path.display
  | .missingField tried row =>
    "Row " ++ toString row ++ ": none of the file name fields " ++ ", ".intercalate tried ++
      " is present"
  | .invalidName value problem =>
    "Invalid destination name '" ++ value ++ "': " ++ problem.message
  | .duplicateDestination path firstRow row =>
    "Row " ++ toString row ++ " resolves to " ++ path.display ++ " which row " ++
      toString firstRow ++ " already generated"
  | .io path fault => "IO error on " ++ path.display ++ ": " ++ fault.message
  | .dataset line problem =>
    "Dataset format error at line " ++ toString line ++ ": " ++ problem.message
  | .records problem => "CSV processing error: " ++ problem.message
  | .serialization text => "Serialization error: " ++ text
  | .cancelled => "Generation cancelled"
  | .configuration text => "Configuration error: " ++ text
  | .invalidConfiguration field problem =>
    "Configuration validation error in '" ++ field ++ "': " ++ problem.message
  | .invalidSetting field value problem =>
    "Invalid value '" ++ value ++ "' for '" ++ field ++ "': " ++ problem.message

/-- The deeper causes of the failure in words, from the nearest on. -/
def causes : Failure → List String
  | .io _ fault => [fault.message]
  | .records (.unreadable fault) => [fault.message]
  | .records problem => problem.message :: problem.cause?.toList
  | .serialization text => [text]
  | _ => []

/-! ## Grouping -/

/-- The part of the job that a failure concerns. -/
inductive Category where
  | template
  | record
  | io
  | dataset
  | config
  | cancelled
  deriving DecidableEq, Repr

/-- The name of a category in a report. -/
def Category.label : Category → String
  | .template => "template"
  | .record => "record"
  | .io => "io"
  | .dataset => "dataset"
  | .config => "config"
  | .cancelled => "cancelled"

/-- How bad a failure is, from harmless to the worst. -/
inductive Severity where
  | low
  | medium
  | high
  | critical
  deriving DecidableEq, Repr

/-- The name of a severity. -/
def Severity.label : Severity → String
  | .low => "Low"
  | .medium => "Medium"
  | .high => "High"
  | .critical => "Critical"

/-- The place of a severity in the order from harmless to the worst. -/
def Severity.rank : Severity → Nat
  | .low => 0
  | .medium => 1
  | .high => 2
  | .critical => 3

/-- The exit code of a program that ends with a failure of this severity. -/
def Severity.exitCode : Severity → Nat
  | .low => 0
  | .medium => 2
  | .high => 1
  | .critical => 3

/-- The category of a failure. -/
def category : Failure → Category
  | .templateNotFound _ => .template
  | .missingField .. | .invalidName .. | .duplicateDestination .. => .record
  | .io .. | .serialization _ => .io
  | .dataset .. | .records _ => .dataset
  | .cancelled => .cancelled
  | .configuration _ | .invalidConfiguration .. | .invalidSetting .. => .config

/-- The severity of the failures of a category. -/
def Category.severity : Category → Severity
  | .cancelled => .low
  | .record => .medium
  | .template | .dataset | .config => .high
  | .io => .critical

/-- The severity of a failure. -/
def severity (failure : Failure) : Severity := failure.category.severity

/-! ## Advice -/

/-- What to do about a failure. -/
def suggestion : Failure → String
  | .templateNotFound _ => "Check the template path or pass --template with an existing file"
  | .missingField .. => "Add a FileName (or Dateiname) column to the dataset, or use --mode fixed"
  | .invalidName .. =>
    "Use plain file names without directory separators in the FileName column"
  | .duplicateDestination .. =>
    "Make the FileName values unique or allow overwriting with --on-duplicate overwrite"
  | .io .. => "Check that the output directory exists and is writable"
  | .dataset .. | .records _ =>
    "Check the dataset header row and that every row has the same number of columns"
  | .serialization _ => "Check the report output path"
  | .cancelled => "Run the job again to generate the remaining files"
  | .configuration _ | .invalidConfiguration .. | .invalidSetting .. =>
    "Review the configuration file and command line flags"

/-- The failure in words for a person who does not know the program. -/
def friendlyMessage (failure : Failure) : String :=
  match failure.category with
  | .template => "Template problem: " ++ failure.message
  | .record => "Record problem: " ++ failure.message
  | .io => "File system problem: " ++ failure.message
  | .dataset => "Dataset problem: " ++ failure.message
  | .config => "Configuration problem: " ++ failure.message
  | .cancelled => "Generation was cancelled before all rows finished"

end Failure

end MailMerge
