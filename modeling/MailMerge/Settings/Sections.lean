import MailMerge.Settings.Basic
import MailMerge.Datum

/-!
# Settings in documents

The settings are written down in two shapes: flat, one field for each setting (`Settings.ofDatum`),
and in sections, as in a settings file (`Sections.ofDatum`).  Sections leave most settings open, and
`Sections.settings` gives those their default.
-/

namespace MailMerge

set_option autoImplicit false

open Datum (Misfit)

/-! ## Words for policies -/

/-- The naming that a word stands for. -/
def namingOf : Datum → Except Misfit Naming :=
  Datum.asChoice ("fixed", .fixed) ("from_record", .fromRecord)

/-- The error policy that a word stands for. -/
def errorPolicyOf : Datum → Except Misfit ErrorPolicy :=
  Datum.asChoice ("continue", .continue) ("abort", .abort)

/-- The duplicate policy that a word stands for. -/
def duplicatePolicyOf : Datum → Except Misfit DuplicatePolicy :=
  Datum.asChoice ("overwrite", .overwrite) ("error", .error)

/-! ## Flat settings -/

/-- Look at one field of flat settings. -/
def Settings.lookAt (name : String) (value : Datum) : Except Misfit Unit :=
  match name with
  | "name" | "delimiter" | "log_level" => Datum.readable (Datum.asOptional Datum.asText value)
  | "dataset" | "template" => Datum.readable value.asPath
  | "output_dir" => Datum.readable (Datum.asOptional Datum.asPath value)
  | "mode" => Datum.readable (namingOf value)
  | "error_policy" => Datum.readable (errorPolicyOf value)
  | "duplicate_policy" => Datum.readable (duplicatePolicyOf value)
  | "concurrency" => Datum.readable value.asCount
  | _ => .ok ()

/-- The settings that a document with one field for each setting holds. -/
def Settings.ofDatum (value : Datum) : Except Misfit Settings := do
  let fields ← value.asFields
    ["name", "dataset", "template", "output_dir", "delimiter", "mode", "error_policy",
      "duplicate_policy", "concurrency", "log_level"]
  Datum.checkGiven Settings.lookAt fields.given
  return {
    name := ← fields.optional "name" Datum.asText
    dataset := ← fields.required "dataset" Datum.asPath
    template := ← fields.required "template" Datum.asPath
    outputDir := ← fields.optional "output_dir" Datum.asPath
    delimiter := ← fields.optional "delimiter" Datum.asText
    naming := ← fields.required "mode" namingOf
    errorPolicy := ← fields.required "error_policy" errorPolicyOf
    duplicatePolicy := ← fields.required "duplicate_policy" duplicatePolicyOf
    concurrency := ← fields.required "concurrency" Datum.asCount
    logLevel := ← fields.optional "log_level" Datum.asText }

/-! ## Sections -/

/-- What the run is called. -/
structure JobSection where
  /-- A label for the run. -/
  name : String
  /-- What it is for. -/
  description : Option String
  deriving DecidableEq

/-- Where the rows come from. -/
structure SourceSection where
  /-- The path of the dataset. -/
  dataset : Path
  /-- The text that was given for the delimiter. -/
  delimiter : Option String
  deriving DecidableEq

/-- What the rows are put into. -/
structure TemplateSection where
  /-- The path of the template. -/
  path : Path
  /-- Where the names of the files come from. -/
  naming : Option Naming
  deriving DecidableEq

/-- Where the files go. -/
structure OutputSection where
  /-- The directory for the files. -/
  dir : Option Path
  /-- What a repeated destination means for the later row. -/
  onDuplicate : Option DuplicatePolicy
  deriving DecidableEq

/-- How the rows are gone through. -/
structure ProcessingSection where
  /-- What a failing row means for the others. -/
  onError : Option ErrorPolicy
  /-- How many rows may be in the making at the same time. -/
  concurrency : Option Nat
  deriving DecidableEq

/-- How notices are displayed. -/
structure LoggingSection where
  /-- The level of the notices that are displayed. -/
  level : Option String
  deriving DecidableEq

/-- The settings as a settings file has them. -/
structure Sections where
  /-- What the run is called. -/
  job : Option JobSection
  /-- Where the rows come from. -/
  source : SourceSection
  /-- What the rows are put into. -/
  template : TemplateSection
  /-- Where the files go. -/
  output : Option OutputSection
  /-- How the rows are gone through. -/
  processing : Option ProcessingSection
  /-- How notices are displayed. -/
  logging : Option LoggingSection
  deriving DecidableEq

/-- Look at one field of a section with two texts, of which the second may be absent. -/
def lookAtTexts (needed free : String) (name : String) (value : Datum) : Except Misfit Unit :=
  if name = needed then Datum.readable value.asText
  else if name = free then Datum.readable (Datum.asOptional Datum.asText value)
  else .ok ()

/-- The job section that a value holds. -/
def JobSection.ofDatum (value : Datum) : Except Misfit JobSection := do
  let fields ← value.asFields ["name", "description"]
  Datum.checkGiven (lookAtTexts "name" "description") fields.given
  return {
    name := ← fields.required "name" Datum.asText
    description := ← fields.optional "description" Datum.asText }

/-- The source section that a value holds. -/
def SourceSection.ofDatum (value : Datum) : Except Misfit SourceSection := do
  let fields ← value.asFields ["dataset", "delimiter"]
  Datum.checkGiven (lookAtTexts "dataset" "delimiter") fields.given
  return {
    dataset := ← fields.required "dataset" Datum.asPath
    delimiter := ← fields.optional "delimiter" Datum.asText }

/-- The template section that a value holds. -/
def TemplateSection.ofDatum (value : Datum) : Except Misfit TemplateSection := do
  let fields ← value.asFields ["path", "mode"]
  Datum.checkGiven
    (fun name value =>
      match name with
      | "path" => Datum.readable value.asPath
      | "mode" => Datum.readable (Datum.asOptional namingOf value)
      | _ => .ok ())
    fields.given
  return {
    path := ← fields.required "path" Datum.asPath
    naming := ← fields.optional "mode" namingOf }

/-- The output section that a value holds. -/
def OutputSection.ofDatum (value : Datum) : Except Misfit OutputSection := do
  let fields ← value.asFields ["dir", "on_duplicate"]
  Datum.checkGiven
    (fun name value =>
      match name with
      | "dir" => Datum.readable (Datum.asOptional Datum.asPath value)
      | "on_duplicate" => Datum.readable (Datum.asOptional duplicatePolicyOf value)
      | _ => .ok ())
    fields.given
  return {
    dir := ← fields.optional "dir" Datum.asPath
    onDuplicate := ← fields.optional "on_duplicate" duplicatePolicyOf }

/-- The processing section that a value holds. -/
def ProcessingSection.ofDatum (value : Datum) : Except Misfit ProcessingSection := do
  let fields ← value.asFields ["on_error", "concurrency"]
  Datum.checkGiven
    (fun name value =>
      match name with
      | "on_error" => Datum.readable (Datum.asOptional errorPolicyOf value)
      | "concurrency" => Datum.readable (Datum.asOptional Datum.asCount value)
      | _ => .ok ())
    fields.given
  return {
    onError := ← fields.optional "on_error" errorPolicyOf
    concurrency := ← fields.optional "concurrency" Datum.asCount }

/-- The logging section that a value holds. -/
def LoggingSection.ofDatum (value : Datum) : Except Misfit LoggingSection := do
  let fields ← value.asFields ["level"]
  Datum.checkGiven
    (fun name value =>
      match name with
      | "level" => Datum.readable (Datum.asOptional Datum.asText value)
      | _ => .ok ())
    fields.given
  return { level := ← fields.optional "level" Datum.asText }

/-- Look at one section. -/
def Sections.lookAt (name : String) (value : Datum) : Except Misfit Unit :=
  match name with
  | "job" => Datum.readable (Datum.asOptional JobSection.ofDatum value)
  | "source" => Datum.readable (SourceSection.ofDatum value)
  | "template" => Datum.readable (TemplateSection.ofDatum value)
  | "output" => Datum.readable (Datum.asOptional OutputSection.ofDatum value)
  | "processing" => Datum.readable (Datum.asOptional ProcessingSection.ofDatum value)
  | "logging" => Datum.readable (Datum.asOptional LoggingSection.ofDatum value)
  | _ => .ok ()

/-- The sections that a document holds. -/
def Sections.ofDatum (value : Datum) : Except Misfit Sections := do
  let fields ← value.asFields ["job", "source", "template", "output", "processing", "logging"]
  Datum.checkGiven Sections.lookAt fields.given
  return {
    job := ← fields.optional "job" JobSection.ofDatum
    source := ← fields.required "source" SourceSection.ofDatum
    template := ← fields.required "template" TemplateSection.ofDatum
    output := ← fields.optional "output" OutputSection.ofDatum
    processing := ← fields.optional "processing" ProcessingSection.ofDatum
    logging := ← fields.optional "logging" LoggingSection.ofDatum }

/-- The settings that the sections stand for, with the defaults for what they leave open. -/
def Sections.settings (sections : Sections) : Settings where
  name := sections.job.map JobSection.name
  dataset := sections.source.dataset
  template := sections.template.path
  outputDir := sections.output.bind OutputSection.dir
  delimiter := sections.source.delimiter
  naming := sections.template.naming.getD .fromRecord
  errorPolicy := (sections.processing.bind ProcessingSection.onError).getD .continue
  duplicatePolicy := (sections.output.bind OutputSection.onDuplicate).getD .overwrite
  concurrency := (sections.processing.bind ProcessingSection.concurrency).getD 1
  logLevel := sections.logging.bind LoggingSection.level

end MailMerge
