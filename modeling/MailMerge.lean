import MailMerge.Dataset.Delimiter
import MailMerge.Dataset.Record
import MailMerge.Dataset.Table
import MailMerge.Datum
import MailMerge.Destination
import MailMerge.Failure
import MailMerge.Fault
import MailMerge.FileTree
import MailMerge.Flags
import MailMerge.Journal.Filter
import MailMerge.Journal.Notice
import MailMerge.Json
import MailMerge.Main
import MailMerge.Path
import MailMerge.Program
import MailMerge.Proofs.Confinement
import MailMerge.Proofs.Dataset.Decoding
import MailMerge.Proofs.Dataset.Places
import MailMerge.Proofs.Dataset.RoundTrip
import MailMerge.Proofs.Dataset.Tables
import MailMerge.Proofs.Dataset.Written
import MailMerge.Proofs.Destination
import MailMerge.Proofs.Naming
import MailMerge.Proofs.Path.Components
import MailMerge.Proofs.Path.Extension
import MailMerge.Proofs.Path.Names
import MailMerge.Proofs.Path.Siblings
import MailMerge.Proofs.Plan
import MailMerge.Proofs.Program.ExitCode
import MailMerge.Proofs.Program.Stages
import MailMerge.Proofs.Repetitions
import MailMerge.Proofs.Report
import MailMerge.Proofs.Row
import MailMerge.Proofs.Run.Accounts
import MailMerge.Proofs.Run.Answers
import MailMerge.Proofs.Run.Assertions
import MailMerge.Proofs.Run.Changes
import MailMerge.Proofs.Run.Collisions
import MailMerge.Proofs.Run.Concurrency
import MailMerge.Proofs.Run.Contents
import MailMerge.Proofs.Run.Course
import MailMerge.Proofs.Run.Crew
import MailMerge.Proofs.Run.Drafts
import MailMerge.Proofs.Run.Duplicates
import MailMerge.Proofs.Run.Generation
import MailMerge.Proofs.Run.Going
import MailMerge.Proofs.Run.Making
import MailMerge.Proofs.Run.Moments
import MailMerge.Proofs.Run.Moves
import MailMerge.Proofs.Run.OneByOne
import MailMerge.Proofs.Run.Overwriting
import MailMerge.Proofs.Run.Passage
import MailMerge.Proofs.Run.Prefixes
import MailMerge.Proofs.Run.Processing
import MailMerge.Proofs.Run.Progress
import MailMerge.Proofs.Run.Refusals
import MailMerge.Proofs.Run.Reports
import MailMerge.Proofs.Run.Rereading
import MailMerge.Proofs.Run.Resumption
import MailMerge.Proofs.Run.Sequence
import MailMerge.Proofs.Run.Settling
import MailMerge.Proofs.Run.Site
import MailMerge.Proofs.Run.Solo
import MailMerge.Proofs.Run.Staging
import MailMerge.Proofs.Run.Tally
import MailMerge.Proofs.Run.Terms
import MailMerge.Proofs.Run.Unprovided
import MailMerge.Proofs.Run.Visible
import MailMerge.Proofs.Run.Writable
import MailMerge.Proofs.Run.Writing
import MailMerge.Proofs.Settings.Expansion
import MailMerge.Proofs.Settings.References
import MailMerge.Proofs.Temporaries
import MailMerge.Proofs.Template.Ascending
import MailMerge.Proofs.Template.Lines
import MailMerge.Proofs.Template.Names
import MailMerge.Proofs.Template.OnePass
import MailMerge.Proofs.Template.Reading
import MailMerge.Proofs.Template.Rereading
import MailMerge.Proofs.Template.Scan
import MailMerge.Proofs.Template.Segments
import MailMerge.Proofs.Template.Streaming
import MailMerge.Proofs.Template.Tokens
import MailMerge.Proofs.Template.Turns
import MailMerge.Proofs.Text.Encoding
import MailMerge.Proofs.Text.Order
import MailMerge.Proofs.Text.Pieces
import MailMerge.Proofs.Text.Search
import MailMerge.Proofs.Text.StandIn
import MailMerge.Proofs.Tree.Acceptance
import MailMerge.Proofs.Tree.Entries
import MailMerge.Proofs.Tree.Files
import MailMerge.Proofs.Tree.Making
import MailMerge.Proofs.Tree.Resolution
import MailMerge.Proofs.Tree.Templates
import MailMerge.Proofs.Tree.Texts
import MailMerge.Report
import MailMerge.Report.Document
import MailMerge.Request
import MailMerge.Row
import MailMerge.Run.Job
import MailMerge.Run.Process
import MailMerge.Run.Schedule
import MailMerge.Run.Staging
import MailMerge.Settings.Basic
import MailMerge.Settings.File
import MailMerge.Settings.Sections
import MailMerge.Settings.Variables
import MailMerge.Task
import MailMerge.Template.Line
import MailMerge.Template.Placeholder
import MailMerge.Text.Blank
import MailMerge.Text.Quoted
import MailMerge.Text.Search
import MailMerge.Text.Utf8
import MailMerge.Toml.Document
import MailMerge.Toml.Scalar
import MailMerge.Toml.Tables
import MailMerge.World
