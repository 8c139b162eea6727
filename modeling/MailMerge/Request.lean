import MailMerge.Destination

/-!
# Requests and plans

A request says what to generate: a template, the rows, how destinations are named, and what to do
about failing rows and repeated destinations.  Its plan gives each row its destination, or the reason
why it has none, before anything is written.

A destination repeats when an earlier row resolved to a path with the same components.  Rows that do
not resolve leave no trace, so what counts is the first row that resolved to the path, even if later
ones were refused because of it.
-/

namespace MailMerge

set_option autoImplicit false

/-- What a failing row means for the rows after it. -/
inductive ErrorPolicy where
  /-- They are generated all the same. -/
  | continue
  /-- Nothing is generated after it. -/
  | abort
  deriving DecidableEq, Repr

/-- What happens to a row whose destination an earlier row has. -/
inductive DuplicatePolicy where
  /-- It replaces the earlier row's file. -/
  | overwrite
  /-- It fails. -/
  | error
  deriving DecidableEq, Repr

/-- What to generate. -/
structure Request where
  /-- The path of the template. -/
  template : Path
  /-- The rows, each of which makes one file. -/
  rows : List Row
  /-- Where the names of the files come from. -/
  naming : Naming := .fromRecord
  /-- The directory for the files, if it is not the template's. -/
  outputDir : Option Path := none
  /-- What a failing row means for the others. -/
  errorPolicy : ErrorPolicy := .continue
  /-- What a repeated destination means for the later row. -/
  duplicatePolicy : DuplicatePolicy := .overwrite
  /-- How many rows may be in the making at the same time. -/
  concurrency : Nat := 1

/-- A row that has the destination of an earlier one. -/
structure Repetition where
  /-- The later row. -/
  row : Nat
  /-- The destination as the later row has it. -/
  path : Path
  /-- The first row with this destination. -/
  firstRow : Nat
  deriving DecidableEq, Repr

/-- Where each row goes, and which rows go where an earlier one went. -/
structure Plan where
  /-- The destination of each row, or why it has none. -/
  destinations : List (Except Failure Path)
  /-- The rows that have the destination of an earlier row, in order. -/
  repetitions : List Repetition

namespace Request

/-- The destination of one row by itself. -/
def resolve (request : Request) (row : Row) (index : Nat) : Except Failure Path :=
  Destination.resolve request.template row request.naming request.outputDir index

/-- The first row with the same destination, among destinations that were met with their rows. -/
def firstUse? (seen : List (Path × Nat)) (path : Path) : Option Nat :=
  (seen.find? fun entry => entry.1.same path).map Prod.snd

/-- The plan of some rows, the first of which has the given index, after some destinations were met
for the first time. -/
def planFrom (request : Request) (seen : List (Path × Nat)) (index : Nat) : List Row → Plan
  | [] => ⟨[], []⟩
  | row :: rest =>
    match request.resolve row index with
    | .error failure =>
      let later := request.planFrom seen (index + 1) rest
      { later with destinations := .error failure :: later.destinations }
    | .ok path =>
      match firstUse? seen path with
      | none =>
        let later := request.planFrom (seen ++ [(path, index)]) (index + 1) rest
        { later with destinations := .ok path :: later.destinations }
      | some firstRow =>
        let later := request.planFrom seen (index + 1) rest
        let destination : Except Failure Path :=
          match request.duplicatePolicy with
          | .overwrite => .ok path
          | .error => .error (.duplicateDestination path firstRow index)
        ⟨destination :: later.destinations, ⟨index, path, firstRow⟩ :: later.repetitions⟩

/-- The plan of the request. -/
def plan (request : Request) : Plan := request.planFrom [] 0 request.rows

/-- How many rows of the request may be in the making together.  When a destination repeats it is
one, since the destination may be the template itself and each row must then see what the row before
it wrote. -/
def width (request : Request) : Nat :=
  if request.plan.repetitions.isEmpty then max request.concurrency 1 else 1

end Request

/-- The destinations up to and including the first row that has none. -/
def upToFirstFailure : List (Except Failure Path) → List (Except Failure Path)
  | [] => []
  | .ok path :: rest => .ok path :: upToFirstFailure rest
  | .error failure :: _ => [.error failure]

/-- The destinations that a run of the request attends to: all, or under the policy to abort those up
to the first failure. -/
def Request.attended (request : Request) : List (Except Failure Path) :=
  match request.errorPolicy with
  | .continue => request.plan.destinations
  | .abort => upToFirstFailure request.plan.destinations

end MailMerge
