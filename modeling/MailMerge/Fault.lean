import MailMerge.Text.Utf8

/-!
# File system faults

Why an operation on a file did not succeed: the file system refused it with a number, the path could
not be handed to the file system, or the content is not text.  `Fault.message` is the wording, and
`Fault.isNotFound` singles out the fault that a missing entry causes, which is the only one that the
rest of the library treats apart.
-/

namespace MailMerge

set_option autoImplicit false

/-- The reason why an operation on a file failed. -/
inductive Fault where
  /-- The file system gave this error number. -/
  | system (number : Nat)
  /-- The path has the octet zero in it. -/
  | nulInPath
  /-- A file that was read as a whole is not text. -/
  | notText
  /-- A line is not text. -/
  | lineNotText (error : Utf8.DecodeError)
  /-- Any other reason, given in words. -/
  | other (text : String)
  deriving DecidableEq, Repr

namespace Fault

/-- There is no such entry. -/
@[match_pattern] abbrev notFound : Fault := .system 2

/-- There is such an entry already. -/
@[match_pattern] abbrev alreadyExists : Fault := .system 17

/-- A part of the path that should be a directory is a file. -/
@[match_pattern] abbrev notADirectory : Fault := .system 20

/-- The entry is a directory, and a file is needed. -/
@[match_pattern] abbrev isADirectory : Fault := .system 21

/-- A name or the whole path is longer than the file system allows. -/
@[match_pattern] abbrev nameTooLong : Fault := .system 36

/-- Whether the fault is that there is no such entry. -/
def isNotFound (fault : Fault) : Bool := fault == notFound

/-- The system's description of an error number. -/
def describe : Nat → String
  | 1 => "Operation not permitted"
  | 2 => "No such file or directory"
  | 3 => "No such process"
  | 4 => "Interrupted system call"
  | 5 => "Input/output error"
  | 6 => "No such device or address"
  | 7 => "Argument list too long"
  | 8 => "Exec format error"
  | 9 => "Bad file descriptor"
  | 10 => "No child processes"
  | 11 => "Resource temporarily unavailable"
  | 12 => "Cannot allocate memory"
  | 13 => "Permission denied"
  | 14 => "Bad address"
  | 15 => "Block device required"
  | 16 => "Device or resource busy"
  | 17 => "File exists"
  | 18 => "Invalid cross-device link"
  | 19 => "No such device"
  | 20 => "Not a directory"
  | 21 => "Is a directory"
  | 22 => "Invalid argument"
  | 23 => "Too many open files in system"
  | 24 => "Too many open files"
  | 25 => "Inappropriate ioctl for device"
  | 26 => "Text file busy"
  | 27 => "File too large"
  | 28 => "No space left on device"
  | 29 => "Illegal seek"
  | 30 => "Read-only file system"
  | 31 => "Too many links"
  | 32 => "Broken pipe"
  | 33 => "Numerical argument out of domain"
  | 34 => "Numerical result out of range"
  | 35 => "Resource deadlock avoided"
  | 36 => "File name too long"
  | 37 => "No locks available"
  | 38 => "Function not implemented"
  | 39 => "Directory not empty"
  | 40 => "Too many levels of symbolic links"
  | number => "Unknown error " ++ toString number

/-- The fault in words. -/
def message : Fault → String
  | .system number => describe number ++ " (os error " ++ toString number ++ ")"
  | .nulInPath => "file name contained an unexpected NUL byte"
  | .notText => "stream did not contain valid UTF-8"
  | .lineNotText error => error.message
  | .other text => text

end Fault

end MailMerge
