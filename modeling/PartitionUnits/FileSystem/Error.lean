import PartitionUnits.Failure

/-!
# File system errors

Why an operation on files, directories and links fails.
-/

namespace PartitionUnits

/-- Why an operation of the file system fails. -/
inductive FileError where
  | notFound
  | inputOutput
  | execFormat
  | permission
  | alreadyExists
  | notDirectory
  | isDirectory
  | invalid
  | nameTooLong
  | notEmpty
  | tooManyLinks
  /-- A path with an octet that ends texts. -/
  | nulOctet
  /-- An argument of a program with an octet that ends texts. -/
  | nulInArgument
  /-- A file that was read as text and is none. -/
  | notText
  /-- A file that ended too early. -/
  | shortRead
  /-- Every name that was drawn for a temporary file is taken. -/
  | allNamesTaken
deriving DecidableEq, Repr

namespace FileError

/-- The number of an error that the operating system reports. -/
def number? : FileError → Option Nat
  | notFound => some 2
  | inputOutput => some 5
  | execFormat => some 8
  | permission => some 13
  | alreadyExists => some 17
  | notDirectory => some 20
  | isDirectory => some 21
  | invalid => some 22
  | nameTooLong => some 36
  | notEmpty => some 39
  | tooManyLinks => some 40
  | nulOctet | nulInArgument | notText | shortRead | allNamesTaken => none

/-- What went wrong, without the number. -/
def description : FileError → String
  | notFound => "No such file or directory"
  | inputOutput => "Input/output error"
  | execFormat => "Exec format error"
  | permission => "Permission denied"
  | alreadyExists => "File exists"
  | notDirectory => "Not a directory"
  | isDirectory => "Is a directory"
  | invalid => "Invalid argument"
  | nameTooLong => "File name too long"
  | notEmpty => "Directory not empty"
  | tooManyLinks => "Too many levels of symbolic links"
  | nulOctet => "file name contained an unexpected NUL byte"
  | nulInArgument => "nul byte found in provided data"
  | notText => "stream did not contain valid UTF-8"
  | shortRead => "failed to fill whole buffer"
  | allNamesTaken => "too many temporary files exist"

/-- The wording of an error. -/
def message (e : FileError) : String :=
  match e.number? with
  | some n => s!"{e.description} (os error {n})"
  | none => e.description

/-- The error with a number. -/
def ofNumber? (n : Nat) : Option FileError :=
  [notFound, inputOutput, execFormat, permission, alreadyExists, notDirectory, isDirectory, invalid,
    nameTooLong, notEmpty, tooManyLinks].find? (·.number? = some n)

/-- The error as a failure. -/
def failure (e : FileError) : Failure := Failure.of e.message

end FileError

end PartitionUnits
