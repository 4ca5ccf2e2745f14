import CheckRounds.Room
import CheckRounds.Sorted.Map

namespace CheckRounds.Collation

/-! The directory where results are collected. -/

/-- The bytes of the files of a directory, by the names of the files. -/
abbrev Directory := SortedMap String ByteArray

/-- A file as it is created: what it is called, and how many bytes it can have. -/
structure TempFile where
  name : String
  room : Room := {}

namespace Directory

/-- A name that no file has: it is longer than all of theirs. -/
def spareName (directory : Directory) : String := directory.keys.foldl (· ++ ·) "frame"

/-- Creates an empty file.  None is created in place of another. -/
def create (directory : Directory) (file : TempFile) : Except IoFault Directory :=
  if (directory.get? file.name).isSome then .error .tooManyFiles
  else .ok (directory.insert file.name .empty)

/-- What is left once a file is gone, if there is one to go. -/
def without (directory : Directory) (name : Option String) : Directory :=
  match name with
  | none => directory
  | some name => directory.erase name

end Directory

end CheckRounds.Collation
