/-
Files and how they are found.

A path is followed one component at a time. Empty components and single dots lead
nowhere, two dots lead out of the directory. Reading a file fails for one of a few
reasons, which have the words that the system has for them.

The directory here holds plain files and nothing else, so every component but the last
leads into a file, which is an error, or to nothing.
-/

set_option autoImplicit false

namespace Descent.CommandLine

/-- Why a file could not be read. -/
inductive FileError where
  | notFound
  | notADirectory
  | isADirectory
  /-- For a reason that the system gave in these words. -/
  | other (message : String)
deriving DecidableEq, Repr

/-- The reason in words. -/
def FileError.message : FileError → String
  | notFound => "No such file or directory (os error 2)"
  | notADirectory => "Not a directory (os error 20)"
  | isADirectory => "Is a directory (os error 21)"
  | other message => message

/-- A directory of plain files, by name. -/
structure Directory where
  files : List (String × ByteArray)

namespace Directory

/-- Follows the components of a path from here. -/
def follow (d : Directory) : List String → Except FileError ByteArray
  | [] => .error .isADirectory
  | "" :: components => d.follow components
  | "." :: components => d.follow components
  | [".."] => .error .isADirectory
  | ".." :: _ => .error .notFound
  | name :: components =>
    match d.files.lookup name, components with
    | some bytes, [] => .ok bytes
    | some _, _ :: _ => .error .notADirectory
    | none, _ => .error .notFound

/-- The content of the file that the path leads to. The empty path leads nowhere. A path
that begins with a slash leaves the directory. -/
def read (d : Directory) (path : String) : Except FileError ByteArray :=
  if path.isEmpty then .error .notFound
  else if path.startsWith "/" then (Directory.mk []).follow (path.splitOn "/")
  else d.follow (path.splitOn "/")

end Directory

end Descent.CommandLine
