import DeclMerge.Text.Split

/-!
# Directories

A run sees one directory with files and nothing below it.

## Main definitions

* `Directory` — files by name
* `Directory.localName?` — the name in the directory that a path denotes
* `Directory.read?`, `Directory.write?` — the contents of a file, and the directory with other ones
-/

namespace DeclMerge

/-- The files of a directory, by name. -/
structure Directory where
  files : List (String × String)

namespace Directory

/-- The largest size of a file name in bytes. -/
def maxNameSize : Nat := 255

/-- The largest size of a path in bytes. -/
def maxPathSize : Nat := 4095

/-- Whether a part of a path denotes the directory that the path has reached. -/
def staysAt (part : List Char) : Bool := part.isEmpty || part = ['.']

/-- Whether a part of a path may name a file. -/
def isFileName (part : List Char) : Bool :=
  !staysAt part && part ≠ ['.', '.'] && !part.contains '\x00' &&
    (String.ofList part).utf8ByteSize ≤ maxNameSize

/-- The name in the directory that a path denotes: its last part, when all parts before it stay
in the directory. Absolute paths, paths to directories and paths that are too long denote none. -/
def localName? (path : String) : Option String :=
  let parts := Text.splitOn '/' path.toList
  match parts.getLast? with
  | none => none
  | some last =>
    let before := parts.dropLast
    if path.utf8ByteSize ≤ maxPathSize && before.all staysAt && before.head? ≠ some [] &&
        isFileName last then
      some (String.ofList last)
    else none

/-- The contents of the file at a path. -/
def read? (directory : Directory) (path : String) : Option String :=
  (localName? path).bind fun name => directory.files.lookup name

/-- The directory after the file at a path has got new contents. -/
def write? (directory : Directory) (path contents : String) : Option Directory :=
  (localName? path).map fun name =>
    ⟨(name, contents) :: directory.files.filter fun file => file.1 ≠ name⟩

end Directory

end DeclMerge
