/-!
# Files

What a run can read, and why it may not be able to.  A tree of folders in memory answers like the
files of a system, step by step along a path.

## Main definitions

* `ReadFailure`: why something cannot be read.
* `FileTree`: a file, or a folder with what is in it.
* `FileTree.read`: the contents of the file that a path leads to.
-/

namespace Interpolation.CommandLine

/-- Why something cannot be read. -/
inductive ReadFailure where
  /-- There is nothing of that name. -/
  | missing
  /-- It must not be read. -/
  | denied
  /-- A path goes on behind a file. -/
  | notFolder
  /-- A folder is read as if it were a file. -/
  | isFolder
  /-- A name is too long for any file to have it. -/
  | nameTooLong
  /-- The contents are no text. -/
  | notText
  /-- Something else. -/
  | other (reason : String)
deriving DecidableEq

/-- A failure in the words of the system. -/
def ReadFailure.message : ReadFailure → String
  | missing => "No such file or directory (os error 2)"
  | denied => "Permission denied (os error 13)"
  | notFolder => "Not a directory (os error 20)"
  | isFolder => "Is a directory (os error 21)"
  | nameTooLong => "File name too long (os error 36)"
  | notText => "stream did not contain valid UTF-8"
  | other reason => reason

/-- Files and folders in memory. -/
inductive FileTree where
  /-- A file with its text. -/
  | file (contents : String)
  /-- A folder with the names of what is in it. -/
  | folder (entries : List (String × FileTree))

namespace FileTree

/-- How many bytes the name of a file may have. -/
def longestName : Nat := 255

/-- What stands under a name in a folder. -/
def entry (entries : List (String × FileTree)) (name : String) : Except ReadFailure FileTree :=
  if longestName < name.utf8ByteSize then .error .nameTooLong
  else
    match entries.lookup name with
    | some tree => .ok tree
    | none => .error .missing

/-- Where some names lead from a tree; `outer` are the folders around it, the innermost first.  An
empty name and a point lead nowhere, two points to the folder around; nothing is known of what is
around the outermost folder. -/
def walk (tree : FileTree) (outer : List FileTree) : List String → Except ReadFailure FileTree
  | [] => .ok tree
  | name :: names =>
    match tree with
    | file _ => .error .notFolder
    | folder entries =>
      if name = "" ∨ name = "." then walk tree outer names
      else if name = ".." then
        match outer with
        -- Around the outermost folder there is only an empty one.
        | [] => walk (folder []) [] names
        | inner :: outer => walk inner outer names
      else
        match entry entries name with
        | .error failure => .error failure
        | .ok inner => walk inner (tree :: outer) names

/-- The names along a path. -/
def names (path : String) : List String := path.splitOn "/"

/-- The text of the file that a path leads to. -/
def read (tree : FileTree) (path : String) : Except ReadFailure String :=
  match tree.walk [] (names path) with
  | .error failure => .error failure
  | .ok (folder _) => .error .isFolder
  | .ok (file contents) => .ok contents

end FileTree

end Interpolation.CommandLine
