/-
MeshLayout/Directory.lean

A directory of files held in memory, for a program that runs inside it.

A file stands at a place, the list of names that lead to it.  A path is
followed part by part: an empty part and a dot stay where they are, two dots
go up, a name goes down, and each of them only from a folder.  So `.//a` and
`a` name the same file, while `a/` names none.  A path from the root, and one
that goes up out of the directory, names no file of it.
-/
import MeshLayout.Inspection

namespace MeshLayout

/-- Files by their places, in the order they were written. -/
structure Directory where
  files : List (List String × ByteArray)

namespace Directory

/-- The directory without files. -/
def empty : Directory := ⟨[]⟩

/-- What stands between the slashes, with what has been read of the first part. -/
def partsFrom (part : List Char) : List Char → List String
  | [] => [String.ofList part]
  | c :: rest =>
    if c = '/' then String.ofList part :: partsFrom [] rest else partsFrom (part ++ [c]) rest

/-- What stands between the slashes of a path. -/
def parts (path : String) : List String := partsFrom [] path.toList

/-- Does a part of a path stay where it is? -/
def stays (part : String) : Bool := part = "" || part = "."

/-- The names among the parts of a path. -/
def named (parts : List String) : List String := parts.filter fun part => !stays part

/-- The place that a path names as it is written. -/
def placeOf (path : String) : List String := named (parts path)

/-- Writes a file.  A file that stood at the same place is replaced. -/
def write (directory : Directory) (path : String) (contents : ByteArray) : Directory :=
  ⟨directory.files.filter (fun file => file.1 ≠ placeOf path) ++ [(placeOf path, contents)]⟩

/-- Is there a folder at the place?  The directory is one, and so is whatever holds a file. -/
def hasFolder (directory : Directory) (place : List String) : Bool :=
  place.isEmpty ||
    directory.files.any fun file => place.isPrefixOf file.1 && place.length < file.1.length

/-- The place that the parts of a path lead to, from a place on the way. -/
def follow (directory : Directory) (place : List String) : List String → Option (List String)
  | [] => some place
  | part :: rest =>
    if ¬ directory.hasFolder place then none
    else if stays part then directory.follow place rest
    else if part = ".." then
      if place.isEmpty then none else directory.follow place.dropLast rest
    else directory.follow (place ++ [part]) rest

/-- The place that a path leads to, if it does not begin at the root. -/
def target? (directory : Directory) (path : String) : Option (List String) :=
  match parts path with
  | "" :: _ :: _ => none
  | names => directory.follow [] names

/-- The contents of the file that a path names, if it names one. -/
def contents? (directory : Directory) (path : String) : Option ByteArray :=
  (directory.target? path).bind fun place => directory.files.lookup place

/-- The directory as a source of files. -/
def toFiles (directory : Directory) : Files := directory.contents?

end Directory

end MeshLayout
