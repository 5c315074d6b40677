/-!
# Paths and directories

The extension of a path, and the files of a directory that is given as a list.
-/

namespace Lugha.Path

/-- The parts of a path between its slashes. -/
def parts (path : String) : List String := path.splitOn "/"

/-- Whether a part of a path leads to where it stands. -/
def staysHere (part : String) : Bool := part == "" || part == "."

/-- The parts of a path that lead somewhere. -/
def steps (path : String) : List String := (parts path).filter fun p => !staysHere p

/-- The last part of a path that names something. A path that ends in the parent
directory names no file. -/
def fileName? (path : String) : Option String :=
  match (steps path).getLast? with
  | some ".." => none
  | name => name

/-- What follows the last dot of a file name; a dot at the beginning does not count. -/
def extension? (path : String) : Option String := do
  let name ← fileName? path
  let reversed := name.toList.reverse
  match reversed.dropWhile (· != '.') with
  | _ :: _ :: _ => return String.ofList (reversed.takeWhile (· != '.')).reverse
  | _ => none

/-- Whether a path has an extension of source files. -/
def isSource (path : String) : Bool :=
  match extension? path with
  | some e => e == "nr" || e == "sw"
  | none => false

/-- A directory, given by the parts of the path and the content of every file in it. -/
abbrev Directory := List (List String × ByteArray)

namespace Directory

/-- The directory with files at given paths inside it. -/
def ofFiles (files : List (String × ByteArray)) : Directory :=
  files.map fun f => (steps f.1, f.2)

/-- Whether a path names a directory: it is the beginning of the path of a file. -/
def holds (d : Directory) (path : List String) : Bool :=
  path.isEmpty || d.any fun f => path.isPrefixOf f.1 && decide (path.length < f.1.length)

/-- Follows the parts of a path, beginning in the directory `here`, to the content of a
file. -/
def follow (d : Directory) (here : List String) : List String → Option ByteArray
  | [] => none
  | part :: rest =>
    if staysHere part then follow d here rest
    else if part == ".." then
      if here.isEmpty then none else follow d here.dropLast rest
    else
      let there := here ++ [part]
      if rest.isEmpty then (d.find? fun f => f.1 == there).map Prod.snd
      else if holds d there then follow d there rest
      else none

/-- The text of a file; none if there is no such file or it is not a text. -/
def read? (d : Directory) (path : String) : Option String :=
  if path.startsWith "/" then none
  else (follow d [] (parts path)).bind String.fromUTF8?

end Directory

end Lugha.Path
