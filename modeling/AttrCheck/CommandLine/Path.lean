/-!
File names as the parts between their slashes, and what the system holds that commands run on: some
files, and home directories that the first part of a name may stand for. The system takes parts and
names up to a certain length only.
-/

namespace AttrCheck.CommandLine

abbrev Path := List String

namespace Path

def parts (name : String) : List String :=
  (name.splitOn "/").filter fun part => part ≠ "" && part ≠ "."

def follow (p : Path) (part : String) : Path := if part = ".." then p.dropLast else p ++ [part]

def text (p : Path) : String := "/" ++ String.intercalate "/" p

def relative? (directory p : Path) : Option String :=
  (directory.isPrefixOf? p).map (String.intercalate "/")

def isLongPart (part : String) : Bool := 255 < part.utf8ByteSize

def isLong (p : Path) : Bool := 4095 < p.text.utf8ByteSize

end Path

inductive Entry where
  | file (content : String)
  | directory
  | missing
  /-- The system refuses to look the name up. -/
  | refused

/-- The files that exist, directories that exist even without files in them, and the home
directories by the parts of names that stand for them. -/
structure FileTree where
  directories : List Path
  files : List (Path × String)
  homes : List (String × Path)

namespace FileTree

/-- The file that a name means in a directory. A first part with a tilde in front has to stand for
a home directory, and no name holds a null character. -/
def resolve? (t : FileTree) (directory : Path) (name : String) : Option Path :=
  if name.contains '\x00' then none
  else if name.startsWith "/" then some ((Path.parts name).foldl Path.follow [])
  else
    match Path.parts name with
    | [] => some directory
    | first :: rest =>
      if first.startsWith "~" then
        (t.homes.lookup first).map fun home => rest.foldl Path.follow home
      else some ((first :: rest).foldl Path.follow directory)

def isFile (t : FileTree) (p : Path) : Bool := (t.files.lookup p).isSome

def isDirectory (t : FileTree) (p : Path) : Bool :=
  !t.isFile p && (t.directories ++ t.files.map Prod.fst).any p.isPrefixOf

def endsAtLongPart (t : FileTree) (known : Path) : Path → Bool
  | [] => false
  | part :: rest =>
    let p := known ++ [part]
    if t.isDirectory p then t.endsAtLongPart p rest
    else !t.isFile p && Path.isLongPart part

def entry (t : FileTree) (p : Path) : Entry :=
  match t.files.lookup p with
  | some content => .file content
  | none =>
    if t.isDirectory p then .directory
    else if p.isLong || t.endsAtLongPart [] p then .refused
    else .missing

def canWrite (t : FileTree) (p : Path) : Bool :=
  !t.isDirectory p && !(t.files.any fun f => f.1 ≠ p && f.1.isPrefixOf p) &&
  !p.isLong && !p.any Path.isLongPart

end FileTree

end AttrCheck.CommandLine
