import AttrCheck.CommandLine.Run

/-!
The program: it looks up the files that the words of its command line may name, runs the command on
them and carries out what comes of it.
-/

namespace AttrCheck.CommandLine

def lookUp (directory : Path) (homes : List (String × Path)) (names : List String) :
    IO FileTree := do
  let root ← IO.currentDir
  let mut tree : FileTree := ⟨[directory], [], homes⟩
  for name in names do
    if let some p := tree.resolve? directory name then
      let file := root / p.text
      if ← file.isDir then
        tree := { tree with directories := p :: tree.directories }
      else if ← file.pathExists then
        tree := { tree with files := (p, ← IO.FS.readFile file) :: tree.files }
  return tree

def ownHome : IO (List (String × Path)) := do
  return (← IO.getEnv "HOME").toList.map fun home => ("~", Path.parts home)

def write (p : Path) (content : String) : IO Unit := do
  IO.FS.createDirAll (Path.text p.dropLast)
  IO.FS.writeFile p.text content

end AttrCheck.CommandLine

open AttrCheck.CommandLine in
def main (words : List String) : IO UInt32 := do
  let directory := Path.parts (← IO.currentDir).toString
  let outcome := run .standard (← lookUp directory (← ownHome) words) directory words
  if let some (p, content) := outcome.written then write p content
  (← IO.getStdout).putStr outcome.stdout
  let log := outcome.stderr
  (← IO.getStderr).putStr (if log.isEmpty || log.endsWith "\n" then log else log ++ "\n")
  return outcome.exit.toUInt32
