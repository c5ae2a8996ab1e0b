import AttrCheck.Loc
import AttrCheck.Json
import AttrCheck.Diagnostic.Catalog

/-!
Diagnostics with their notes, as lines of text and as JSON. Either fails when a message lacks an
argument that its template asks for, or when a note has no entry in the catalog.
-/

namespace AttrCheck

structure FixIt where
  loc : Loc
  insertion : String
deriving DecidableEq

def FixIt.text (f : FixIt) : String :=
  "fix-it:\"" ++ f.loc.file ++ "\":\x7b" ++ s!"{f.loc.line}:{f.loc.col}" ++ "\x7d:\"" ++
    f.insertion ++ "\""

structure Note where
  id : Option DiagId
  loc : Loc
  args : List DiagArg
  fixits : List FixIt
deriving DecidableEq

/-- What a check has to say, before it is decided whether and how severely it counts. -/
structure Report where
  id : DiagId
  loc : Loc
  args : List DiagArg := []
  ranges : List Range := []
  notes : List Note := []
deriving DecidableEq

structure Diagnostic where
  id : DiagId
  severity : Severity
  loc : Loc
  args : List DiagArg
  ranges : List Range
  notes : List Note
deriving DecidableEq

namespace Json

def ofLoc (l : Loc) : Json :=
  object [("file", string l.file), ("line", int l.line), ("column", int l.col)]

def ofPlace (l : Loc) : Json := object [("line", int l.line), ("column", int l.col)]

def ofRange (r : Range) : Json := object [("begin", ofPlace r.start), ("end", ofPlace r.stop)]

def ofFixIt (f : FixIt) : Json :=
  object [("line", int f.loc.line), ("column", int f.loc.col), ("insert", string f.insertion)]

def listField (key : String) (items : List Json) : List (String × Json) :=
  if items.isEmpty then [] else [(key, array items)]

def headFields (id : DiagId) (severity : Severity) (message : String) (loc : Loc) :
    List (String × Json) :=
  [("id", string id.name), ("code", string id.code), ("severity", string severity.text),
    ("message", string message), ("location", ofLoc loc)]

end Json

namespace Note

def entry (n : Note) : Except FormatError DiagId :=
  match n.id with
  | some id => .ok id
  | none => .error .noEntry

def message (n : Note) : Except FormatError String := do (← n.entry).message n.args

def text (n : Note) : Except FormatError String := do
  let message ← n.message
  return String.intercalate "\n" (s!"{n.loc.text}: note: {message}" :: n.fixits.map FixIt.text)

def json (n : Note) : Except FormatError Json := do
  let id ← n.entry
  let message ← id.message n.args
  return .object (Json.headFields id .note message n.loc ++
    Json.listField "fixits" (n.fixits.map Json.ofFixIt))

end Note

namespace Diagnostic

def message (d : Diagnostic) : Except FormatError String := d.id.message d.args

def isError (d : Diagnostic) : Bool := d.severity = .error

def isWarning (d : Diagnostic) : Bool := d.severity = .warning

def headText (d : Diagnostic) (message : String) : String :=
  s!"{d.loc.text}: {d.severity.text}: {message}" ++
    if d.severity = .note then "" else s!" [{d.id.name}]"

def text (d : Diagnostic) : Except FormatError String := do
  let message ← d.message
  let notes ← d.notes.mapM Note.text
  return String.intercalate "\n" (d.headText message :: notes)

def json (d : Diagnostic) : Except FormatError Json := do
  let message ← d.message
  let notes ← d.notes.mapM Note.json
  return .object (Json.headFields d.id d.severity message d.loc ++
    Json.listField "ranges" (d.ranges.map Json.ofRange) ++ Json.listField "notes" notes)

end Diagnostic

inductive DiagFormat where
  | gcc | json
deriving DecidableEq

def DiagFormat.ofName (s : String) : DiagFormat := if s = "json" then json else gcc

def DiagFormat.render (format : DiagFormat) (ds : List Diagnostic) : Except FormatError String :=
  match format with
  | gcc => return String.intercalate "\n" (← ds.mapM Diagnostic.text)
  | json => return (Json.array (← ds.mapM Diagnostic.json)).text

end AttrCheck
