/-!
Places in a source text. Lines and columns count from one, columns in characters, and only a
line feed starts a new line. A range runs up to the place just past its last character.
-/

namespace AttrCheck

structure Loc where
  file : String
  line : Int
  col : Int
deriving DecidableEq

namespace Loc

def unknown : Loc := ⟨"<unknown>", 0, 0⟩

def start (file : String) : Loc := ⟨file, 1, 1⟩

def isKnown (l : Loc) : Bool := 0 < l.line

def next (l : Loc) (c : Char) : Loc :=
  if c = '\n' then ⟨l.file, l.line + 1, 1⟩ else ⟨l.file, l.line, l.col + 1⟩

def after (l : Loc) (cs : List Char) : Loc := cs.foldl next l

@[simp] theorem after_nil (l : Loc) : l.after [] = l := rfl

@[simp] theorem after_cons (l : Loc) (c : Char) (cs : List Char) :
    l.after (c :: cs) = (l.next c).after cs := rfl

theorem after_append (l : Loc) (cs ds : List Char) :
    l.after (cs ++ ds) = (l.after cs).after ds :=
  List.foldl_append

def ofOffset (file : String) (text : List Char) (offset : Nat) : Loc :=
  (start file).after (text.take offset)

def text (l : Loc) : String := s!"{l.file}:{l.line}:{l.col}"

end Loc

structure Range where
  start : Loc
  stop : Loc
deriving DecidableEq

namespace Range

def unknown : Range := ⟨Loc.unknown, Loc.unknown⟩

def point (l : Loc) : Range := ⟨l, l⟩

def text (r : Range) : String := s!"{r.start.text}-{r.stop.line}:{r.stop.col}"

end Range

end AttrCheck
