/-!
The attributes that are known by name. A kind is found by how an attribute is spelled and by its
qualified name; every other attribute is unknown.
-/

namespace AttrCheck

inductive Spelling where
  | cxx11
  | gnu
  | declspec
  | pragma
deriving DecidableEq

namespace Spelling

def all : List Spelling := [cxx11, gnu, declspec, pragma]

def text : Spelling → String
  | cxx11 => "cxx11"
  | gnu => "gnu"
  | declspec => "declspec"
  | pragma => "pragma"

def label : Spelling → String
  | cxx11 => "CXX11"
  | gnu => "GNU"
  | declspec => "DECLSPEC"
  | pragma => "PRAGMA"

def ofText? (s : String) : Option Spelling := all.find? (·.text = s)

end Spelling

inductive AttrKind where
  | unknown
  | fallthrough | loopHint
  | aligned | carriesDependency | deprecated | maybeUnused | nodiscard | noreturn | packed
  | unused | visibility | weak
deriving DecidableEq

namespace AttrKind

def all : List AttrKind :=
  [unknown, fallthrough, loopHint, aligned, carriesDependency, deprecated, maybeUnused,
    nodiscard, noreturn, packed, unused, visibility, weak]

def label : AttrKind → String
  | unknown => "UNKNOWN"
  | fallthrough => "FALLTHROUGH"
  | loopHint => "LOOP_HINT"
  | aligned => "ALIGNED"
  | carriesDependency => "CARRIES_DEPENDENCY"
  | deprecated => "DEPRECATED"
  | maybeUnused => "MAYBE_UNUSED"
  | nodiscard => "NODISCARD"
  | noreturn => "NORETURN"
  | packed => "PACKED"
  | unused => "UNUSED"
  | visibility => "VISIBILITY"
  | weak => "WEAK"

def annotatesStmt : AttrKind → Bool
  | fallthrough | loopHint => true
  | _ => false

end AttrKind

def registry : List (Spelling × String × AttrKind) :=
  [(.cxx11, "fallthrough", .fallthrough),
    (.cxx11, "clang::fallthrough", .fallthrough),
    (.pragma, "loop", .loopHint),
    (.gnu, "aligned", .aligned),
    (.cxx11, "gnu::aligned", .aligned),
    (.declspec, "align", .aligned),
    (.cxx11, "carries_dependency", .carriesDependency),
    (.cxx11, "deprecated", .deprecated),
    (.cxx11, "gnu::deprecated", .deprecated),
    (.gnu, "deprecated", .deprecated),
    (.declspec, "deprecated", .deprecated),
    (.cxx11, "maybe_unused", .maybeUnused),
    (.cxx11, "nodiscard", .nodiscard),
    (.cxx11, "noreturn", .noreturn),
    (.gnu, "noreturn", .noreturn),
    (.declspec, "noreturn", .noreturn),
    (.gnu, "packed", .packed),
    (.cxx11, "gnu::packed", .packed),
    (.gnu, "unused", .unused),
    (.cxx11, "gnu::unused", .unused),
    (.gnu, "visibility", .visibility),
    (.gnu, "weak", .weak)]

def registryListing : List (Spelling × String × AttrKind) :=
  registry.mergeSort fun a b =>
    a.1.text < b.1.text || (a.1.text = b.1.text && a.2.1 ≤ b.2.1)

/-- Takes the reserved form `__name__` of a name back to the name. -/
def bareName (name : String) : String :=
  match name.toList with
  | '_' :: '_' :: cs =>
    match cs.reverse with
    | '_' :: '_' :: rs => if rs.isEmpty then name else String.ofList rs.reverse
    | _ => name
  | _ => name

def qualify (scope : Option String) (name : String) : String :=
  match scope with
  | none | some "" => name
  | some s => s ++ "::" ++ name

def AttrKind.find (spelling : Spelling) (scope : Option String) (name : String) : AttrKind :=
  match registry.find? fun e => e.1 = spelling && e.2.1 = qualify scope (bareName name) with
  | some (_, _, kind) => kind
  | none => .unknown

end AttrCheck
