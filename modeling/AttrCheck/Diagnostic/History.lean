import AttrCheck.Diagnostic.Engine

/-!
Calls on one engine, one after the other. A call answers with what it has recorded, if it has
recorded anything.
-/

namespace AttrCheck

inductive EngineCall where
  | report (id : DiagId) (loc : Loc) (args : List DiagArg) (ranges : List Range)
  | note (n : Note)
  | clear

inductive Recorded where
  | diagnostic (d : Diagnostic)
  | note (n : Note)
deriving DecidableEq

namespace Engine

def answer (e : Engine) : EngineCall → Option Recorded
  | .report id loc args ranges => (e.diagnose? ⟨id, loc, args, ranges, []⟩).map .diagnostic
  | .note n => if e.isListening then some (.note n) else none
  | .clear => none

def call (e : Engine) : EngineCall → Engine
  | .report id loc args ranges => e.report ⟨id, loc, args, ranges, []⟩
  | .note n => e.note n
  | .clear => e.clear

def callAll (e : Engine) (calls : List EngineCall) : Engine := calls.foldl call e

theorem callAll_append_singleton (e : Engine) (calls : List EngineCall) (c : EngineCall) :
    e.callAll (calls ++ [c]) = (e.callAll calls).call c :=
  List.foldl_append

end Engine

end AttrCheck
