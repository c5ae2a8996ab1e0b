/-!
Line ends of files. A carriage return ends a line like a line feed, and the two together, in this
order, end one line.
-/

namespace AttrCheck.Text

def unifyNewlines : List Char → List Char
  | [] => []
  | '\r' :: '\n' :: cs => '\n' :: unifyNewlines cs
  | c :: cs => (if c = '\r' then '\n' else c) :: unifyNewlines cs

def ofFile (content : String) : String := String.ofList (unifyNewlines content.toList)

theorem not_mem_unifyNewlines (cs : List Char) : '\r' ∉ unifyNewlines cs := by
  fun_induction unifyNewlines cs with
  | case1 => simp
  | case2 cs ih => simp [ih]
  | case3 c cs _ ih => split <;> simp_all [eq_comm]

theorem unifyNewlines_eq_self {cs : List Char} (h : '\r' ∉ cs) : unifyNewlines cs = cs := by
  fun_induction unifyNewlines cs with
  | case1 => rfl
  | case2 cs ih => exact absurd List.mem_cons_self h
  | case3 c cs _ ih =>
    rw [ih (List.not_mem_of_not_mem_cons h), if_neg (List.ne_of_not_mem_cons h).symm]

end AttrCheck.Text
