import Mathlib.Data.List.DropRight
import AttrCheck.Proofs.Reading

/-! Places and offsets of one text. The place of an offset counts the line feeds in front of it and
the characters behind the last of these. The offsets at which the lines begin form a table: a search
in it gives the line again, and from a line and a column it leads back to the offset. -/

namespace AttrCheck

def lastLine (text : List Char) : List Char := text.rtakeWhile (· ≠ '\n')

def lineStartsFrom (k : Nat) : List Char → List Nat
  | [] => []
  | c :: cs => if c = '\n' then (k + 1) :: lineStartsFrom (k + 1) cs else lineStartsFrom (k + 1) cs

def lineStarts (text : List Char) : List Nat := 0 :: lineStartsFrom 0 text

def offset? (text : List Char) (line col : Int) : Option Nat :=
  (lineStarts text)[(line - 1).toNat]?.map (· + (col - 1).toNat)

section LineStarts

variable (k : Nat) (c : Char) (cs ds : List Char)

theorem lastLine_append_singleton :
    lastLine (cs ++ [c]) = if c = '\n' then [] else lastLine cs ++ [c] := by
  rw [lastLine, List.rtakeWhile_concat]
  by_cases hc : c = '\n' <;> simp [hc, lastLine]

theorem length_lastLine_le : (lastLine cs).length ≤ cs.length :=
  (List.rtakeWhile_suffix _ _).length_le

theorem lineStartsFrom_append :
    lineStartsFrom k (cs ++ ds) = lineStartsFrom k cs ++ lineStartsFrom (k + cs.length) ds := by
  induction cs generalizing k with
  | nil => rfl
  | cons c cs ih =>
    have hk : k + 1 + cs.length = k + (c :: cs).length := by
      rw [List.length_cons, Nat.add_right_comm, Nat.add_assoc]
    rw [List.cons_append, lineStartsFrom, lineStartsFrom, ih, hk]
    split_ifs <;> rfl

theorem length_lineStartsFrom : (lineStartsFrom k cs).length = cs.count '\n' := by
  induction cs generalizing k with
  | nil => rfl
  | cons c cs ih =>
    rw [lineStartsFrom]
    by_cases hc : c = '\n'
    · rw [if_pos hc, List.length_cons, ih, hc, List.count_cons_self]
    · rw [if_neg hc, ih, List.count_cons_of_ne hc]

theorem mem_lineStartsFrom {k s : Nat} {cs : List Char} (h : s ∈ lineStartsFrom k cs) :
    k < s ∧ s ≤ k + cs.length := by
  induction cs generalizing k with
  | nil => cases h
  | cons c cs ih =>
    have htail (ht : s ∈ lineStartsFrom (k + 1) cs) : k < s ∧ s ≤ k + (c :: cs).length := by
      obtain ⟨hlt, hle⟩ := ih ht
      rw [List.length_cons]
      omega
    rw [lineStartsFrom] at h
    split_ifs at h
    · obtain rfl | ht := List.mem_cons.mp h
      · exact ⟨Nat.lt_succ_self k, Nat.add_le_add_left (Nat.succ_pos _) k⟩
      · exact htail ht
    · exact htail h

theorem lineStarts_append :
    lineStarts (cs ++ ds) = lineStarts cs ++ lineStartsFrom cs.length ds := by
  rw [lineStarts, lineStartsFrom_append, Nat.zero_add]
  rfl

theorem length_lineStarts : (lineStarts cs).length = cs.count '\n' + 1 :=
  congrArg Nat.succ (length_lineStartsFrom 0 cs)

theorem getLast?_lineStarts :
    (lineStarts cs).getLast? = some (cs.length - (lastLine cs).length) := by
  induction cs using List.reverseRecOn with
  | nil => rfl
  | append_singleton cs c ih =>
    rw [lineStarts_append, lineStartsFrom, lineStartsFrom, lastLine_append_singleton,
      List.length_append, List.length_singleton]
    split_ifs with hc
    · exact List.getLast?_concat
    · rw [List.append_nil, ih, List.length_append, List.length_singleton, Nat.add_sub_add_right]

theorem getElem?_lineStarts_append : (lineStarts (cs ++ ds))[cs.count '\n']? =
    some (cs.length - (lastLine cs).length) := by
  have hlength := length_lineStarts cs
  rw [lineStarts_append, List.getElem?_append_left (by omega), ← getLast?_lineStarts,
    List.getLast?_eq_getElem?, hlength]
  rfl

theorem countP_lineStarts_append :
    (lineStarts (cs ++ ds)).countP (· ≤ cs.length) = cs.count '\n' + 1 := by
  have hfront : (lineStarts cs).countP (· ≤ cs.length) = (lineStarts cs).length := by
    rw [List.countP_eq_length]
    intro s hs
    obtain rfl | hs := List.mem_cons.mp hs
    · exact decide_eq_true (Nat.zero_le _)
    · exact decide_eq_true (by simpa using (mem_lineStartsFrom hs).2)
  have hback : (lineStartsFrom cs.length ds).countP (· ≤ cs.length) = 0 := by
    rw [List.countP_eq_zero]
    intro s hs
    simpa using (mem_lineStartsFrom hs).1
  rw [lineStarts_append, List.countP_append, hfront, hback, length_lineStarts]

end LineStarts

namespace Loc

variable (file : String) (text : List Char)

theorem start_after (cs : List Char) : (start file).after cs =
    ⟨file, cs.count '\n' + 1, (lastLine cs).length + 1⟩ := by
  induction cs using List.reverseRecOn with
  | nil => rfl
  | append_singleton cs c ih =>
    rw [after_append, ih, after_cons, after_nil, next, lastLine_append_singleton,
      List.count_append]
    by_cases hc : c = '\n' <;> simp [hc]

theorem ofOffset_lt {o p : Nat} (h : o < p) (hp : p ≤ text.length) :
    ofOffset file text o < ofOffset file text p := by
  have htake : text.take p = text.take o ++ (text.drop o).take (p - o) := by
    rw [← List.take_add, Nat.add_sub_cancel' h.le]
  have hne : (text.drop o).take (p - o) ≠ [] := by
    rw [← List.length_pos_iff, List.length_take, List.length_drop]
    omega
  rw [ofOffset, ofOffset, htake, after_append]
  exact lt_after _ hne

theorem offset?_ofOffset {o : Nat} (ho : o ≤ text.length) :
    offset? text (ofOffset file text o).line (ofOffset file text o).col = some o := by
  have hlength : (text.take o).length = o := List.length_take_of_le ho
  have hstart := getElem?_lineStarts_append (text.take o) (text.drop o)
  rw [List.take_append_drop, hlength] at hstart
  have hline : (lastLine (text.take o)).length ≤ o :=
    (length_lastLine_le _).trans_eq hlength
  rw [ofOffset, start_after, offset?]
  simp only [Int.add_sub_cancel, Int.toNat_natCast, hstart, Option.map_some]
  rw [Nat.sub_add_cancel hline]

theorem of_reaches {file text : String} {c : Cursor} (h : (Cursor.ofText file text).Reaches c) :
    c.loc = ofOffset file text.toList (text.toList.length - c.rest.length) := by
  obtain ⟨t, htext, hloc⟩ := h
  change text.toList = t ++ c.rest at htext
  rw [hloc, ofOffset, htext, List.length_append, Nat.add_sub_cancel, List.take_left]
  rfl

/-- The line of an offset is one more than the line feeds in front of it, and the column one more
than the characters behind the last of them. Places follow each other as their offsets do, so no two
offsets share one; the line is what a search for the offset finds in the table of the lines, and the
table leads from the line and the column back to the offset. These are the places that readers of
the text get to. -/
theorem ofOffset_place (file text : String) :
    let cs := text.toList
    (∀ o ≤ cs.length,
      let l := ofOffset file cs o
      l.line - 1 = (cs.take o).count '\n' ∧ l.col - 1 = (lastLine (cs.take o)).length ∧
        l.line = (lineStarts cs).countP (· ≤ o) ∧ offset? cs l.line l.col = some o) ∧
      (∀ o p, o < p → p ≤ cs.length → ofOffset file cs o < ofOffset file cs p) ∧
      (∀ o p, o ≤ cs.length → p ≤ cs.length →
        ofOffset file cs o = ofOffset file cs p → o = p) ∧
      ∀ c, (Cursor.ofText file text).Reaches c →
        c.loc = ofOffset file cs (cs.length - c.rest.length) := by
  intro cs
  refine ⟨fun o ho => ?_, fun o p => ofOffset_lt file cs, fun o p ho hp h => ?_,
    fun c => of_reaches⟩
  · have hcount := countP_lineStarts_append (cs.take o) (cs.drop o)
    rw [List.take_append_drop, List.length_take_of_le ho] at hcount
    refine ⟨?_, ?_, ?_, offset?_ofOffset file cs ho⟩
    · rw [ofOffset, start_after, Int.add_sub_cancel]
    · rw [ofOffset, start_after, Int.add_sub_cancel]
    · rw [ofOffset, start_after, hcount]
      rfl
  · have hback := offset?_ofOffset file cs ho
    rw [h, offset?_ofOffset file cs hp] at hback
    exact (Option.some.inj hback).symm

/-- A line feed belongs to the line that it ends, and the line behind the last one may be empty. -/
example : (List.range 5).map (ofOffset "a.cc" ['a', '\n', '\n', 'b']) =
    [⟨"a.cc", 1, 1⟩, ⟨"a.cc", 1, 2⟩, ⟨"a.cc", 2, 1⟩, ⟨"a.cc", 3, 1⟩, ⟨"a.cc", 3, 2⟩] := by
  decide

end Loc

end AttrCheck
