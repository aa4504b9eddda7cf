import ScriptLens.Outline.Entry

namespace ScriptLens.Outline

inductive Branch where
  | mk (entry : Entry) (children : List Branch)

namespace Branch

def entry : Branch → Entry
  | mk entry _ => entry

def children : Branch → List Branch
  | mk _ children => children

def extend : Branch → List Branch → Branch
  | mk entry children, more => mk entry (children ++ more)

end Branch

/-- A forest that is being built: the branches that are open, from the innermost outwards, each with
the children it has so far, and the branches at the top that are done. -/
structure Nesting where
  opened : List Branch
  roots : List Branch

namespace Nesting

def start : Nesting := ⟨[], []⟩

/-- The innermost open branch becomes the last child of the one around it, or the last root. -/
def close (n : Nesting) : Nesting :=
  match n.opened with
  | [] => n
  | [b] => ⟨[], n.roots ++ [b]⟩
  | b :: parent :: outer => ⟨parent.extend [b] :: outer, n.roots⟩

theorem length_close {n : Nesting} (h : n.opened ≠ []) :
    n.close.opened.length < n.opened.length := by
  obtain ⟨opened, roots⟩ := n
  match opened with
  | [] => exact absurd rfl h
  | [b] => exact Nat.zero_lt_one
  | b :: parent :: outer => exact Nat.lt_succ_self _

def closeWhile (p : Branch → Bool) (n : Nesting) : Nesting :=
  match _h : n.opened with
  | [] => n
  | b :: _ => if p b then closeWhile p n.close else n
termination_by n.opened.length
decreasing_by exact length_close (by simp [_h])

/-- An entry goes below the innermost branch that is indented less. -/
def enter (n : Nesting) (e : Entry) : Nesting :=
  let n := n.closeWhile fun b => e.indent ≤ b.entry.indent
  { n with opened := .mk e [] :: n.opened }

end Nesting

def forest (entries : List Entry) : List Branch :=
  ((entries.foldl Nesting.enter Nesting.start).closeWhile fun _ => true).roots

end ScriptLens.Outline
