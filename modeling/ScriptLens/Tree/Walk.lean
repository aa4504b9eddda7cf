import ScriptLens.Tree.Node

namespace ScriptLens.Node

/-- The loop that the analyses share. The node on top of the stack is visited, and those of its
children that are entered take its place. -/
def walk {σ : Type} (enters : Node → Node → Bool) (visit : σ → Node → σ) : List Node → σ → σ
  | [], s => s
  | n :: stack, s => walk enters visit (n.children.filter (enters n) ++ stack) (visit s n)
termination_by stack => sizeAll stack
decreasing_by
  rw [sizeAll_append, sizeAll]
  exact Nat.add_lt_add_right (sizeAll_filter_lt (enters n) n) _

end ScriptLens.Node
