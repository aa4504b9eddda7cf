import ScriptLens.Tree.Node

namespace ScriptLens

structure Row where
  parent : Option Nat
  info : NodeInfo

namespace Row

/-- Takes the finished subtrees that name row `i` as their parent, and finishes that row's node with
them. Rows come last to first, so these are the subtrees in front. -/
def finish (row : Row) (i : Nat) (done : List (Option Nat × Node)) : List (Option Nat × Node) :=
  let mine := done.takeWhile (·.1 == some i)
  let rest := done.dropWhile (·.1 == some i)
  (row.parent, .mk row.info (mine.map (·.2))) :: rest

end Row

def Node.ofRows? (rows : List Row) : Option Node :=
  match rows.zipIdx.foldr (fun (row, i) done => row.finish i done) [] with
  | (none, root) :: _ => some root
  | _ => none

end ScriptLens
