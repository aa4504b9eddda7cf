import ScriptLens.Outline.Slot
import ScriptLens.Source.Parsed

namespace ScriptLens.Outline

def isClassConstructor (source : String) (above : List Node) (n : Node) : Bool :=
  above.head?.any (·.kind = .classBody) && (n.child? .name).any (·.text source = "constructor")

def hasMethod (n : Node) : Bool :=
  n.namedChildren.any fun member =>
    match member.kind with
    | .methodDefinition => true
    | .pair => (member.child? .value).any (·.kind = .functionExpression)
    | _ => false

def member (source : String) (above : List Node) (n : Node) : String × Construct :=
  let own := (n.child? .name).bind (·.staticName? source)
  match n.accessor? with
  | some .getter => (own.getD anonymousAccessor, .getter)
  | some .setter => (own.getD anonymousAccessor, .setter)
  | none =>
    if isClassConstructor source above n then (constructorName, .constructor)
    else (own.getD anonymous, .method)

/-- Name and kind under which a node is listed, if it is; `above` are its ancestors from the parent
outwards. -/
def listed? (source : String) (above : List Node) (n : Node) : Option (String × Construct) :=
  match n.kind with
  | .objectLiteral =>
    if hasMethod n then some ((slot source above).name.getD anonymous, .objectLiteral) else none
  | .classDeclaration | .classExpression =>
    let own := (n.child? .name).bind fun name => nonEmpty? (name.text source)
    some (own.getD anonymous, .classLike)
  | .methodDefinition | .methodSignature => some (member source above n)
  | .arrowFunction => some ((slot source above).name.getD anonymousArrow, .function)
  | .functionDeclaration | .functionExpression =>
    let own := (n.child? .name).bind (·.staticName? source)
    let lent := slot source above
    some ((own.or lent.name).getD anonymous, if lent.isProperty then .method else .function)
  | _ => none

inductive Task where
  | visit (above : List Node) (node : Node)
  | close

structure Traversal where
  tasks : List Task
  depth : Nat
  ordinal : UInt32
  entries : Array Entry

namespace Traversal

def start (root : Node) : Traversal :=
  ⟨[.visit [] root], 0, 0, #[]⟩

def next? (source : String) (w : Traversal) : Option Traversal :=
  match w.tasks with
  | [] => none
  | .close :: rest => some { w with tasks := rest, depth := w.depth - 1 }
  | .visit above n :: rest =>
    let below := n.namedChildren.map (.visit (n :: above))
    match listed? source above n with
    | none => some { w with tasks := below ++ rest }
    | some (name, construct) =>
      some {
        tasks := below ++ .close :: rest
        depth := w.depth + 1
        ordinal := w.ordinal + 1
        entries := w.entries.push ⟨name, construct, w.ordinal + 1, n.info.row, w.depth.toUInt64⟩ }

def weight : List Task → Nat
  | [] => 0
  | .visit _ n :: rest => 2 * n.size + weight rest
  | .close :: rest => 1 + weight rest

theorem weight_append (a b : List Task) : weight (a ++ b) = weight a + weight b := by
  induction a with
  | nil => simp [weight]
  | cons f rest ih => cases f <;> simp [weight, ih] <;> omega

theorem weight_map_visit (above : List Node) (ns : List Node) :
    weight (ns.map (.visit above)) = 2 * Node.sizeAll ns := by
  induction ns with
  | nil => rfl
  | cons n rest ih => simp [weight, Node.sizeAll, ih]; omega

theorem weight_below (above : List Node) (n : Node) :
    weight (n.namedChildren.map (.visit above)) + 2 ≤ 2 * n.size := by
  rw [weight_map_visit]
  have := Node.sizeAll_namedChildren_lt n
  omega

/-- The stack grows lighter with every step. -/
theorem weight_next {source : String} {w v : Traversal} (h : w.next? source = some v) :
    weight v.tasks < weight w.tasks := by
  obtain ⟨tasks, depth, ordinal, entries⟩ := w
  cases tasks with
  | nil => simp [next?] at h
  | cons f rest =>
    cases f with
    | close =>
      simp only [next?, Option.some.injEq] at h
      subst h
      simp [weight]
    | visit above n =>
      have below := weight_below (n :: above) n
      simp only [next?] at h
      split at h <;> simp only [Option.some.injEq] at h <;> subst h <;>
        simp only [weight, weight_append] <;> omega

def run (source : String) (w : Traversal) : Traversal :=
  match _h : w.next? source with
  | none => w
  | some v => run source v
termination_by weight w.tasks
decreasing_by exact weight_next _h

end Traversal

def ofSource (t : ParsedSource) : List Entry :=
  ((Traversal.start t.root).run t.text).entries.toList

end ScriptLens.Outline
