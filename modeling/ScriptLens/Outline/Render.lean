import ScriptLens.Outline.Entry

namespace ScriptLens.Outline

/-- The line of one entry: two spaces per level, its kind and name, and its line counted from
one. -/
def Entry.rendered (e : Entry) : List Char :=
  List.replicate (2 * e.indent.toNat) ' ' ++ e.construct.label.toList ++ ' ' :: e.name.toList
    ++ ' ' :: ':' :: Nat.toDigits 10 (e.line.toNat + 1)

def render (entries : List Entry) : String :=
  .ofList (entries.flatMap fun e => e.rendered ++ ['\n'])

end ScriptLens.Outline
