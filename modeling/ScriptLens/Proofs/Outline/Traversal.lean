import Mathlib.Logic.Relation
import ScriptLens.Outline.Build
import ScriptLens.Proofs.Tree.Places

namespace ScriptLens

/-- A node that an outline lists. An object literal is listed for a method, or for a property whose
value is a function expression. -/
def Node.IsConstruct (n : Node) : Prop :=
  n.kind ∈ [.classDeclaration, .classExpression, .methodDefinition, .methodSignature,
    .functionDeclaration, .functionExpression, .arrowFunction] ∨
  (n.kind = .objectLiteral ∧ ∃ member ∈ n.namedChildren, member.kind = .methodDefinition ∨
    (member.kind = .pair ∧ ∃ value ∈ member.child? .value, value.kind = .functionExpression))

instance : DecidablePred Node.IsConstruct :=
  fun _ => inferInstanceAs (Decidable (_ ∨ (_ ∧ _)))

namespace Place

def depth (p : Place) : Nat :=
  p.above.countP (·.IsConstruct)

end Place

namespace Node

def constructsFrom (above : List Node) (n : Node) : List Place :=
  (n.places above).filter (·.node.IsConstruct)

def constructs (root : Node) : List Place :=
  root.constructsFrom []

theorem constructsFrom_eq (above : List Node) (n : Node) :
    n.constructsFrom above = (if n.IsConstruct then [⟨above, n⟩] else []) ++
      n.namedChildren.flatMap (constructsFrom (n :: above)) := by
  rw [constructsFrom, places_eq, List.filter_cons, List.filter_flatMap]
  by_cases h : n.IsConstruct
  · simp only [h, decide_true, if_true]
    rfl
  · simp only [h, decide_false, if_false]
    rfl

end Node

namespace Outline

theorem hasMethod_iff (n : Node) :
    hasMethod n = true ↔ ∃ member ∈ n.namedChildren, member.kind = .methodDefinition ∨
      (member.kind = .pair ∧ ∃ value ∈ member.child? .value, value.kind = .functionExpression) := by
  simp only [hasMethod, List.any_eq_true]
  refine exists_congr fun member => and_congr_right fun _ => ?_
  cases hkind : member.kind <;> simp [Option.any_eq_true]

theorem listed?_isSome_iff (source : String) (above : List Node) (n : Node) :
    (listed? source above n).isSome ↔ n.IsConstruct := by
  unfold listed? Node.IsConstruct
  rw [← hasMethod_iff]
  cases hkind : n.kind with
  | objectLiteral => cases hmethod : hasMethod n <;> simp
  | _ => simp

def listing? (source : String) (i : Nat) (p : Place) : Option Entry :=
  (listed? source p.above p.node).map fun (name, construct) =>
    ⟨name, construct, (i + 1).toUInt32, p.node.info.row, p.depth.toUInt64⟩

namespace Traversal

open Relation

variable {source : String} {w v : Traversal}

def scopes : List Task → Nat
  | [] => 0
  | .visit _ _ :: rest => scopes rest
  | .close :: rest => scopes rest + 1

def due : List Task → List Place
  | [] => []
  | .visit above n :: rest => n.constructsFrom above ++ due rest
  | .close :: rest => due rest

def Nested : List Task → Prop
  | [] => True
  | .visit above _ :: rest => scopes rest = above.countP (·.IsConstruct) ∧ Nested rest
  | .close :: rest => Nested rest

theorem scopes_below (above : List Node) (ns : List Node) (rest : List Task) :
    scopes (ns.map (.visit above) ++ rest) = scopes rest := by
  induction ns with
  | nil => rfl
  | cons n ns ih => exact ih

theorem due_below (above : List Node) (ns : List Node) (rest : List Task) :
    due (ns.map (.visit above) ++ rest) = ns.flatMap (Node.constructsFrom above) ++ due rest := by
  induction ns with
  | nil => rfl
  | cons n ns ih =>
      rw [List.flatMap_cons, List.append_assoc, ← ih]
      rfl

theorem nested_below {above : List Node} {rest : List Task} (ns : List Node)
    (hscopes : scopes rest = above.countP (·.IsConstruct)) (hrest : Nested rest) :
    Nested (ns.map (.visit above) ++ rest) := by
  induction ns with
  | nil => exact hrest
  | cons n ns ih => exact ⟨(scopes_below above ns rest).trans hscopes, ih⟩

theorem next?_cases (h : w.next? source = some v) :
    (∃ rest, w.tasks = .close :: rest ∧ v = { w with tasks := rest, depth := w.depth - 1 }) ∨
    (∃ above n rest, w.tasks = .visit above n :: rest ∧ ¬ n.IsConstruct ∧
      v = { w with tasks := n.namedChildren.map (.visit (n :: above)) ++ rest }) ∨
    ∃ above n rest name construct, w.tasks = .visit above n :: rest ∧ n.IsConstruct ∧
      listed? source above n = some (name, construct) ∧
      v = { tasks := n.namedChildren.map (.visit (n :: above)) ++ .close :: rest
            depth := w.depth + 1
            ordinal := w.ordinal + 1
            entries := w.entries.push
              ⟨name, construct, w.ordinal + 1, n.info.row, w.depth.toUInt64⟩ } := by
  unfold next? at h
  cases htasks : w.tasks with
  | nil => simp [htasks] at h
  | cons task rest =>
      cases task with
      | close =>
          simp only [htasks, Option.some.injEq] at h
          exact .inl ⟨rest, rfl, h.symm⟩
      | visit above n =>
          right
          simp only [htasks] at h
          have hiff := listed?_isSome_iff source above n
          cases hlisted : listed? source above n with
          | none =>
              rw [hlisted] at hiff
              simp only [hlisted, Option.some.injEq] at h
              exact .inl ⟨above, n, rest, rfl, fun hn => by simpa using hiff.2 hn, h.symm⟩
          | some found =>
              rw [hlisted] at hiff
              obtain ⟨name, construct⟩ := found
              simp only [hlisted, Option.some.injEq] at h
              exact .inr ⟨above, n, rest, name, construct, rfl, hiff.1 rfl, hlisted, h.symm⟩

/-- A traversal on its way through the constructs `all`, of which it has listed `done`. -/
structure Underway (source : String) (all done : List Place) (w : Traversal) : Prop where
  depth : w.depth = scopes w.tasks
  nested : Nested w.tasks
  rest : all = done ++ due w.tasks
  ordinal : w.ordinal = done.length.toUInt32
  entries : w.entries.toList.map some = done.zipIdx.map fun (p, i) => listing? source i p
  shallow : w.depth ≤ done.length
  bounded : ∀ x ∈ done.zipIdx, x.1.depth ≤ x.2

theorem underway_start (source : String) (root : Node) :
    Underway source root.constructs [] (start root) where
  depth := rfl
  nested := ⟨rfl, trivial⟩
  rest := (List.append_nil _).symm
  ordinal := rfl
  entries := rfl
  shallow := Nat.le_refl 0
  bounded := by simp

section steps

variable {all done : List Place} {above : List Node} {n : Node} {rest : List Task}

theorem Underway.close (h : Underway source all done w) (htasks : w.tasks = .close :: rest) :
    Underway source all done { w with tasks := rest, depth := w.depth - 1 } := by
  obtain ⟨hdepth, hnested, hrest, hordinal, hentries, hshallow, hbounded⟩ := h
  rw [htasks] at hdepth hnested hrest
  refine ⟨?_, hnested, hrest, hordinal, hentries, ?_, hbounded⟩
  · change w.depth - 1 = scopes rest
    rw [hdepth]
    rfl
  · exact Nat.le_trans (Nat.sub_le _ _) hshallow

theorem Underway.pass (h : Underway source all done w) (htasks : w.tasks = .visit above n :: rest)
    (hn : ¬ n.IsConstruct) :
    Underway source all done
      { w with tasks := n.namedChildren.map (.visit (n :: above)) ++ rest } := by
  obtain ⟨hdepth, hnested, hrest, hordinal, hentries, hshallow, hbounded⟩ := h
  rw [htasks] at hdepth hnested hrest
  obtain ⟨hscopes, hnested⟩ := hnested
  refine ⟨?_, ?_, ?_, hordinal, hentries, hshallow, hbounded⟩
  · rw [scopes_below]
    exact hdepth
  · apply nested_below _ _ hnested
    rw [hscopes, List.countP_cons_of_neg (by simpa using hn)]
  · rw [hrest, due_below, due, Node.constructsFrom_eq, if_neg hn, List.nil_append]

theorem Underway.list (h : Underway source all done w) (htasks : w.tasks = .visit above n :: rest)
    (hn : n.IsConstruct) {name : String} {construct : Construct}
    (hlisted : listed? source above n = some (name, construct)) :
    Underway source all (done ++ [⟨above, n⟩])
      { tasks := n.namedChildren.map (.visit (n :: above)) ++ .close :: rest
        depth := w.depth + 1
        ordinal := w.ordinal + 1
        entries := w.entries.push
          ⟨name, construct, w.ordinal + 1, n.info.row, w.depth.toUInt64⟩ } := by
  obtain ⟨hdepth, hnested, hrest, hordinal, hentries, hshallow, hbounded⟩ := h
  rw [htasks] at hdepth hnested hrest
  obtain ⟨hscopes, hnested⟩ := hnested
  have hplace : w.depth = (Place.mk above n).depth := hdepth.trans hscopes
  have hcount : w.ordinal + 1 = (done.length + 1).toUInt32 := by
    rw [hordinal, Nat.toUInt32_eq, Nat.toUInt32_eq, UInt32.ofNat_add]
    rfl
  refine ⟨?_, ?_, ?_, ?_, ?_, ?_, ?_⟩
  · rw [scopes_below]
    exact congrArg (· + 1) hdepth
  · have hclosed : Nested (.close :: rest) := hnested
    apply nested_below _ _ hclosed
    rw [List.countP_cons_of_pos (by simpa using hn), ← hscopes]
    rfl
  · rw [hrest, due_below, due, Node.constructsFrom_eq, if_pos hn]
    simp only [List.append_assoc]
    rfl
  · rw [List.length_append]
    exact hcount
  · rw [Array.toList_push, List.map_append, hentries, List.zipIdx_append, List.map_append]
    simp [listing?, hlisted, hcount, hplace]
  · rw [List.length_append]
    exact Nat.add_le_add_right hshallow 1
  · intro x hx
    rw [List.zipIdx_append, List.mem_append] at hx
    rcases hx with hx | hx
    · exact hbounded x hx
    · simp only [List.zipIdx_cons, List.zipIdx_nil, List.mem_singleton] at hx
      subst hx
      rw [← hplace]
      simpa using hshallow

theorem Underway.next (h : Underway source all done w) (hnext : w.next? source = some v) :
    ∃ done', Underway source all done' v := by
  obtain ⟨rest, htasks, rfl⟩ | ⟨above, n, rest, htasks, hn, rfl⟩ |
    ⟨above, n, rest, name, construct, htasks, hn, hlisted, rfl⟩ := next?_cases hnext
  · exact ⟨done, h.close htasks⟩
  · exact ⟨done, h.pass htasks hn⟩
  · exact ⟨_, h.list htasks hn hlisted⟩

end steps

def Leads (source : String) : Traversal → Traversal → Prop :=
  ReflTransGen fun w v => w.next? source = some v

theorem Leads.underway {root : Node} (h : Leads source (start root) w) :
    ∃ done, Underway source root.constructs done w := by
  induction h with
  | refl => exact ⟨[], underway_start source root⟩
  | tail _ hnext ih =>
      obtain ⟨done, hdone⟩ := ih
      exact hdone.next hnext

theorem leads_run (source : String) (w : Traversal) : Leads source w (w.run source) := by
  fun_induction run source w with
  | case1 w hnone => exact .refl
  | case2 w v hnext ih => exact .head hnext ih

theorem tasks_run (source : String) (w : Traversal) : (w.run source).tasks = [] := by
  fun_induction run source w with
  | case1 w hnone =>
      unfold next? at hnone
      split at hnone
      · assumption
      · cases hnone
      · dsimp only at hnone
        split at hnone <;> cases hnone
  | case2 w v hnext ih => exact ih

theorem underway_run (source : String) (root : Node) :
    Underway source root.constructs root.constructs ((start root).run source) := by
  obtain ⟨done, hdone⟩ := (leads_run source (start root)).underway
  have hrest := hdone.rest
  rw [tasks_run, due, List.append_nil] at hrest
  rwa [← hrest] at hdone

end Traversal

theorem ofSource_map_some (t : ParsedSource) :
    (ofSource t).map some = t.root.constructs.zipIdx.map fun (p, i) => listing? t.text i p :=
  (Traversal.underway_run t.text t.root).entries

theorem length_ofSource (t : ParsedSource) : (ofSource t).length = t.root.constructs.length := by
  have h := congrArg List.length (ofSource_map_some t)
  rwa [List.length_map, List.length_map, List.length_zipIdx] at h

theorem map_ofSource {α : Type} (t : ParsedSource) {f : Entry → α} {g : Place × Nat → α}
    (h : ∀ x ∈ t.root.constructs.zipIdx, ∀ e, listing? t.text x.2 x.1 = some e → f e = g x) :
    (ofSource t).map f = t.root.constructs.zipIdx.map g := by
  have hsome := ofSource_map_some t
  generalize ofSource t = entries at hsome ⊢
  generalize t.root.constructs.zipIdx = places at hsome h ⊢
  induction entries generalizing places with
  | nil =>
      have hnil := List.map_eq_nil_iff.1 hsome.symm
      rw [hnil]
      rfl
  | cons e entries ih =>
      cases places with
      | nil => cases hsome
      | cons x places =>
          rw [List.map_cons, List.map_cons, List.cons.injEq] at hsome
          rw [List.map_cons, List.map_cons, h x List.mem_cons_self e hsome.1.symm]
          exact congrArg _ (ih places hsome.2 fun y hy => h y (List.mem_cons_of_mem _ hy))

/-- One entry is listed for each construct, in document order. Ordinals count from one, and the
indentation counts the constructs above. A scope is closed only where one is open, and none is open
in the end. -/
theorem ofSource_lists_constructs (t : ParsedSource) (hfew : (ofSource t).length < UInt32.size) :
    (ofSource t).map (fun e => (e.ordinal.toNat, e.line, e.indent.toNat)) =
      t.root.constructs.zipIdx.map (fun (p, i) => (i + 1, p.node.info.row, p.depth)) ∧
    (ofSource t).map (fun e => some (e.name, e.construct)) =
      t.root.constructs.map (fun p => listed? t.text p.above p.node) ∧
    (∀ w rest, Traversal.Leads t.text (.start t.root) w → w.tasks = .close :: rest → 0 < w.depth) ∧
    ((Traversal.start t.root).run t.text).depth = 0 := by
  rw [length_ofSource] at hfew
  refine ⟨?_, ?_, ?_, ?_⟩
  · apply map_ofSource
    rintro ⟨p, i⟩ hx e he
    obtain ⟨⟨name, construct⟩, -, rfl⟩ := Option.map_eq_some_iff.1 he
    have hi : i < t.root.constructs.length := (List.mem_zipIdx' hx).1
    have hdepth : p.depth ≤ i := (Traversal.underway_run t.text t.root).bounded _ hx
    have hordinal : (i + 1).toUInt32.toNat = i + 1 :=
      UInt32.toNat_ofNat_of_lt' (Nat.lt_of_le_of_lt hi hfew)
    have hindent : p.depth.toUInt64.toNat = p.depth := by
      apply UInt64.toNat_ofNat_of_lt'
      have hsize : UInt32.size ≤ UInt64.size := by decide
      omega
    rw [hordinal, hindent]
  · rw [← List.zipIdx_map_fst 0 t.root.constructs, List.map_map]
    apply map_ofSource
    rintro ⟨p, i⟩ - e he
    obtain ⟨⟨name, construct⟩, hlisted, rfl⟩ := Option.map_eq_some_iff.1 he
    exact hlisted.symm
  · intro w rest hleads htasks
    obtain ⟨done, hdone⟩ := hleads.underway
    rw [hdone.depth, htasks]
    exact Nat.succ_pos _
  · rw [(Traversal.underway_run t.text t.root).depth, Traversal.tasks_run]
    rfl

/-- A function that holds a literal of data with a function in it, and a class. The literal neither
has an entry nor makes its function deeper. -/
theorem ofSource_lists_constructs_nested :
    let node (type : String) (row : UInt64) (children : List Node) : Node :=
      .mk ⟨type, 0, 0, row, 0, true, false, false, false, []⟩ children
    let t : ParsedSource := ⟨"a.ts", none, .ts, "", node "program" 0
      [node "function_declaration" 1
        [node "object" 2 [node "pair" 3 [node "arrow_function" 3 []]],
         node "class_declaration" 4 [node "class_body" 4 [node "method_definition" 5 []]]],
       node "function_expression" 7 []]⟩
    (ofSource t).length < UInt32.size ∧
    (ofSource t).map (fun e => (e.ordinal.toNat, e.line, e.indent.toNat)) =
      [(1, 1, 0), (2, 3, 1), (3, 4, 1), (4, 5, 2), (5, 7, 0)] := by
  intro node t
  have hfew : (ofSource t).length < UInt32.size := by
    rw [length_ofSource]
    decide +kernel
  refine ⟨hfew, (ofSource_lists_constructs t hfew).1.trans ?_⟩
  decide +kernel

end Outline

end ScriptLens
