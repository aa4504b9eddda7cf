import Mathlib.Data.List.Forall2
import ScriptLens.Diagnostic.Collect
import ScriptLens.Proofs.Tree.Places

namespace ScriptLens

namespace Node

/-- A stretch of text that fits no rule, or a token that the parser had to make up. -/
def IsFault (n : Node) : Prop :=
  n.info.isError = true ∨ n.info.missing = true

instance (n : Node) : Decidable n.IsFault :=
  inferInstanceAs (Decidable (_ ∨ _))

/-- What the parser promises: the flag of a node tells of the faults in it, and there is nothing
below a token that was made up. -/
structure Flagged (root : Node) : Prop where
  hasError_iff : ∀ n ∈ root.preorder, (n.info.hasError = true ↔ ∃ m ∈ n.preorder, m.IsFault)
  children_missing : ∀ n ∈ root.preorder, n.info.missing = true → n.children = []

theorem Flagged.child {n c : Node} (h : n.Flagged) (hc : c ∈ n.children) : c.Flagged :=
  ⟨fun m hm => h.hasError_iff m (mem_preorder_of_child hc hm),
   fun m hm => h.children_missing m (mem_preorder_of_child hc hm)⟩

theorem Flagged.root_iff {n : Node} (h : n.Flagged) :
    n.info.hasError = true ↔ ∃ m ∈ n.preorder, m.IsFault :=
  h.hasError_iff n n.self_mem_preorder

end Node

def Place.OutermostFault (p : Place) : Prop :=
  p.node.IsFault ∧ ∀ n ∈ p.above, n.info.isError = false

instance (p : Place) : Decidable p.OutermostFault :=
  inferInstanceAs (Decidable (_ ∧ _))

namespace Node

def outermostFaults (above : List Node) (n : Node) : List Place :=
  (n.fullPlaces above).filter (·.OutermostFault)

variable {above : List Node} {n : Node}

theorem outermostFaults_eq (above : List Node) (n : Node) :
    n.outermostFaults above =
      (if (Place.mk above n).OutermostFault then [⟨above, n⟩] else []) ++
        n.children.flatMap (outermostFaults (n :: above)) := by
  rw [outermostFaults, fullPlaces_eq, List.filter_cons, List.filter_flatMap]
  by_cases hself : (Place.mk above n).OutermostFault
  · simp only [hself, decide_true, if_true]
    rfl
  · simp only [hself, decide_false, if_false]
    rfl

theorem outermostFaults_inside_error (herror : ∃ a ∈ above, a.info.isError = true) :
    n.outermostFaults above = [] := by
  obtain ⟨a, ha, herror⟩ := herror
  rw [outermostFaults, List.filter_eq_nil_iff]
  intro p hp houtermost
  have hclean := (of_decide_eq_true houtermost).2 a (above_subset hp ha)
  rw [herror] at hclean
  cases hclean

theorem outermostFaults_of_faultless (h : ∀ m ∈ n.preorder, ¬ m.IsFault) :
    n.outermostFaults above = [] := by
  rw [outermostFaults, List.filter_eq_nil_iff]
  intro p hp houtermost
  have hmem : p.node ∈ n.preorder := by
    rw [← map_node_fullPlaces above]
    exact List.mem_map_of_mem hp
  exact h p.node hmem (of_decide_eq_true houtermost).1

theorem outermostFaults_of_fault (h : n.Flagged) (hfault : n.IsFault)
    (habove : ∀ a ∈ above, a.info.isError = false) : n.outermostFaults above = [⟨above, n⟩] := by
  have hself : (Place.mk above n).OutermostFault := ⟨hfault, habove⟩
  have hinside : n.children.flatMap (outermostFaults (n :: above)) = [] := by
    rw [List.flatMap_eq_nil_iff]
    intro c hc
    rcases hfault with herror | hmissing
    · exact outermostFaults_inside_error ⟨n, List.mem_cons_self, herror⟩
    · rw [h.children_missing n n.self_mem_preorder hmissing] at hc
      cases hc
  rw [outermostFaults_eq, if_pos hself, hinside, List.append_nil]

theorem outermostFaults_of_not_fault (hfault : ¬ n.IsFault) :
    n.outermostFaults above = n.children.flatMap (outermostFaults (n :: above)) := by
  have hself : ¬ (Place.mk above n).OutermostFault := fun hself => hfault hself.1
  rw [outermostFaults_eq, if_neg hself, List.nil_append]

end Node

namespace Diagnostic

def faultMessage (n : Node) : String :=
  if n.info.isError then "Syntax error." else "'" ++ n.info.type ++ "' expected."

structure Reports (d : Diagnostic) (n : Node) : Prop where
  message : d.message = faultMessage n
  category : d.category = .error
  start : d.start = n.info.start
  length : d.length = n.info.stop - n.info.start

theorem message?_of_fault {n : Node} (h : n.IsFault) : message? n = some (faultMessage n) := by
  rw [message?, faultMessage]
  cases herror : n.info.isError with
  | true => rfl
  | false => simp [h.resolve_left (by simp [herror])]

theorem message?_of_not_fault {n : Node} (h : ¬ n.IsFault) : message? n = none := by
  rw [Node.IsFault, not_or] at h
  rw [message?, if_neg h.1, if_neg h.2]

def report? (source : String) (n : Node) : Option Diagnostic :=
  (message? n).map (ofNode source · n)

def below (source : String) (n : Node) : List Diagnostic :=
  (n.reached fun n _ => isOpen n).filterMap (report? source)

theorem toList_foldl_reportNode (source : String) (ns : List Node) (found : Array Diagnostic) :
    (ns.foldl (reportNode source) found).toList =
      found.toList ++ ns.filterMap (report? source) := by
  induction ns generalizing found with
  | nil => exact (List.append_nil _).symm
  | cons n ns ih =>
      rw [List.foldl_cons, ih, reportNode, List.filterMap_cons, report?]
      cases message? n with
      | none => rfl
      | some message => simp

theorem toList_walk (source : String) (n : Node) :
    (Node.walk (fun n _ => isOpen n) (reportNode source) [n] #[]).toList = below source n := by
  rw [Node.walk_singleton, toList_foldl_reportNode]
  rfl

section below

variable {source : String} {n : Node}

theorem below_unfold (source : String) (n : Node) :
    below source n =
      (report? source n).toList ++
        if isOpen n then n.children.flatMap (below source) else [] := by
  have hbelow : (n.children.flatMap (Node.reached fun n _ => isOpen n)).filterMap (report? source) =
      n.children.flatMap (below source) := List.filterMap_flatMap
  rw [below, Node.reached_eq, List.filterMap_cons, ← hbelow]
  cases hopen : isOpen n <;> cases report? source n <;> simp

theorem below_of_fault (h : n.IsFault) :
    below source n = [ofNode source (faultMessage n) n] := by
  have hclosed : ¬ isOpen n = true := by simp [isOpen, message?_of_fault h]
  rw [below_unfold, if_neg hclosed, report?, message?_of_fault h]
  rfl

theorem below_of_not_fault (h : ¬ n.IsFault) :
    below source n = if n.info.hasError then n.children.flatMap (below source) else [] := by
  have hopen : isOpen n = n.info.hasError := by simp [isOpen, message?_of_not_fault h]
  rw [below_unfold, hopen, report?, message?_of_not_fault h]
  rfl

theorem below_eq (h : n.Flagged) {above : List Node}
    (habove : ∀ a ∈ above, a.info.isError = false) :
    below source n =
      (n.outermostFaults above).map fun p => ofNode source (faultMessage p.node) p.node := by
  -- the walk stops at a fault, so it never has an error above it
  induction n using Node.childInduction generalizing above with
  | step n ih =>
      by_cases hfault : n.IsFault
      · rw [below_of_fault hfault, Node.outermostFaults_of_fault h hfault habove]
        rfl
      · rw [below_of_not_fault hfault]
        cases hflag : n.info.hasError with
        | true =>
            have hclean : ∀ a ∈ n :: above, a.info.isError = false := by
              intro a ha
              rcases List.mem_cons.1 ha with rfl | ha
              · exact Bool.eq_false_iff.2 fun herror => hfault (.inl herror)
              · exact habove a ha
            rw [if_pos rfl, Node.outermostFaults_of_not_fault hfault, List.map_flatMap]
            exact List.flatMap_congr fun c hc => ih c hc (h.child hc) hclean
        | false =>
            have hfaultless : ∀ m ∈ n.preorder, ¬ m.IsFault := by
              intro m hm hmfault
              have hset := h.root_iff.2 ⟨m, hm, hmfault⟩
              rw [hflag] at hset
              cases hset
            rw [if_neg Bool.false_ne_true, Node.outermostFaults_of_faultless hfaultless]
            rfl

theorem below_ne_nil (h : n.Flagged) (hflag : n.info.hasError = true) : below source n ≠ [] := by
  induction n using Node.childInduction with
  | step n ih =>
      by_cases hfault : n.IsFault
      · rw [below_of_fault hfault]
        exact List.cons_ne_nil _ _
      · -- the fault that the flag tells of is below a child, whose flag tells of it too
        obtain ⟨m, hm, hmfault⟩ := h.root_iff.1 hflag
        rw [Node.preorder_eq, List.mem_cons, List.mem_flatMap] at hm
        rcases hm with rfl | ⟨c, hc, hm⟩
        · exact absurd hmfault hfault
        · have hchild := h.child hc
          have hne := ih c hc hchild (hchild.root_iff.2 ⟨m, hm, hmfault⟩)
          rw [below_of_not_fault hfault, if_pos hflag]
          exact fun hnil => hne (List.flatMap_eq_nil_iff.1 hnil c hc)

end below

theorem ofSource_eq_below {t : ParsedSource} (h : t.root.Flagged) :
    ofSource t = below t.text t.root := by
  rw [ofSource, toList_walk, ParsedSource.hasErrors]
  split
  · rfl
  · next hflag =>
    have hfault : ¬ t.root.IsFault := fun hfault =>
      hflag (h.root_iff.2 ⟨t.root, t.root.self_mem_preorder, hfault⟩)
    rw [below_of_not_fault hfault, if_neg hflag]

theorem reports_ofNode {source : String} (n : Node) :
    (ofNode source (faultMessage n) n).Reports n :=
  ⟨rfl, rfl, rfl, rfl⟩

/-- If the flags of the tree are true, the diagnostics are those of the faults that are not inside a
stretch that fits no rule, one each and in document order. There are none exactly if the root's flag
is off. -/
theorem reports_outermost_faults (t : ParsedSource) (h : t.root.Flagged) :
    List.Forall₂ (fun d p => Reports d p.node) (ofSource t)
      ((t.root.fullPlaces []).filter (·.OutermostFault)) ∧
    (t.root.fullPlaces []).map (·.node) = t.root.preorder ∧
    (ofSource t = [] ↔ t.hasErrors = false) := by
  rw [ofSource_eq_below h]
  refine ⟨?_, Node.map_node_fullPlaces [] t.root, ?_, ?_⟩
  · rw [below_eq h fun a ha => absurd ha List.not_mem_nil, List.forall₂_map_left_iff]
    exact List.forall₂_same.2 fun p _ => reports_ofNode p.node
  · intro hnil
    exact Bool.eq_false_iff.2 fun hflag => below_ne_nil h hflag hnil
  · intro hflag
    rw [← ofSource_eq_below h, ofSource, hflag]
    rfl

/-- A stretch that fits no rule with another in it, and a semicolon that is missing two blocks
down. -/
theorem reports_outermost_faults_nested :
    let node (type : String) (start stop : UInt64) (error missing flag : Bool)
        (below : List Node) : Node :=
      .mk ⟨type, start, stop, 0, start, true, error, missing, flag, []⟩ below
    let t : ParsedSource := ⟨"a.ts", none, .ts, "a; ( ) \x7b \x7b d \x7d \x7d",
      node "program" 0 16 false false true
        [node "expression_statement" 0 2 false false false
          [node "identifier" 0 1 false false false []],
         node "ERROR" 3 6 true false true [node "ERROR" 5 6 true false true []],
         node "statement_block" 7 16 false false true
          [node "statement_block" 9 14 false false true
            [node "expression_statement" 11 12 false false true
              [node "identifier" 11 12 false false false [],
               node ";" 12 12 false true true []]]]]⟩
    t.root.Flagged ∧
    ((t.root.fullPlaces []).filter (·.OutermostFault)).map (·.node.info.start) = [3, 12] ∧
    List.Forall₂ (fun d p => Reports d p.node) (ofSource t)
      ((t.root.fullPlaces []).filter (·.OutermostFault)) ∧
    ofSource t = [⟨"Syntax error.", .error, 3, 3, 0, 3⟩, ⟨"';' expected.", .error, 12, 0, 0, 12⟩] := by
  intro node t
  have hflagged : t.root.Flagged := ⟨by decide +kernel, by decide +kernel⟩
  exact ⟨hflagged, by decide +kernel, (reports_outermost_faults t hflagged).1, by decide +kernel⟩

end Diagnostic

end ScriptLens
