import Mathlib.Logic.Relation
import ScriptLens.Tree.Walk

namespace ScriptLens

/-- A node in a tree, with its ancestors from the parent outwards. -/
structure Place where
  above : List Node
  node : Node

namespace Node

open Relation

def Reaches : Node → Node → Prop :=
  ReflTransGen fun n c => c ∈ n.namedChildren

theorem size_le_sizeAll {n : Node} {ns : List Node} (h : n ∈ ns) : n.size ≤ sizeAll ns := by
  induction ns with
  | nil => cases h
  | cons m ns ih =>
      rw [sizeAll]
      rcases List.mem_cons.1 h with rfl | hmem
      · exact Nat.le_add_right _ _
      · exact Nat.le_trans (ih hmem) (Nat.le_add_left _ _)

theorem size_lt_of_mem_namedChildren {n c : Node} (h : c ∈ n.namedChildren) : c.size < n.size :=
  Nat.lt_of_le_of_lt (size_le_sizeAll h) (sizeAll_namedChildren_lt n)

theorem size_lt_of_mem_children {n c : Node} (h : c ∈ n.children) : c.size < n.size := by
  obtain ⟨info, children⟩ := n
  exact Nat.lt_succ_of_le (size_le_sizeAll h)

theorem childInduction {motive : Node → Prop}
    (step : ∀ n : Node, (∀ c ∈ n.children, motive c) → motive n) (n : Node) : motive n := by
  induction hsize : n.size using Nat.strongRecOn generalizing n with
  | ind size ih =>
      subst hsize
      exact step n fun c hc => ih c.size (size_lt_of_mem_children hc) c rfl

mutual

/-- The nodes that a walk from a node comes to, a parent before its children. -/
def reached (enters : Node → Node → Bool) : Node → List Node
  | mk info children => mk info children :: reachedAll enters (mk info children) children

def reachedAll (enters : Node → Node → Bool) (parent : Node) : List Node → List Node
  | [] => []
  | n :: ns =>
    if enters parent n then n.reached enters ++ reachedAll enters parent ns
    else reachedAll enters parent ns

end

theorem reachedAll_eq (enters : Node → Node → Bool) (parent : Node) (ns : List Node) :
    reachedAll enters parent ns = (ns.filter (enters parent)).flatMap (reached enters) := by
  induction ns with
  | nil => rfl
  | cons n ns ih =>
      rw [reachedAll, ih]
      cases hn : enters parent n <;> simp [hn]

theorem reached_eq (enters : Node → Node → Bool) (n : Node) :
    n.reached enters = n :: (n.children.filter (enters n)).flatMap (reached enters) := by
  obtain ⟨info, children⟩ := n
  rw [reached, reachedAll_eq]
  rfl

/-- A walk visits what it reaches from the nodes on the stack, from the top downwards. -/
theorem walk_eq_foldl {σ : Type} (enters : Node → Node → Bool) (visit : σ → Node → σ)
    (stack : List Node) (s : σ) :
    walk enters visit stack s = (stack.flatMap (reached enters)).foldl visit s := by
  fun_induction walk enters visit stack s with
  | case1 s => rfl
  | case2 s n stack ih =>
      rw [ih, List.flatMap_append, List.flatMap_cons, reached_eq, List.cons_append,
        List.foldl_cons]

theorem walk_singleton {σ : Type} (enters : Node → Node → Bool) (visit : σ → Node → σ) (n : Node)
    (s : σ) : walk enters visit [n] s = (n.reached enters).foldl visit s := by
  rw [walk_eq_foldl, List.flatMap_singleton]

def preorder (n : Node) : List Node :=
  n.reached fun _ _ => true

theorem preorder_eq (n : Node) : n.preorder = n :: n.children.flatMap preorder := by
  rw [preorder, reached_eq, List.filter_eq_self.2 fun _ _ => rfl]
  rfl

theorem self_mem_preorder (n : Node) : n ∈ n.preorder := by
  rw [preorder_eq]
  exact List.mem_cons_self

theorem mem_preorder_of_child {n c m : Node} (hc : c ∈ n.children) (hm : m ∈ c.preorder) :
    m ∈ n.preorder := by
  rw [preorder_eq]
  exact List.mem_cons_of_mem _ (List.mem_flatMap.2 ⟨c, hc, hm⟩)

def namedPreorder (n : Node) : List Node :=
  n.reached fun _ c => c.info.named

theorem namedPreorder_eq (n : Node) :
    n.namedPreorder = n :: n.namedChildren.flatMap namedPreorder :=
  reached_eq _ n

theorem mem_namedPreorder_iff {n m : Node} : m ∈ n.namedPreorder ↔ n.Reaches m := by
  constructor
  · intro h
    induction hsize : n.size using Nat.strongRecOn generalizing n with
    | ind size ih =>
        subst hsize
        rw [namedPreorder_eq, List.mem_cons, List.mem_flatMap] at h
        rcases h with rfl | ⟨c, hc, hm⟩
        · exact .refl
        · exact .head hc (ih c.size (size_lt_of_mem_namedChildren hc) hm rfl)
  · intro h
    induction h using ReflTransGen.head_induction_on with
    | refl =>
        rw [namedPreorder_eq]
        exact List.mem_cons_self
    | head hc _ ih =>
        rw [namedPreorder_eq]
        exact List.mem_cons_of_mem _ (List.mem_flatMap.2 ⟨_, hc, ih⟩)

mutual

def places (above : List Node) : Node → List Place
  | mk info children =>
    ⟨above, mk info children⟩ :: placesAll (mk info children :: above) children

def placesAll (above : List Node) : List Node → List Place
  | [] => []
  | n :: ns => if n.info.named then n.places above ++ placesAll above ns else placesAll above ns

end

theorem placesAll_eq (above : List Node) (ns : List Node) :
    placesAll above ns = (ns.filter (·.info.named)).flatMap (places above) := by
  induction ns with
  | nil => rfl
  | cons n ns ih =>
      rw [placesAll, ih]
      cases hn : n.info.named <;> simp [hn]

theorem places_eq (above : List Node) (n : Node) :
    n.places above = ⟨above, n⟩ :: n.namedChildren.flatMap (places (n :: above)) := by
  obtain ⟨info, children⟩ := n
  rw [places, placesAll_eq]
  rfl

mutual

/-- All places, those of anonymous nodes too, a parent before its children. -/
def fullPlaces (above : List Node) : Node → List Place
  | mk info children =>
    ⟨above, mk info children⟩ :: fullPlacesAll (mk info children :: above) children

def fullPlacesAll (above : List Node) : List Node → List Place
  | [] => []
  | n :: ns => n.fullPlaces above ++ fullPlacesAll above ns

end

theorem fullPlacesAll_eq (above : List Node) (ns : List Node) :
    fullPlacesAll above ns = ns.flatMap (fullPlaces above) := by
  induction ns with
  | nil => rfl
  | cons n ns ih => rw [fullPlacesAll, ih, List.flatMap_cons]

theorem fullPlaces_eq (above : List Node) (n : Node) :
    n.fullPlaces above = ⟨above, n⟩ :: n.children.flatMap (fullPlaces (n :: above)) := by
  obtain ⟨info, children⟩ := n
  rw [fullPlaces, fullPlacesAll_eq]
  rfl

theorem map_node_fullPlaces (above : List Node) (n : Node) :
    (n.fullPlaces above).map (·.node) = n.preorder := by
  induction n using childInduction generalizing above with
  | step n ih =>
      rw [fullPlaces_eq, preorder_eq, List.map_cons, List.map_flatMap, List.flatMap_def,
        List.flatMap_def, List.map_congr_left fun c hc => ih c hc (n :: above)]

theorem above_subset {above : List Node} {n : Node} {p : Place} (h : p ∈ n.fullPlaces above) :
    above ⊆ p.above := by
  induction n using childInduction generalizing above with
  | step n ih =>
      rw [fullPlaces_eq, List.mem_cons, List.mem_flatMap] at h
      rcases h with rfl | ⟨c, hc, hp⟩
      · exact List.Subset.refl _
      · exact fun a ha => ih c hc hp (List.mem_cons_of_mem _ ha)

end Node

end ScriptLens
