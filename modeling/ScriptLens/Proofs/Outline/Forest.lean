import Mathlib.Data.List.Forall2
import Mathlib.Data.List.TakeWhile
import ScriptLens.Proofs.Outline.Nesting
import ScriptLens.Proofs.Outline.Traversal

namespace ScriptLens

namespace Node

/-- The nearest construct among the ancestors of a node, itself with its ancestors. -/
def enclosing? : List Node → Option Place
  | [] => none
  | n :: above => if n.IsConstruct then some ⟨above, n⟩ else enclosing? above

end Node

def Place.owner? (p : Place) : Option Place :=
  Node.enclosing? p.above

namespace Outline

mutual

def Branch.flatten : Branch → List Entry
  | .mk entry children => entry :: flattenAll children

def Branch.flattenAll : List Branch → List Entry
  | [] => []
  | b :: bs => b.flatten ++ flattenAll bs

end

structure Entry.StandsFor (source : String) (e : Entry) (p : Place) : Prop where
  listed : listed? source p.above p.node = some (e.name, e.construct)
  line : e.line = p.node.info.row
  indent : e.indent.toNat = p.depth

/-- Branches that stand for the given places, one by one, a branch before those below it. The
branches side by side stand for places of one owner and are indented by one level; those below a
branch stand for places that its own place is the owner of, and are indented one level more. -/
inductive Mirrors (source : String) : Option Place → Nat → List Branch → List Place → Prop
  | nil (owner : Option Place) (level : Nat) : Mirrors source owner level [] []
  | cons {owner : Option Place} {level : Nat} {e : Entry} {below after : List Branch} {p : Place}
      {inner rest : List Place} (hentry : e.StandsFor source p) (howner : p.owner? = owner)
      (hlevel : e.indent.toNat = level) (hbelow : Mirrors source (some p) (level + 1) below inner)
      (hafter : Mirrors source owner level after rest) :
      Mirrors source owner level (.mk e below :: after) (p :: inner ++ rest)

variable {source : String} {owner : Option Place} {level : Nat}

theorem flatten_forest (entries : List Entry) : Branch.flattenAll (forest entries) = entries := by
  induction entries using grouped.induct with
  | case1 => rw [forest_nil, Branch.flattenAll]
  | case2 e rest ihBelow ihAfter =>
      rw [forest_cons, Branch.flattenAll, Branch.flatten, ihBelow, ihAfter, List.cons_append,
        List.takeWhile_append_dropWhile]

/-- Entries that are all indented more than the one before them lie below it. -/
theorem forest_cons_of_lt {e : Entry} {rest : List Entry} (h : ∀ x ∈ rest, e.indent < x.indent) :
    forest (e :: rest) = [.mk e (forest rest)] := by
  have htake : rest.takeWhile (fun x => decide (e.indent < x.indent)) = rest := by
    rw [List.takeWhile_eq_self_iff]
    simpa using h
  have hdrop : rest.dropWhile (fun x => decide (e.indent < x.indent)) = [] := by
    rw [List.dropWhile_eq_nil_iff]
    simpa using h
  rw [forest_cons, htake, hdrop, forest_nil]

theorem takeWhile_append_cons {α : Type} (p : α → Bool) {y : α} (hy : p y = false)
    (a b : List α) : (a ++ y :: b).takeWhile p = a.takeWhile p := by
  induction a with
  | nil => simp [hy]
  | cons x a ih => cases hx : p x <;> simp [hx, ih]

theorem dropWhile_append_cons {α : Type} (p : α → Bool) {y : α} (hy : p y = false)
    (a b : List α) : (a ++ y :: b).dropWhile p = a.dropWhile p ++ y :: b := by
  induction a with
  | nil => simp [hy]
  | cons x a ih => cases hx : p x <;> simp [hx, ih]

/-- An entry that is indented no more than any before it opens a branch beside theirs. -/
theorem forest_append_cons {a b : List Entry} {y : Entry} (h : ∀ x ∈ a, y.indent ≤ x.indent) :
    forest (a ++ y :: b) = forest a ++ forest (y :: b) := by
  induction a using grouped.induct with
  | case1 => rw [forest_nil, List.nil_append, List.nil_append]
  | case2 e rest ihBelow ihAfter =>
      have hy : decide (e.indent < y.indent) = false := by
        rw [decide_eq_false_iff_not, UInt64.not_lt]
        exact h e List.mem_cons_self
      have hafter : ∀ x ∈ rest.dropWhile (fun x => decide (e.indent < x.indent)),
          y.indent ≤ x.indent := by
        intro x hx
        exact h x (List.mem_cons_of_mem _ ((List.dropWhile_suffix _).subset hx))
      have htake := takeWhile_append_cons (fun x => decide (e.indent < x.indent)) hy rest b
      have hdrop := dropWhile_append_cons (fun x => decide (e.indent < x.indent)) hy rest b
      rw [List.cons_append, forest_cons, forest_cons, htake, hdrop, ihAfter hafter, List.cons_append]

theorem Mirrors.append {branches branches' : List Branch} {places places' : List Place}
    (h : Mirrors source owner level branches places)
    (h' : Mirrors source owner level branches' places') :
    Mirrors source owner level (branches ++ branches') (places ++ places') := by
  induction h with
  | nil => exact h'
  | cons hentry howner hlevel hbelow _ _ ih =>
      rw [List.cons_append, List.append_assoc]
      exact .cons hentry howner hlevel hbelow (ih h')

theorem Mirrors.level_le {branches : List Branch} {places : List Place}
    (h : Mirrors source owner level branches places) :
    ∀ e ∈ Branch.flattenAll branches, level ≤ e.indent.toNat := by
  induction h with
  | nil => simp [Branch.flattenAll]
  | cons hentry howner hlevel hbelow hafter ihBelow ihAfter =>
      intro x hx
      rw [Branch.flattenAll, Branch.flatten, List.cons_append, List.mem_cons, List.mem_append] at hx
      rcases hx with rfl | hx | hx
      · exact hlevel.ge
      · exact Nat.le_of_succ_le (ihBelow x hx)
      · exact ihAfter x hx

theorem Mirrors.head {e : Entry} {rest : List Entry} {places : List Place}
    (h : Mirrors source owner level (forest (e :: rest)) places) : e.indent.toNat = level := by
  rw [forest_cons] at h
  cases h with
  | cons hentry howner hlevel hbelow hafter => exact hlevel

theorem Mirrors.forest_append {a b : List Entry} {places places' : List Place}
    (ha : Mirrors source owner level (forest a) places)
    (hb : Mirrors source owner level (forest b) places') :
    Mirrors source owner level (forest (a ++ b)) (places ++ places') := by
  have happend : forest (a ++ b) = forest a ++ forest b := by
    cases b with
    | nil => rw [List.append_nil, forest_nil, List.append_nil]
    | cons y b =>
        apply forest_append_cons
        intro x hx
        rw [UInt64.le_iff_toNat_le, hb.head]
        rw [← flatten_forest a] at hx
        exact ha.level_le x hx
  rw [happend]
  exact ha.append hb

theorem mirrors_flatMap {above : List Node} {ns : List Node}
    (h : ∀ n ∈ ns, ∀ entries, entries.Forall₂ (Entry.StandsFor source) (n.constructsFrom above) →
      Mirrors source owner level (forest entries) (n.constructsFrom above)) {entries : List Entry}
    (hentries : entries.Forall₂ (Entry.StandsFor source)
      (ns.flatMap (Node.constructsFrom above))) :
    Mirrors source owner level (forest entries) (ns.flatMap (Node.constructsFrom above)) := by
  induction ns generalizing entries with
  | nil =>
      rw [List.flatMap_nil, List.forall₂_nil_right_iff] at hentries
      rw [hentries, forest_nil]
      exact .nil owner level
  | cons n ns ih =>
      rw [List.flatMap_cons] at hentries ⊢
      have hfirst := h n List.mem_cons_self _ (List.forall₂_take_append _ _ _ hentries)
      have hrest := ih (fun m hm => h m (List.mem_cons_of_mem _ hm))
        (List.forall₂_drop_append _ _ _ hentries)
      rw [← List.take_append_drop (n.constructsFrom above).length entries]
      exact hfirst.forest_append hrest

theorem mirrors_constructsFrom (above : List Node) (n : Node) {entries : List Entry}
    (hentries : entries.Forall₂ (Entry.StandsFor source) (n.constructsFrom above)) :
    Mirrors source (Node.enclosing? above) (above.countP (·.IsConstruct)) (forest entries)
      (n.constructsFrom above) := by
  induction hsize : n.size using Nat.strongRecOn generalizing n above entries with
  | ind size ih =>
      subst hsize
      have hbelow : ∀ {entries : List Entry},
          entries.Forall₂ (Entry.StandsFor source)
            (n.namedChildren.flatMap (Node.constructsFrom (n :: above))) →
          Mirrors source (Node.enclosing? (n :: above)) ((n :: above).countP (·.IsConstruct))
            (forest entries) (n.namedChildren.flatMap (Node.constructsFrom (n :: above))) := by
        intro entries hentries
        apply mirrors_flatMap _ hentries
        intro c hc entries hentries
        exact ih c.size (Node.size_lt_of_mem_namedChildren hc) (n :: above) c hentries rfl
      rw [Node.constructsFrom_eq] at hentries ⊢
      by_cases hn : n.IsConstruct
      · rw [if_pos hn] at hentries ⊢
        obtain ⟨e, inner, hentry, hinner, rfl⟩ := List.forall₂_cons_right_iff.1 hentries
        have hmirrors := hbelow hinner
        rw [Node.enclosing?, if_pos hn, List.countP_cons_of_pos (by simpa using hn)] at hmirrors
        have hlevel : e.indent.toNat = above.countP (·.IsConstruct) := hentry.indent
        have hforest : forest (e :: inner) = [.mk e (forest inner)] := by
          apply forest_cons_of_lt
          intro x hx
          rw [← flatten_forest inner] at hx
          rw [UInt64.lt_iff_toNat_lt, hlevel]
          exact hmirrors.level_le x hx
        rw [hforest, ← List.append_nil (_ ++ _)]
        exact .cons hentry rfl hlevel hmirrors (.nil _ _)
      · rw [if_neg hn, List.nil_append] at hentries ⊢
        have hmirrors := hbelow hentries
        rwa [Node.enclosing?, if_neg hn, List.countP_cons_of_neg (by simpa using hn)] at hmirrors

theorem ofSource_standsFor (t : ParsedSource)
    (hdeep : ∀ p ∈ t.root.constructs, p.depth < UInt64.size) :
    (ofSource t).Forall₂ (Entry.StandsFor t.text) t.root.constructs := by
  have hshown : (ofSource t).map (fun e => (some (e.name, e.construct), e.line, e.indent.toNat)) =
      t.root.constructs.map fun p => (listed? t.text p.above p.node, p.node.info.row, p.depth) := by
    rw [← List.zipIdx_map_fst 0 t.root.constructs, List.map_map]
    apply map_ofSource
    rintro ⟨p, i⟩ hx e he
    obtain ⟨⟨name, construct⟩, hlisted, rfl⟩ := Option.map_eq_some_iff.1 he
    have hdepth : p.depth.toUInt64.toNat = p.depth :=
      UInt64.toNat_ofNat_of_lt' (hdeep p (List.fst_mem_of_mem_zipIdx hx))
    simp only [Function.comp_apply, hlisted, hdepth]
  rw [← List.forall₂_eq_eq_eq, List.forall₂_map_left_iff, List.forall₂_map_right_iff] at hshown
  refine hshown.imp fun e p h => ?_
  simp only [Prod.mk.injEq] at h
  exact ⟨h.1.symm, h.2.1, h.2.2⟩

/-- The forest of an outline holds the entries in their order, and each of them stands for a
construct of the tree, below the entry of the nearest construct that it lies in. An entry at the top
stands for a construct that lies in no other and is not indented; one below another is indented by
one level more. -/
theorem forest_mirrors_constructs (t : ParsedSource)
    (hdeep : ∀ p ∈ t.root.constructs, p.depth < UInt64.size) :
    Branch.flattenAll (forest (ofSource t)) = ofSource t ∧
    Mirrors t.text none 0 (forest (ofSource t)) t.root.constructs :=
  ⟨flatten_forest _, mirrors_constructsFrom [] t.root (ofSource_standsFor t hdeep)⟩

/-- A function with a literal of data in it, whose own function belongs to the outer one, and a
class with a method beside that. -/
theorem forest_mirrors_constructs_nested :
    let node (type : String) (row : UInt64) (children : List Node) : Node :=
      .mk ⟨type, 0, 0, row, 0, true, false, false, false, []⟩ children
    let t : ParsedSource := ⟨"a.ts", none, .ts, "", node "program" 0
      [node "function_declaration" 1
        [node "object" 2 [node "pair" 3 [node "arrow_function" 3 []]],
         node "class_declaration" 4 [node "class_body" 4 [node "method_definition" 5 []]]],
       node "function_expression" 7 []]⟩
    (∀ p ∈ t.root.constructs, p.depth < UInt64.size) ∧
    t.root.constructs.map (fun p => (p.node.info.row, p.owner?.map (·.node.info.row))) =
      [(1, none), (3, some 1), (4, some 1), (5, some 4), (7, none)] ∧
    Mirrors t.text none 0 (forest (ofSource t)) t.root.constructs := by
  intro node t
  have hdeep : ∀ p ∈ t.root.constructs, p.depth < UInt64.size := by decide +kernel
  have howners : t.root.constructs.map (fun p => (p.node.info.row,
      p.owner?.map (·.node.info.row))) =
      [(1, none), (3, some 1), (4, some 1), (5, some 4), (7, none)] := by decide +kernel
  exact ⟨hdeep, howners, (forest_mirrors_constructs t hdeep).2⟩

end Outline

end ScriptLens
