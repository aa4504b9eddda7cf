import ScriptLens.Proofs.Reference.Access
import ScriptLens.Proofs.Reference.Roots
import ScriptLens.Session.Basic

namespace ScriptLens

theorem Query.ofRoots_eq_iff (xs ys : List String) :
    Query.ofRoots xs = Query.ofRoots ys ↔ ∀ root, root ∈ xs ↔ root ∈ ys := by
  refine ⟨Query.mem_iff_of_ofRoots_eq, fun h => ?_⟩
  have hnames : NameSet.ofNames xs = NameSet.ofNames ys := by
    apply Dict.ext_get?
    intro k
    rw [NameSet.ofNames, NameSet.ofNames, Dict.get?_ofList_const, Dict.get?_ofList_const]
    simp only [h k]
  rw [ofRoots, ofRoots, hnames]

namespace References

def membersOf (valuation : Valuation) (t : ParsedSource) (root : String) : List String :=
  ((t.root.namedPreorder.filterMap (access? valuation t.text)).filter (·.1 = root)).map (·.2)

theorem get?_foldl_record (accesses : List (String × String)) (refs : References) (root : String) :
    (accesses.foldl (fun refs (root, member) => refs.record root member) refs).get? root =
      (refs.get? root).map fun names =>
        (((accesses.filter (·.1 = root)).map (·.2)).map (·, ())).foldl
          (fun names (member, u) => names.insert member u) names := by
  induction accesses generalizing refs with
  | nil => simp
  | cons access accesses ih =>
      obtain ⟨r, member⟩ := access
      rw [List.foldl_cons, ih, get?_record]
      by_cases hr : r = root
      · simp [hr, Function.comp_def]
      · simp [hr, Ne.symm hr]

theorem get?_ofSource (valuation : Valuation) (roots : List String) (t : ParsedSource)
    (root : String) :
    (ofSource valuation roots t).get? root =
      if root ∈ roots then some (NameSet.ofNames (membersOf valuation t root)) else none := by
  rw [ofSource_eq, get?_foldl_record, get?_ofRoots]
  by_cases hroot : root ∈ roots
  · rw [if_pos hroot, if_pos hroot]
    rfl
  · rw [if_neg hroot, if_neg hroot, Option.map_none]

end References

theorem Worker.respond_references_congr (parser : Parser) (w : Worker) (file : String)
    {xs ys : List String} (h : ∀ root, root ∈ xs ↔ root ∈ ys) :
    w.respond parser (.references file xs) = w.respond parser (.references file ys) := by
  have hrefs : w.references parser file xs = w.references parser file ys := by
    unfold references
    split
    · exact References.ofSource_congr _ h _
    · exact References.ofRoots_congr h
  rw [respond, respond, hrefs]

theorem Session.askCached_congr {parser : Parser} {request request' : Request}
    (h : ∀ w : Worker, w.respond parser request = w.respond parser request') (s : Session)
    (file : String) (query : Query) :
    s.askCached parser file query request = s.askCached parser file query request' := by
  simp only [askCached, deliver, h]

/-- Two lists of roots have the same key exactly if they have the same members. Then all references
are the same, those of a source as well as those that a session gives, from its worker or from its
cache; and what they hold for one root is what they would hold if it were the only one. -/
theorem roots_matter_as_set (xs ys : List String) :
    (Query.ofRoots xs = Query.ofRoots ys ↔ ∀ root, root ∈ xs ↔ root ∈ ys) ∧
    (Query.ofRoots xs = Query.ofRoots ys →
      (∀ valuation t, References.ofSource valuation xs t = References.ofSource valuation ys t) ∧
      ∀ parser (s : Session) file, s.references parser file xs = s.references parser file ys) ∧
    ∀ root ∈ xs, ∀ valuation t, ∃ names,
      (References.ofSource valuation xs t).get? root = some names ∧
      (References.ofSource valuation [root] t).get? root = some names := by
  refine ⟨Query.ofRoots_eq_iff xs ys, ?_, ?_⟩
  · intro hquery
    have hroots := (Query.ofRoots_eq_iff xs ys).1 hquery
    refine ⟨fun valuation t => References.ofSource_congr valuation hroots t, ?_⟩
    intro parser s file
    have hanswer (w : Worker) := Worker.respond_references_congr parser w file hroots
    simp only [Session.references, hquery, Session.askCached_congr hanswer]
  · intro root hroot valuation t
    refine ⟨NameSet.ofNames (References.membersOf valuation t root), ?_, ?_⟩
    · rw [References.get?_ofSource, if_pos hroot]
    · rw [References.get?_ofSource, if_pos (List.mem_singleton.2 rfl)]

/-- Both roots are accessed, one in the index of the other. -/
theorem roots_matter_as_set_nested :
    let node (type : String) (start stop : UInt64) (fields : List Field) (children : List Node) :
        Node := .mk ⟨type, start, stop, 0, start, true, false, false, false, fields⟩ children
    let t : ParsedSource := ⟨"a.ts", none, .ts, "Things[Users.name]",
      node "subscript_expression" 0 18 []
        [node "identifier" 0 6 [.object] [],
         node "member_expression" 7 17 [.index]
          [node "identifier" 7 12 [.object] [], node "property_identifier" 13 17 [.property] []]]⟩
    let valuation := Valuation.ofTable (Table.empty.insert "Users.name" (.string "id"))
    let xs := ["Users", "Things", "Users"]
    let ys := ["Things", "Users"]
    Query.ofRoots xs = Query.ofRoots ys ∧
    References.ofSource valuation xs t = References.ofSource valuation ys t ∧
    ((References.ofSource valuation ["Things"] t).get? "Things").map Dict.keys = some ["id"] ∧
    ((References.ofSource valuation xs t).get? "Things").map Dict.keys = some ["id"] ∧
    ((References.ofSource valuation xs t).get? "Users").map Dict.keys = some ["name"] := by
  intro node t valuation xs ys
  have hquery : Query.ofRoots xs = Query.ofRoots ys := by decide +kernel
  have hthings : ((References.ofSource valuation ["Things"] t).get? "Things").map Dict.keys =
      some ["id"] := by decide +kernel
  have husers : ((References.ofSource valuation ["Users"] t).get? "Users").map Dict.keys =
      some ["name"] := by decide +kernel
  obtain ⟨-, hsame, hone⟩ := roots_matter_as_set xs ys
  obtain ⟨things, hxs, hthings'⟩ := hone "Things" (by decide) valuation t
  obtain ⟨users, hxs', husers'⟩ := hone "Users" (by decide) valuation t
  rw [hthings'] at hthings
  rw [husers'] at husers
  refine ⟨hquery, (hsame hquery).1 valuation t, ?_, ?_, ?_⟩
  · rw [hthings', hthings]
  · rw [hxs, hthings]
  · rw [hxs', husers]

end ScriptLens
