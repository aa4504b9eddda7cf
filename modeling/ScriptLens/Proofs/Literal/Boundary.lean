import Mathlib.Data.List.Basic
import ScriptLens.Proofs.Literal.Latest

namespace ScriptLens

open Declaration

namespace Constants

inductive Chain (source : String) : List String → Node → Prop
  | base {n : Node} {name : String} (hkind : n.kind = .identifier)
      (htext : n.text? source = some name) : Chain source [name] n
  | member {n object property : Node} {keys : List String} {name : String}
      (hkind : n.kind = .memberAccess) (hobject : n.child? .object = some object)
      (hchain : Chain source keys object) (hproperty : n.child? .property = some property)
      (hname : property.kind = .propertyIdentifier) (htext : property.text? source = some name) :
      Chain source (keys ++ [name]) n
  | subscript {n object index : Node} {keys : List String} {quoted : String}
      (hkind : n.kind = .subscriptAccess) (hobject : n.child? .object = some object)
      (hchain : Chain source keys object) (hindex : n.child? .index = some index)
      (hstring : index.kind = .stringLiteral) (htext : index.text? source = some quoted) :
      Chain source (keys ++ [.ofList (Text.stripQuotes quoted.toList)]) n
  | parenthesized {n inner : Node} {keys : List String} (hkind : n.kind = .parenthesizedExpression)
      (hinner : n.namedChildren.head? = some inner) (hchain : Chain source keys inner) :
      Chain source keys n

section chain

variable {source : String} {n : Node} {keys : List String}

theorem objectKeys?_eq (source : String) (ns : List Node) :
    objectKeys? source ns =
      (ns.find? (·.info.fields.contains .object)).bind (keys? source) := by
  induction ns with
  | nil => rfl
  | cons n ns ih =>
      rw [objectKeys?, ih, List.find?_cons]
      cases n.info.fields.contains Field.object <;> rfl

theorem firstKeys?_eq (source : String) (ns : List Node) :
    firstKeys? source ns = (ns.filter (·.info.named)).head?.bind (keys? source) := by
  induction ns with
  | nil => rfl
  | cons n ns ih =>
      rw [firstKeys?, ih]
      cases hn : n.info.named <;> simp [hn]

theorem keys?_eq (source : String) (n : Node) :
    keys? source n =
      match n.kind with
      | .identifier => (n.text? source).map ([·])
      | .memberAccess => do
        let base ← (n.child? .object).bind (keys? source)
        let property ← (n.child? .property).filter (·.kind = .propertyIdentifier)
        return base ++ [← property.text? source]
      | .subscriptAccess => do
        let base ← (n.child? .object).bind (keys? source)
        let index ← (n.child? .index).filter (·.kind = .stringLiteral)
        return base ++ [.ofList (Text.stripQuotes (← index.text? source).toList)]
      | .parenthesizedExpression => n.namedChildren.head?.bind (keys? source)
      | _ => none := by
  obtain ⟨info, children⟩ := n
  rw [keys?, objectKeys?_eq, firstKeys?_eq]
  rfl

theorem chain_of_keys? (h : keys? source n = some keys) : Chain source keys n := by
  induction hsize : n.size using Nat.strongRecOn generalizing n keys with
  | ind size ih =>
      subst hsize
      rw [keys?_eq] at h
      split at h
      · next hkind =>
        obtain ⟨name, htext, rfl⟩ := Option.map_eq_some_iff.1 h
        exact .base hkind htext
      · next hkind =>
        simp only [Option.bind_eq_bind, Option.bind_eq_some_iff, Option.filter_eq_some_iff,
          Option.pure_def, Option.some.injEq, decide_eq_true_eq] at h
        obtain ⟨base, ⟨object, hobject, hbase⟩, property, ⟨hproperty, hname⟩, name, htext, rfl⟩ := h
        have hchain := ih object.size (Node.size_lt_of_child? hobject) hbase rfl
        exact .member hkind hobject hchain hproperty hname htext
      · next hkind =>
        simp only [Option.bind_eq_bind, Option.bind_eq_some_iff, Option.filter_eq_some_iff,
          Option.pure_def, Option.some.injEq, decide_eq_true_eq] at h
        obtain ⟨base, ⟨object, hobject, hbase⟩, index, ⟨hindex, hstring⟩, quoted, htext, rfl⟩ := h
        have hchain := ih object.size (Node.size_lt_of_child? hobject) hbase rfl
        exact .subscript hkind hobject hchain hindex hstring htext
      · next hkind =>
        obtain ⟨inner, hinner, hkeys⟩ := Option.bind_eq_some_iff.1 h
        have hlt := Node.size_lt_of_mem_namedChildren (List.mem_of_head? hinner)
        exact .parenthesized hkind hinner (ih inner.size hlt hkeys rfl)
      · cases h

theorem keys?_eq_some_iff : keys? source n = some keys ↔ Chain source keys n := by
  refine ⟨chain_of_keys?, fun h => ?_⟩
  induction h with
  | base hkind htext => simp [keys?_eq, hkind, htext]
  | member hkind hobject _ hproperty hname htext ih =>
      rw [keys?_eq]
      simp [hkind, hobject, hproperty, hname, htext, ih, Option.filter_some]
  | subscript hkind hobject _ hindex hstring htext ih =>
      rw [keys?_eq]
      simp [hkind, hobject, hindex, hstring, htext, ih, Option.filter_some]
  | parenthesized hkind hinner _ ih =>
      rw [keys?_eq]
      simp [hkind, hinner, ih]

end chain

section pieces

variable {ks ls : List String}

/-- Keys taken apart at the dots inside them. -/
def pieces (keys : List String) : List (List Char) :=
  keys.flatMap fun key => key.toList.splitOn '.'

theorem splitOn_intercalate (h : ks ≠ []) :
    (".".intercalate ks).toList.splitOn '.' = pieces ks := by
  rw [String.toList_intercalate]
  induction ks with
  | nil => exact absurd rfl h
  | cons key ks ih =>
      cases ks with
      | nil => simp [pieces]
      | cons next ks =>
          have hrest := ih (List.cons_ne_nil next ks)
          calc
            _ = (key.toList ++ '.' :: ".".toList.intercalate ((next :: ks).map String.toList)).splitOn
                  '.' := by simp
            _ = pieces (key :: next :: ks) := by
              rw [List.splitOn_append_cons_self, hrest]
              rfl

theorem intercalate_eq_iff (hks : ks ≠ []) (hls : ls ≠ []) :
    ".".intercalate ks = ".".intercalate ls ↔ pieces ks = pieces ls := by
  rw [← splitOn_intercalate hks, ← splitOn_intercalate hls]
  constructor
  · intro h
    rw [h]
  · intro h
    -- the text between dots, joined with dots again, is the path
    have hjoin := congrArg (['.'].intercalate ·) h
    simp only [List.intercalate_splitOn] at hjoin
    exact String.toList_inj.1 hjoin

theorem pieces_of_dotless (h : ∀ key ∈ ks, '.' ∉ key.toList) : pieces ks = ks.map String.toList := by
  rw [pieces, List.map_eq_flatMap]
  exact List.flatMap_congr fun key hkey => List.splitOn_eq_singleton (h key hkey)

theorem eq_of_pieces_eq (hks : ∀ key ∈ ks, '.' ∉ key.toList) (hls : ∀ key ∈ ls, '.' ∉ key.toList)
    (h : pieces ks = pieces ls) : ks = ls := by
  rw [pieces_of_dotless hks, pieces_of_dotless hls] at h
  exact (List.map_inj_right fun _ _ => String.toList_inj.1).1 h

end pieces

section resolve

variable {ts : List ParsedSource} {source : String} {n : Node} {keys : List String}
  {value : Literal}

theorem Chain.keys_ne_nil (h : Chain source keys n) : keys ≠ [] := by
  induction h with
  | base => exact List.cons_ne_nil _ _
  | member | subscript => simp
  | parenthesized _ _ _ ih => exact ih

theorem resolve?_eq_some_iff (hchain : Chain source keys n) :
    (ofSources ts).resolve? source n = some value ↔
      ∃ d, IsLast (fun d => pieces d.keys = pieces keys ∧ d.value ≠ none) (ts.flatMap ofSource) d ∧
        d.value = some value := by
  have hpieces (d : Declaration) (hd : d ∈ ts.flatMap ofSource) :
      d.path = ".".intercalate keys ↔ pieces d.keys = pieces keys := by
    obtain ⟨t, -, m, -, hdeclares⟩ := mem_flatMap_ofSource_iff.1 hd
    exact intercalate_eq_iff hdeclares.keys_ne_nil hchain.keys_ne_nil
  rw [resolve?, keys?_eq_some_iff.2 hchain, Option.bind_some, get?_ofSources, latest?_eq_some_iff]
  refine exists_congr fun d => and_congr_left fun _ => isLast_congr fun d hd => ?_
  exact and_congr_left fun _ => hpieces d hd

/-- A chain has the value of the last literal whose keys fall into the same pieces at their dots.
Where no key has a dot, the value is declared under the keys of the chain. -/
theorem resolved_up_to_dots (ts : List ParsedSource) (hchain : Chain source keys n) :
    let ds := ts.flatMap ofSource
    (∀ d, d ∈ ds ↔ ∃ t ∈ ts, ∃ m, t.root.Reaches m ∧ Declares t.text m d) ∧
    (∀ value, (ofSources ts).resolve? source n = some value ↔
      ∃ d, IsLast (fun d => pieces d.keys = pieces keys ∧ d.value ≠ none) ds d ∧
        d.value = some value) ∧
    ((∀ key ∈ keys, '.' ∉ key.toList) →
      (∀ d ∈ ds, d.value ≠ none → ∀ key ∈ d.keys, '.' ∉ key.toList) →
      ∀ value, (ofSources ts).resolve? source n = some value →
        ∃ t ∈ ts, ∃ m, t.root.Reaches m ∧ Declares t.text m ⟨keys, some value⟩) := by
  refine ⟨fun d => mem_flatMap_ofSource_iff, fun value => resolve?_eq_some_iff hchain, ?_⟩
  intro hkeys hdeclared value hresolved
  obtain ⟨d, hlast, hvalue⟩ := (resolve?_eq_some_iff hchain).1 hresolved
  obtain ⟨-, -, -, ⟨hpieces, hliteral⟩, -⟩ := id hlast
  have heq : d.keys = keys := eq_of_pieces_eq (hdeclared d hlast.mem hliteral) hkeys hpieces
  obtain ⟨declaredKeys, declaredValue⟩ := d
  subst heq hvalue
  exact mem_flatMap_ofSource_iff.1 hlast.mem

/-- A property two objects down, reached by a subscript and a member name. -/
theorem resolved_up_to_dots_nested :
    let node (type : String) (start stop : UInt64) (fields : List Field) (below : List Node) :
        Node := .mk ⟨type, start, stop, 0, start, true, false, false, false, fields⟩ below
    let keyword : Node := .mk ⟨"const", 0, 5, 0, 0, false, false, false, false, []⟩ []
    let object : ParsedSource := ⟨"k.ts", none, .ts, "const k = \x7b b: \x7b c: \"C\" \x7d \x7d",
      node "program" 0 27 [] [node "lexical_declaration" 0 27 []
        [keyword, node "variable_declarator" 6 27 []
          [node "identifier" 6 7 [.name] [],
           node "object" 10 27 [.value] [node "pair" 12 25 []
            [node "property_identifier" 12 13 [.key] [],
             node "object" 15 25 [.value] [node "pair" 17 23 []
              [node "property_identifier" 17 18 [.key] [], node "string" 20 23 [.value] []]]]]]]]⟩
    let text := "k[\"b\"].c"
    let chain := node "member_expression" 0 8 []
      [node "subscript_expression" 0 6 [.object]
        [node "identifier" 0 1 [.object] [], node "string" 2 5 [.index] []],
       node "property_identifier" 7 8 [.property] []]
    Chain text ["k", "b", "c"] chain ∧
    (ofSources [object]).resolve? text chain = some (.string "C") ∧
    ∃ m, object.root.Reaches m ∧ Declares object.text m ⟨["k", "b", "c"], some (.string "C")⟩ := by
  intro node keyword object text chain
  have hchain : Chain text ["k", "b", "c"] chain := keys?_eq_some_iff.1 (by decide +kernel)
  have hresolved : (ofSources [object]).resolve? text chain = some (.string "C") := by
    decide +kernel
  obtain ⟨-, -, hdotless⟩ := resolved_up_to_dots [object] hchain
  obtain ⟨t, ht, m, hreach, hdeclares⟩ :=
    hdotless (by decide +kernel) (by decide +kernel) _ hresolved
  obtain rfl := List.mem_singleton.1 ht
  exact ⟨hchain, hresolved, m, hreach, hdeclares⟩

/-- A quoted key with a dot is reached by two member names. -/
theorem dotted_key_reached_by_members :
    let node (type : String) (start stop : UInt64) (fields : List Field) (below : List Node) :
        Node := .mk ⟨type, start, stop, 0, start, true, false, false, false, fields⟩ below
    let keyword : Node := .mk ⟨"const", 0, 5, 0, 0, false, false, false, false, []⟩ []
    let object : ParsedSource := ⟨"a.ts", none, .ts, "const a = \x7b \"b.c\": 1 \x7d",
      node "program" 0 22 [] [node "lexical_declaration" 0 22 []
        [keyword, node "variable_declarator" 6 22 []
          [node "identifier" 6 7 [.name] [],
           node "object" 10 22 [.value] [node "pair" 12 20 []
            [node "string" 12 17 [.key] [], node "number" 19 20 [.value] []]]]]]⟩
    let text := "a.b.c"
    let chain := node "member_expression" 0 5 []
      [node "member_expression" 0 3 [.object]
        [node "identifier" 0 1 [.object] [], node "property_identifier" 2 3 [.property] []],
       node "property_identifier" 4 5 [.property] []]
    Chain text ["a", "b", "c"] chain ∧
    (ofSources [object]).resolve? text chain = some (.number (.ofNat 1)) ∧
    ∀ m d, object.root.Reaches m → Declares object.text m d → d.keys ≠ ["a", "b", "c"] := by
  intro node keyword object text chain
  refine ⟨keys?_eq_some_iff.1 (by decide +kernel), by decide +kernel, ?_⟩
  intro m d hreach hdeclares
  have hall : ∀ d ∈ ofSource object, d.keys ≠ ["a", "b", "c"] := by decide +kernel
  exact hall d (mem_ofSource_iff.2 ⟨m, hreach, hdeclares⟩)

end resolve

end Constants

end ScriptLens
