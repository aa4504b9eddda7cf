import ScriptLens.Proofs.Literal.Declared
import ScriptLens.Proofs.Store.Table

namespace ScriptLens

namespace Declaration

def valueAt (path : String) (d : Declaration) : Option Literal :=
  if d.path = path then d.value else none

def latest? (path : String) (ds : List Declaration) : Option Literal :=
  ds.reverse.findSome? (valueAt path)

def IsLast (p : Declaration → Prop) (ds : List Declaration) (d : Declaration) : Prop :=
  ∃ before after, ds = before ++ d :: after ∧ p d ∧ ∀ later ∈ after, ¬ p later

variable {path : String} {ds : List Declaration} {d : Declaration}

theorem valueAt_eq_some_iff {value : Literal} :
    valueAt path d = some value ↔ d.path = path ∧ d.value = some value := by
  rw [valueAt]
  split <;> simp_all

theorem valueAt_eq_none_iff : valueAt path d = none ↔ ¬ (d.path = path ∧ d.value ≠ none) := by
  rw [valueAt]
  split <;> simp_all

theorem latest?_append (path : String) (xs ys : List Declaration) :
    latest? path (xs ++ ys) = (latest? path ys).or (latest? path xs) := by
  rw [latest?, List.reverse_append, List.findSome?_append]
  rfl

theorem latest?_eq_none_iff :
    latest? path ds = none ↔ ∀ d ∈ ds, d.path = path → d.value = none := by
  simp [latest?, valueAt_eq_none_iff]

theorem latest?_eq_some_iff {value : Literal} :
    latest? path ds = some value ↔
      ∃ d, IsLast (fun d => d.path = path ∧ d.value ≠ none) ds d ∧ d.value = some value := by
  rw [latest?, List.findSome?_eq_some_iff]
  constructor
  · rintro ⟨after, d, before, hsplit, hd, hafter⟩
    obtain ⟨hpath, hvalue⟩ := valueAt_eq_some_iff.1 hd
    refine ⟨d, ⟨before.reverse, after.reverse, ?_, ⟨hpath, by simp [hvalue]⟩, ?_⟩, hvalue⟩
    · rw [← List.reverse_reverse ds, hsplit]
      simp
    · intro later hlater
      exact valueAt_eq_none_iff.1 (hafter later (List.mem_reverse.1 hlater))
  · rintro ⟨d, ⟨before, after, rfl, ⟨hpath, -⟩, hafter⟩, hvalue⟩
    refine ⟨after.reverse, d, before.reverse, by simp, valueAt_eq_some_iff.2 ⟨hpath, hvalue⟩, ?_⟩
    intro later hlater
    exact valueAt_eq_none_iff.2 (hafter later (List.mem_reverse.1 hlater))

theorem exists_isLast {p : Declaration → Prop} (h : ∃ d ∈ ds, p d) : ∃ last, IsLast p ds last := by
  induction ds with
  | nil =>
      obtain ⟨d, hd, -⟩ := h
      cases hd
  | cons x xs ih =>
      by_cases hlater : ∃ later ∈ xs, p later
      · obtain ⟨last, before, after, rfl, hlast, hafter⟩ := ih hlater
        exact ⟨last, x :: before, after, rfl, hlast, hafter⟩
      · obtain ⟨d, hd, hp⟩ := h
        rcases List.mem_cons.1 hd with rfl | hmem
        · exact ⟨d, [], xs, rfl, hp, fun later hmem h => hlater ⟨later, hmem, h⟩⟩
        · exact absurd ⟨d, hmem, hp⟩ hlater

theorem IsLast.of_imp {p q : Declaration → Prop} (h : IsLast p ds d) (hq : q d)
    (himp : ∀ x, q x → p x) : IsLast q ds d := by
  obtain ⟨before, after, hsplit, -, hafter⟩ := h
  exact ⟨before, after, hsplit, hq, fun later hmem hlater => hafter later hmem (himp later hlater)⟩

theorem IsLast.mem {p : Declaration → Prop} (h : IsLast p ds d) : d ∈ ds := by
  obtain ⟨before, after, rfl, -⟩ := h
  simp

theorem isLast_congr {p q : Declaration → Prop} (h : ∀ d ∈ ds, (p d ↔ q d)) :
    IsLast p ds d ↔ IsLast q ds d := by
  refine exists_congr fun before => exists_congr fun after => and_congr_right fun hsplit => ?_
  subst hsplit
  refine and_congr (h d (by simp)) (forall_congr' fun later => imp_congr_right fun hlater => ?_)
  exact not_congr (h later (by simp [hlater]))

end Declaration

namespace Constants

open Declaration

theorem get?_declare (c : Constants) (d : Declaration) (path : String) :
    (c.declare d).get? path = (d.valueAt path).or (c.get? path) := by
  rw [declare, valueAt]
  cases d.value with
  | none => simp
  | some value =>
      rw [Table.get?_insert]
      by_cases hpath : d.path = path
      · simp [hpath]
      · simp [hpath, Ne.symm hpath]

theorem get?_foldl_declare (ds : List Declaration) (c : Constants) (path : String) :
    (ds.foldl declare c).get? path = (latest? path ds).or (c.get? path) := by
  induction ds generalizing c with
  | nil => rfl
  | cons d ds ih =>
      have hone : latest? path [d] = d.valueAt path := by simp [latest?]
      rw [List.foldl_cons, ih, get?_declare, ← List.singleton_append, latest?_append, hone,
        Option.or_assoc]

theorem index_eq (c : Constants) (t : ParsedSource) : c.index t = (ofSource t).foldl declare c := by
  rw [index, Node.walk_singleton, ofSource, List.foldl_flatMap]
  rfl

theorem get?_ofSources (ts : List ParsedSource) (path : String) :
    (ofSources ts).get? path = latest? path (ts.flatMap ofSource) := by
  have hfold : ofSources ts = (ts.flatMap ofSource).foldl declare .empty := by
    rw [List.foldl_flatMap, ofSources, funext₂ index_eq]
  rw [hfold, get?_foldl_declare]
  exact Option.or_none

theorem get?_eq_value_iff {ts : List ParsedSource} {path : String} {last : Declaration}
    (h : IsLast (fun d => d.path = path) (ts.flatMap ofSource) last) :
    (ofSources ts).get? path = last.value ↔
      last.value ≠ none ∨ ∀ d ∈ ts.flatMap ofSource, d.path = path → d.value = none := by
  have hpath : last.path = path := by
    obtain ⟨_, _, _, hpath, _⟩ := h
    exact hpath
  rw [get?_ofSources]
  cases hvalue : last.value with
  | none => simp [latest?_eq_none_iff]
  | some value =>
      have hliteral : last.path = path ∧ last.value ≠ none := ⟨hpath, by simp [hvalue]⟩
      have hlast := latest?_eq_some_iff.2 ⟨last, h.of_imp hliteral fun _ hd => hd.1, hvalue⟩
      simp [hlast]

/-- The value of a path is that of its last declaration that is a literal. It is that of its last
declaration exactly if that one is a literal, or none is. -/
theorem latest_literal_wins (ts : List ParsedSource) (path : String)
    (hdeclared : ∃ t ∈ ts, ∃ n d, t.root.Reaches n ∧ Declares t.text n d ∧ d.path = path) :
    let ds := ts.flatMap ofSource
    (∀ d, d ∈ ds ↔ ∃ t ∈ ts, ∃ n, t.root.Reaches n ∧ Declares t.text n d) ∧
    (∀ value, (ofSources ts).get? path = some value ↔
      ∃ d, IsLast (fun d => d.path = path ∧ d.value ≠ none) ds d ∧ d.value = some value) ∧
    (∃ last, IsLast (fun d => d.path = path) ds last) ∧
    ∀ last, IsLast (fun d => d.path = path) ds last →
      ((ofSources ts).get? path = last.value ↔
        last.value ≠ none ∨ ∀ d ∈ ds, d.path = path → d.value = none) := by
  intro ds
  have hmem (d : Declaration) :
      d ∈ ds ↔ ∃ t ∈ ts, ∃ n, t.root.Reaches n ∧ Declares t.text n d := by
    simp only [ds, List.mem_flatMap, mem_ofSource_iff]
  refine ⟨hmem, ?_, ?_, fun last hlast => get?_eq_value_iff hlast⟩
  · intro value
    rw [get?_ofSources]
    exact latest?_eq_some_iff
  · obtain ⟨t, ht, n, d, hreach, hd, hpath⟩ := hdeclared
    exact exists_isLast ⟨d, (hmem d).2 ⟨t, ht, n, hreach, hd⟩, hpath⟩

/-- A path that is an enum member first, and a property in a later source. -/
theorem latest_literal_wins_shadowed :
    let node (type : String) (start stop : UInt64) (fields : List Field) (below : List Node) :
        Node := .mk ⟨type, start, stop, 0, start, true, false, false, false, fields⟩ below
    let keyword : Node := .mk ⟨"const", 0, 5, 0, 0, false, false, false, false, []⟩ []
    let enum : ParsedSource := ⟨"k.ts", none, .ts, "enum A \x7b x = \"u\" \x7d",
      node "program" 0 18 [] [node "enum_declaration" 0 18 []
        [node "identifier" 5 6 [.name] [],
         node "enum_body" 7 18 [.body] [node "enum_assignment" 9 16 []
          [node "property_identifier" 9 10 [.name] [], node "string" 13 16 [.value] []]]]]⟩
    let object : ParsedSource := ⟨"a.ts", none, .ts, "const A = \x7b x: 7 \x7d",
      node "program" 0 18 [] [node "lexical_declaration" 0 18 []
        [keyword, node "variable_declarator" 6 18 []
          [node "identifier" 6 7 [.name] [],
           node "object" 10 18 [.value] [node "pair" 12 16 []
            [node "property_identifier" 12 13 [.key] [], node "number" 15 16 [.value] []]]]]]⟩
    (ofSources [enum]).get? "A.x" = some (.string "u") ∧
    (ofSources [enum, object]).get? "A.x" = some (.number (.ofNat 7)) := by
  intro node keyword enum object
  have hfirst : (ofSources [enum]).get? "A.x" = some (.string "u") := by decide +kernel
  have hall : [enum, object].flatMap ofSource =
      [⟨["A", "x"], some (.string "u")⟩, ⟨["A"], none⟩,
       ⟨["A", "x"], some (.number (.ofNat 7))⟩] := by decide +kernel
  have hmember : ⟨["A", "x"], some (.string "u")⟩ ∈ ofSource enum := by decide +kernel
  obtain ⟨n, hreach, hd⟩ := mem_ofSource_iff.1 hmember
  have hwins := latest_literal_wins [enum, object] "A.x"
    ⟨enum, List.mem_cons_self, n, _, hreach, hd, by decide +kernel⟩
  rw [hall] at hwins
  have hlast : IsLast (fun d => d.path = "A.x") _ ⟨["A", "x"], some (.number (.ofNat 7))⟩ :=
    ⟨[⟨["A", "x"], some (.string "u")⟩, ⟨["A"], none⟩], [], rfl, by decide +kernel, by simp⟩
  exact ⟨hfirst, (hwins.2.2.2 _ hlast).2 (.inl (by simp))⟩

/-- The last declaration of `a` is a call, which leaves the number that `a` was before. -/
theorem later_call_shadows_nothing :
    let node (type : String) (start stop : UInt64) (fields : List Field) (below : List Node) :
        Node := .mk ⟨type, start, stop, 0, start, true, false, false, false, fields⟩ below
    let keyword : Node := .mk ⟨"const", 0, 5, 0, 0, false, false, false, false, []⟩ []
    let number : ParsedSource := ⟨"k.ts", none, .ts, "const a = 1",
      node "program" 0 11 [] [node "lexical_declaration" 0 11 []
        [keyword, node "variable_declarator" 6 11 []
          [node "identifier" 6 7 [.name] [], node "number" 10 11 [.value] []]]]⟩
    let call : ParsedSource := ⟨"a.ts", none, .ts, "const a = f()",
      node "program" 0 13 [] [node "lexical_declaration" 0 13 []
        [keyword, node "variable_declarator" 6 13 []
          [node "identifier" 6 7 [.name] [], node "call_expression" 10 13 [.value]
            [node "identifier" 10 11 [.function] [], node "arguments" 11 13 [] []]]]]⟩
    IsLast (fun d => d.path = "a") ([number, call].flatMap ofSource) ⟨["a"], none⟩ ∧
    (ofSources [number, call]).get? "a" = some (.number (.ofNat 1)) := by
  intro node keyword number call
  have hall : [number, call].flatMap ofSource =
      [⟨["a"], some (.number (.ofNat 1))⟩, ⟨["a"], none⟩] := by decide +kernel
  refine ⟨⟨[⟨["a"], some (.number (.ofNat 1))⟩], [], hall, rfl, by simp⟩, ?_⟩
  decide +kernel

end Constants

end ScriptLens
