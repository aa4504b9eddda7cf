import ScriptLens.Proofs.Store.Dict
import ScriptLens.Reference.Collect
import ScriptLens.Session.Cache

namespace ScriptLens

theorem References.ofRoots_congr {xs ys : List String} (h : ∀ root, root ∈ xs ↔ root ∈ ys) :
    References.ofRoots xs = References.ofRoots ys := by
  have hdict : Dict.ofList (xs.map (·, (Dict.empty : NameSet))) =
      Dict.ofList (ys.map (·, (Dict.empty : NameSet))) := by
    apply Dict.ext_get?
    intro k
    simp only [Dict.get?_ofList_const, h k]
  unfold References.ofRoots
  rw [hdict]

theorem References.ofSource_congr (valuation : Valuation) {xs ys : List String}
    (h : ∀ root, root ∈ xs ↔ root ∈ ys) (t : ParsedSource) :
    References.ofSource valuation xs t = References.ofSource valuation ys t := by
  unfold References.ofSource
  rw [ofRoots_congr h]

theorem NameSet.mem_keys_ofNames (names : List String) (k : String) :
    k ∈ (NameSet.ofNames names).keys ↔ k ∈ names := by
  rw [Dict.mem_keys_iff, NameSet.ofNames, Dict.get?_ofList_const]
  by_cases hk : k ∈ names <;> simp [hk]

theorem Query.mem_iff_of_ofRoots_eq {xs ys : List String} (h : Query.ofRoots xs = Query.ofRoots ys)
    (root : String) : root ∈ xs ↔ root ∈ ys := by
  rw [← NameSet.mem_keys_ofNames xs, ← NameSet.mem_keys_ofNames ys, Query.references.inj h]

end ScriptLens
