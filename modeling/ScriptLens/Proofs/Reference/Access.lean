import Mathlib.Data.Finset.Card
import ScriptLens.Proofs.Store.Dict
import ScriptLens.Proofs.Tree.Places
import ScriptLens.Reference.Collect

namespace ScriptLens.References

inductive Accesses (valuation : Valuation) (source : String) (n : Node) : String → String → Prop
  | property {object property : Node} (hkind : n.kind = .memberAccess)
      (hobject : n.child? .object = some object) (hproperty : n.child? .property = some property) :
      Accesses valuation source n (object.text source) (property.text source)
  | quoted {object index : Node} (hkind : n.kind = .subscriptAccess)
      (hobject : n.child? .object = some object) (hindex : n.child? .index = some index)
      (hstring : index.kind = .stringLiteral) :
      Accesses valuation source n (object.text source)
        (.ofList (Text.stripQuotes (index.text source).toList))
  | valued {object index : Node} {value : Literal} (hkind : n.kind = .subscriptAccess)
      (hobject : n.child? .object = some object) (hindex : n.child? .index = some index)
      (haccess : index.kind = .memberAccess) (hvalue : valuation source index = some value) :
      Accesses valuation source n (object.text source) value.text
  | principal {object index : Node} (hkind : n.kind = .subscriptAccess)
      (hobject : n.child? .object = some object) (hindex : n.child? .index = some index)
      (hidentifier : index.kind = .identifier) (hroot : object.text source = "Users")
      (hname : index.text source = "principal") : Accesses valuation source n "Users" "System"

section access

variable {valuation : Valuation} {source : String} {n : Node} {root member : String}

theorem Accesses.access?_eq (h : Accesses valuation source n root member) :
    access? valuation source n = some (root, member) := by
  cases h with
  | property hkind hobject hproperty => simp [access?, hkind, hobject, hproperty]
  | quoted hkind hobject hindex hstring => simp [access?, indexName?, hkind, hobject, hindex, hstring]
  | valued hkind hobject hindex haccess hvalue =>
      simp [access?, indexName?, hkind, hobject, hindex, haccess, hvalue]
  | principal hkind hobject hindex hidentifier hroot hname =>
      simp [access?, indexName?, hkind, hobject, hindex, hidentifier, hroot, hname, principalRoot,
        currentPrincipal, systemMember]

theorem accesses_of_indexName? {object index : Node} (hkind : n.kind = .subscriptAccess)
    (hobject : n.child? .object = some object) (hindex : n.child? .index = some index)
    (h : indexName? valuation source (object.text source) index = some member) :
    Accesses valuation source n (object.text source) member := by
  unfold indexName? at h
  split at h
  · next hidentifier =>
    split at h
    · next hnames =>
      cases h
      rw [hnames.1]
      exact .principal hkind hobject hindex hidentifier hnames.1 hnames.2
    · cases h
  · next haccess =>
    obtain ⟨value, hvalue, rfl⟩ := Option.map_eq_some_iff.1 h
    exact .valued hkind hobject hindex haccess hvalue
  · next hstring =>
    cases h
    exact .quoted hkind hobject hindex hstring
  · cases h

theorem access?_eq_some_iff :
    access? valuation source n = some (root, member) ↔ Accesses valuation source n root member := by
  refine ⟨fun h => ?_, Accesses.access?_eq⟩
  unfold access? at h
  split at h
  · next hkind =>
    obtain ⟨object, hobject, h⟩ := Option.bind_eq_some_iff.1 h
    obtain ⟨property, hproperty, h⟩ := Option.bind_eq_some_iff.1 h
    cases h
    exact .property hkind hobject hproperty
  · next hkind =>
    obtain ⟨object, hobject, h⟩ := Option.bind_eq_some_iff.1 h
    obtain ⟨index, hindex, h⟩ := Option.bind_eq_some_iff.1 h
    obtain ⟨name, hname, h⟩ := Option.bind_eq_some_iff.1 h
    cases h
    exact accesses_of_indexName? hkind hobject hindex hname
  · cases h

end access

def Recorded (refs : References) (root member : String) : Prop :=
  ∃ names, refs.get? root = some names ∧ member ∈ names.keys

theorem get?_record (refs : References) (root member r : String) :
    (refs.record root member).get? r =
      if r = root then (refs.get? r).map (·.insert member ()) else refs.get? r := by
  unfold record
  cases hroot : refs.get? root with
  | none =>
      by_cases hr : r = root
      · rw [if_pos hr, hr, hroot]
        rfl
      · rw [if_neg hr]
  | some names =>
      change (refs.byRoot.insert root (names.insert member ())).get? r = _
      rw [Dict.get?_insert]
      by_cases hr : r = root
      · rw [if_pos hr, if_pos hr, hr, hroot, Option.map_some]
      · rw [if_neg hr, if_neg hr]
        rfl

theorem isTracked_record (refs : References) (root member r : String) :
    (refs.record root member).isTracked r = refs.isTracked r := by
  change ((refs.record root member).get? r).isSome = (refs.get? r).isSome
  rw [get?_record]
  by_cases hr : r = root <;> simp [hr]

theorem recorded_record (refs : References) (root member r m : String) :
    (refs.record root member).Recorded r m ↔
      refs.Recorded r m ∨ (refs.isTracked r = true ∧ (r, m) = (root, member)) := by
  unfold Recorded isTracked Dict.contains
  change (∃ names, (refs.record root member).get? r = some names ∧ m ∈ names.keys) ↔
    _ ∨ ((refs.get? r).isSome = true ∧ _)
  rw [get?_record]
  by_cases hr : r = root
  · subst hr
    cases hget : refs.get? r with
    | none => simp
    | some names => simp [Dict.mem_keys_insert, or_comm]
  · simp [hr]

theorem isTracked_foldl (accesses : List (String × String)) (refs : References) (r : String) :
    (accesses.foldl (fun refs (root, member) => refs.record root member) refs).isTracked r =
      refs.isTracked r := by
  induction accesses generalizing refs with
  | nil => rfl
  | cons access accesses ih => rw [List.foldl_cons, ih, isTracked_record]

theorem recorded_foldl (accesses : List (String × String)) (refs : References) (r m : String) :
    (accesses.foldl (fun refs (root, member) => refs.record root member) refs).Recorded r m ↔
      refs.Recorded r m ∨ (refs.isTracked r = true ∧ (r, m) ∈ accesses) := by
  induction accesses generalizing refs with
  | nil => simp
  | cons access accesses ih =>
      rw [List.foldl_cons, ih, recorded_record, isTracked_record, List.mem_cons, or_assoc,
        ← and_or_left]

theorem get?_ofRoots (roots : List String) (r : String) :
    (ofRoots roots).get? r = if r ∈ roots then some .empty else none :=
  Dict.get?_ofList_const _ roots r

theorem isTracked_ofRoots (roots : List String) (r : String) :
    (ofRoots roots).isTracked r = true ↔ r ∈ roots := by
  change ((ofRoots roots).get? r).isSome = true ↔ _
  rw [get?_ofRoots]
  by_cases hr : r ∈ roots <;> simp [hr]

theorem not_recorded_ofRoots (roots : List String) (r m : String) :
    ¬ (ofRoots roots).Recorded r m := by
  rintro ⟨names, hget, hmem⟩
  rw [get?_ofRoots] at hget
  split at hget
  · cases hget
    cases hmem
  · cases hget

theorem foldl_recordNode (valuation : Valuation) (source : String) (ns : List Node)
    (refs : References) :
    ns.foldl (recordNode valuation source) refs =
      (ns.filterMap (access? valuation source)).foldl
        (fun refs (root, member) => refs.record root member) refs := by
  induction ns generalizing refs with
  | nil => rfl
  | cons n ns ih =>
      rw [List.foldl_cons, ih, recordNode, List.filterMap_cons]
      cases access? valuation source n <;> rfl

/-- Without roots nothing is recorded, so that the walk can be left out. -/
theorem foldl_record_of_isEmpty {refs : References} (h : refs.byRoot.isEmpty = true)
    (accesses : List (String × String)) :
    accesses.foldl (fun refs (root, member) => refs.record root member) refs = refs := by
  have hrecord (root member : String) : refs.record root member = refs := by
    have hget : refs.get? root = none := by
      rw [get?, Dict.get?, List.isEmpty_iff.1 h]
      rfl
    rw [record, hget]
  induction accesses with
  | nil => rfl
  | cons access accesses ih =>
      obtain ⟨root, member⟩ := access
      simp only [List.foldl_cons, hrecord, ih]

theorem ofSource_eq (valuation : Valuation) (roots : List String) (t : ParsedSource) :
    ofSource valuation roots t =
      (t.root.namedPreorder.filterMap (access? valuation t.text)).foldl
        (fun refs (root, member) => refs.record root member) (ofRoots roots) := by
  rw [ofSource, Node.walk_singleton, foldl_recordNode]
  split
  · next hempty => rw [foldl_record_of_isEmpty hempty]
  · rfl

def pairs (refs : References) : List (String × String) :=
  refs.byRoot.entries.flatMap fun (root, names) => names.keys.map (root, ·)

theorem mem_pairs_iff (refs : References) (root member : String) :
    (root, member) ∈ refs.pairs ↔ refs.Recorded root member := by
  simp only [pairs, List.mem_flatMap, List.mem_map, Prod.mk.injEq]
  constructor
  · rintro ⟨⟨r, names⟩, hentry, m, hm, rfl, rfl⟩
    exact ⟨names, (Dict.mem_entries_iff _ _ _).1 hentry, hm⟩
  · rintro ⟨names, hget, hm⟩
    exact ⟨(root, names), (Dict.mem_entries_iff _ _ _).2 hget, member, hm, rfl, rfl⟩

theorem nodup_pairs (refs : References) : refs.pairs.Nodup := by
  unfold pairs
  rw [List.nodup_flatMap]
  constructor
  · intro e _
    exact e.2.distinct.map fun _ _ h => (Prod.mk.inj h).2
  · have hdistinct := List.pairwise_map.1 refs.byRoot.distinct
    refine hdistinct.imp ?_
    intro e e' hne x hx hx'
    obtain ⟨m, -, rfl⟩ := List.mem_map.1 hx
    obtain ⟨m', -, heq⟩ := List.mem_map.1 hx'
    exact hne (Prod.mk.inj heq).1.symm

theorem foldl_size (entries : List (String × NameSet)) (count : Nat) :
    (entries.map (·.2)).foldl (fun count names => count + names.size) count =
      count + (entries.flatMap fun e => e.2.keys.map (e.1, ·)).length := by
  induction entries generalizing count with
  | nil => rfl
  | cons e entries ih =>
      have hsize : (e.2.keys.map (e.1, ·)).length = e.2.size := by
        rw [List.length_map]
        exact List.length_map _
      rw [List.map_cons, List.foldl_cons, ih, List.flatMap_cons, List.length_append, hsize,
        Nat.add_assoc]

theorem length_pairs (refs : References) : refs.pairs.length = refs.accessCount := by
  unfold accessCount Dict.values
  rw [foldl_size, Nat.zero_add]
  rfl

/-- The roots of a source's references are those that were asked for. What is recorded for one are
the members that a node accesses on it which is reached through named children, and the count is that
of all such pairs. -/
theorem recorded_iff_accesses (valuation : Valuation) (roots : List String) (t : ParsedSource) :
    (∀ root, root ∈ (ofSource valuation roots t).byRoot.keys ↔ root ∈ roots) ∧
    (∀ root member, (ofSource valuation roots t).Recorded root member ↔
      root ∈ roots ∧ ∃ n, t.root.Reaches n ∧ Accesses valuation t.text n root member) ∧
    ∃ accessed : Finset (String × String),
      (∀ root member, (root, member) ∈ accessed ↔
        root ∈ roots ∧ ∃ n, t.root.Reaches n ∧ Accesses valuation t.text n root member) ∧
      (ofSource valuation roots t).accessCount = accessed.card := by
  have hrecorded (root member : String) : (ofSource valuation roots t).Recorded root member ↔
      root ∈ roots ∧ ∃ n, t.root.Reaches n ∧ Accesses valuation t.text n root member := by
    rw [ofSource_eq, recorded_foldl, isTracked_ofRoots, List.mem_filterMap]
    simp only [not_recorded_ofRoots, false_or, Node.mem_namedPreorder_iff, access?_eq_some_iff]
  refine ⟨?_, hrecorded, (ofSource valuation roots t).pairs.toFinset, ?_, ?_⟩
  · intro root
    rw [Dict.mem_keys_iff, ← isTracked_ofRoots roots, ofSource_eq, ← isTracked_foldl]
    rfl
  · intro root member
    rw [List.mem_toFinset, mem_pairs_iff, hrecorded]
  · rw [List.toFinset_card_of_nodup (nodup_pairs _), length_pairs]

end ScriptLens.References
