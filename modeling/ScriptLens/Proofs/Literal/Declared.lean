import ScriptLens.Literal.Constants
import ScriptLens.Proofs.Tree.Places

namespace ScriptLens

namespace Node

def wrapped? (n : Node) : Option Node :=
  match n.kind with
  | .parenthesizedExpression | .typeAssertion => n.namedChildren.head?
  | _ => none

def property? (source : String) (n : Node) : Option (String × Node) :=
  if n.kind = .pair then
    ((n.child? .key).bind (·.staticName? source)).bind fun key => (n.child? .value).map (key, ·)
  else none

def properties (source : String) (n : Node) : List (String × Node) :=
  if n.unwrap.kind = .objectLiteral then n.unwrap.namedChildren.filterMap (property? source) else []

theorem wrapped?_eq_some_iff {n inner : Node} :
    n.wrapped? = some inner ↔
      (n.kind = .parenthesizedExpression ∨ n.kind = .typeAssertion) ∧
        n.children.find? (·.info.named) = some inner := by
  rw [wrapped?, namedChildren, List.head?_filter]
  split <;> simp_all

theorem unwrapFirst_eq (ns : List Node) :
    unwrapFirst ns = (ns.find? (·.info.named)).map unwrap := by
  induction ns with
  | nil => rfl
  | cons n ns ih =>
      rw [unwrapFirst, ih]
      cases hn : n.info.named <;> simp [hn]

theorem unwrap_eq (n : Node) : n.unwrap = (n.wrapped?.map unwrap).getD n := by
  obtain ⟨info, children⟩ := n
  rw [unwrap, unwrapFirst_eq]
  split
  · next hkind => simp [wrapped?, hkind, namedChildren, Node.children]
  · next hkind => simp [wrapped?, hkind, namedChildren, Node.children]
  · simp [wrapped?]

theorem unwrap_of_wrapped? {n inner : Node} (h : n.wrapped? = some inner) :
    n.unwrap = inner.unwrap := by
  rw [unwrap_eq, h]
  rfl

theorem unwrap_of_not_wrapped {n : Node} (h : n.wrapped? = none) : n.unwrap = n := by
  rw [unwrap_eq, h]
  rfl

theorem size_lt_of_wrapped? {n inner : Node} (h : n.wrapped? = some inner) :
    inner.size < n.size := by
  obtain ⟨info, children⟩ := n
  exact Nat.lt_succ_of_le (size_le_sizeAll (List.mem_of_find?_eq_some (wrapped?_eq_some_iff.1 h).2))

theorem unwrapping {motive : Node → Prop} (plain : ∀ n, n.wrapped? = none → motive n)
    (wrapped : ∀ n inner, n.wrapped? = some inner → motive inner → motive n) (n : Node) :
    motive n := by
  induction hsize : n.size using Nat.strongRecOn generalizing n with
  | ind size ih =>
      subst hsize
      cases h : n.wrapped? with
      | none => exact plain n h
      | some inner => exact wrapped n inner h (ih inner.size (size_lt_of_wrapped? h) inner rfl)

theorem size_unwrap_le (n : Node) : n.unwrap.size ≤ n.size := by
  induction n using unwrapping with
  | plain n h => exact Nat.le_of_eq (congrArg size (unwrap_of_not_wrapped h))
  | wrapped n inner h ih =>
      rw [unwrap_of_wrapped? h]
      exact Nat.le_trans ih (Nat.le_of_lt (size_lt_of_wrapped? h))

theorem size_lt_of_child? {n c : Node} {f : Field} (h : n.child? f = some c) : c.size < n.size := by
  obtain ⟨info, children⟩ := n
  exact Nat.lt_succ_of_le (size_le_sizeAll (List.mem_of_find?_eq_some h))

theorem property?_eq_some_iff {source : String} {n inner : Node} {key : String} :
    n.property? source = some (key, inner) ↔
      n.kind = .pair ∧ (n.child? .key).bind (·.staticName? source) = some key ∧
        n.child? .value = some inner := by
  rw [property?]
  cases (n.child? .key).bind (·.staticName? source) <;> cases n.child? .value <;> simp

theorem mem_properties_iff {source : String} {n inner : Node} {key : String} :
    (key, inner) ∈ n.properties source ↔
      n.unwrap.kind = .objectLiteral ∧ ∃ pair ∈ n.unwrap.namedChildren, pair.kind = .pair ∧
        (pair.child? .key).bind (·.staticName? source) = some key ∧
        pair.child? .value = some inner := by
  by_cases hobject : n.unwrap.kind = .objectLiteral
  · rw [properties, if_pos hobject, List.mem_filterMap]
    simp only [hobject, property?_eq_some_iff, true_and]
  · rw [properties, if_neg hobject]
    simp [hobject]

theorem size_lt_of_mem_properties {source : String} {n inner : Node} {key : String}
    (h : (key, inner) ∈ n.properties source) : inner.size < n.size := by
  obtain ⟨-, pair, hpair, -, -, hvalue⟩ := mem_properties_iff.1 h
  calc
    inner.size < pair.size := size_lt_of_child? hvalue
    _ < n.unwrap.size := size_lt_of_mem_namedChildren hpair
    _ ≤ n.size := size_unwrap_le n

end Node

namespace Declaration

variable {source : String}

section binding

variable {keys : List String} {n : Node} {d : Declaration}

theorem ofFirst_eq (source : String) (keys : List String) (ns : List Node) :
    ofFirst source keys ns =
      ((ns.find? (·.info.named)).map (ofValue source keys)).getD [⟨keys, none⟩] := by
  induction ns with
  | nil => rfl
  | cons n ns ih =>
      rw [ofFirst, ih]
      cases hn : n.info.named <;> simp [hn]

theorem ofValueField_eq (source : String) (keys : List String) (ns : List Node) :
    ofValueField source keys ns =
      ((ns.find? (·.info.fields.contains .value)).map (ofValue source keys)).getD [] := by
  induction ns with
  | nil => rfl
  | cons n ns ih =>
      rw [ofValueField, ih, List.find?_cons]
      cases n.info.fields.contains Field.value <;> rfl

theorem ofPair_eq (hkind : n.kind = .pair) :
    ofPair source keys n =
      ((n.property? source).map fun p => ofValue source (keys ++ [p.1]) p.2).getD [] := by
  rw [Node.property?, if_pos hkind]
  obtain ⟨info, children⟩ := n
  rw [ofPair]
  cases hkey : ((Node.mk info children).child? .key).bind (·.staticName? source) with
  | none => rfl
  | some key =>
      simp only [ofValueField_eq, Option.bind_some, Option.map_map]
      rfl

theorem ofMembers_eq (source : String) (keys : List String) (ns : List Node) :
    ofMembers source keys ns =
      ((ns.filter (·.info.named)).filterMap (Node.property? source)).flatMap
        fun p => ofValue source (keys ++ [p.1]) p.2 := by
  induction ns with
  | nil => rfl
  | cons n ns ih =>
      rw [ofMembers, ih]
      cases hn : n.info.named with
      | false => simp [hn]
      | true =>
          by_cases hkind : n.kind = .pair
          · cases hp : n.property? source <;> simp [hn, hkind, hp, ofPair_eq]
          · simp [hn, hkind, Node.property?]

theorem ofValue_of_wrapped? {inner : Node} (h : n.wrapped? = some inner) :
    ofValue source keys n = ofValue source keys inner := by
  obtain ⟨hkind, hfirst⟩ := Node.wrapped?_eq_some_iff.1 h
  obtain ⟨info, children⟩ := n
  rw [Node.children] at hfirst
  rw [ofValue, ofFirst_eq, hfirst]
  rcases hkind with hkind | hkind <;> simp [hkind]

theorem ofValue_of_not_wrapped (h : n.wrapped? = none) :
    ofValue source keys n = ⟨keys, n.literal? source⟩ :: (n.properties source).flatMap
      fun p => ofValue source (keys ++ [p.1]) p.2 := by
  have hunwrap := Node.unwrap_of_not_wrapped h
  obtain ⟨info, children⟩ := n
  rw [Node.wrapped?, Node.namedChildren, List.head?_filter, Node.children] at h
  rw [ofValue, ofFirst_eq, ofMembers_eq]
  split
  · next hkind =>
    simp only [hkind] at h
    simp [Node.literal?, Node.properties, hunwrap, hkind, h]
  · next hkind =>
    simp only [hkind] at h
    simp [Node.literal?, Node.properties, hunwrap, hkind, h]
  · next hkind =>
    simp [Node.literal?, Node.properties, hunwrap, hkind, Node.namedChildren, Node.children]
  · next hobject =>
    rw [Node.properties, hunwrap, if_neg hobject]
    rfl

/-- A binding comes first, then what its properties declare, one after the other. -/
theorem ofValue_eq (source : String) (keys : List String) (n : Node) :
    ofValue source keys n = ⟨keys, n.literal? source⟩ :: (n.properties source).flatMap
      fun p => ofValue source (keys ++ [p.1]) p.2 := by
  induction n using Node.unwrapping with
  | plain n h => exact ofValue_of_not_wrapped h
  | wrapped n inner h ih =>
      rw [ofValue_of_wrapped? h, Node.properties, Node.literal?, Node.unwrap_of_wrapped? h]
      exact ih

inductive Binds (source : String) : List String → Node → Declaration → Prop
  | self (keys : List String) (n : Node) : Binds source keys n ⟨keys, n.literal? source⟩
  | property {keys : List String} {n inner : Node} {key : String} {d : Declaration}
      (hproperty : (key, inner) ∈ n.properties source) (h : Binds source (keys ++ [key]) inner d) :
      Binds source keys n d

theorem mem_ofValue_iff : d ∈ ofValue source keys n ↔ Binds source keys n d := by
  constructor
  · intro h
    induction hsize : n.size using Nat.strongRecOn generalizing n keys with
    | ind size ih =>
        subst hsize
        rw [ofValue_eq, List.mem_cons, List.mem_flatMap] at h
        rcases h with rfl | ⟨⟨key, inner⟩, hproperty, hd⟩
        · exact .self keys n
        · have hlt := Node.size_lt_of_mem_properties hproperty
          exact .property hproperty (ih inner.size hlt hd rfl)
  · intro h
    induction h with
    | self keys n =>
        rw [ofValue_eq]
        exact List.mem_cons_self
    | property hproperty _ ih =>
        rw [ofValue_eq]
        exact List.mem_cons_of_mem _ (List.mem_flatMap.2 ⟨_, hproperty, ih⟩)

end binding

section enum

variable {name : String} {next : Option Binary64} {d : Declaration}

def nextAfter (source : String) (next : Option Binary64) (members : List Node) : Option Binary64 :=
  members.foldl
    (fun next n => if n.kind = .comment then next else following (enumMember source next n).2) next

theorem mem_ofEnumMembers_cons {n : Node} {ns : List Node} :
    d ∈ ofEnumMembers source name next (n :: ns) ↔
      (n.kind ≠ .comment ∧ ∃ key, (enumMember source next n).1 = some key ∧
        d = ⟨[name, key], (enumMember source next n).2⟩) ∨
      d ∈ ofEnumMembers source name (nextAfter source next [n]) ns := by
  by_cases hcomment : n.kind = .comment
  · simp [ofEnumMembers, nextAfter, hcomment]
  · rw [ofEnumMembers, if_neg hcomment, nextAfter, List.foldl_cons, if_neg hcomment]
    cases hkey : (enumMember source next n).1 <;> simp [hkey, hcomment]

/-- A member has its value from the members in front of it. -/
theorem mem_ofEnumMembers_iff {members : List Node} :
    d ∈ ofEnumMembers source name next members ↔
      ∃ before n after, members = before ++ n :: after ∧ n.kind ≠ .comment ∧
        ∃ key, (enumMember source (nextAfter source next before) n).1 = some key ∧
          d = ⟨[name, key], (enumMember source (nextAfter source next before) n).2⟩ := by
  induction members generalizing next with
  | nil => simp [ofEnumMembers]
  | cons n ns ih =>
      rw [mem_ofEnumMembers_cons, ih]
      constructor
      · rintro (⟨hcomment, hd⟩ | ⟨before, m, after, rfl, hcomment, hd⟩)
        · exact ⟨[], n, ns, rfl, hcomment, hd⟩
        · exact ⟨n :: before, m, after, rfl, hcomment, hd⟩
      · rintro ⟨before, m, after, hsplit, hcomment, hd⟩
        cases before with
        | nil =>
            cases hsplit
            exact .inl ⟨hcomment, hd⟩
        | cons b before =>
            cases hsplit
            exact .inr ⟨before, m, after, rfl, hcomment, hd⟩

end enum

inductive Declares (source : String) (n : Node) : Declaration → Prop
  | binding {declarator name value : Node} {d : Declaration} (hkind : n.kind = .lexicalDeclaration)
      (hconst : n.isConst = true) (hmem : declarator ∈ n.namedChildren)
      (hdeclarator : declarator.kind = .variableDeclarator)
      (hname : declarator.child? .name = some name) (hidentifier : name.kind = .identifier)
      (hvalue : declarator.child? .value = some value)
      (hbinds : Binds source [name.text source] value d) : Declares source n d
  | member {name body member : Node} {before after : List Node} {key : String}
      (hkind : n.kind = .enumDeclaration) (hname : n.child? .name = some name)
      (hbody : n.child? .body = some body)
      (hmembers : body.namedChildren = before ++ member :: after)
      (hcomment : member.kind ≠ .comment)
      (hkey : (enumMember source (nextAfter source (some .zero) before) member).1 = some key) :
      Declares source n ⟨[name.text source, key],
        (enumMember source (nextAfter source (some .zero) before) member).2⟩

section source

variable {n : Node} {d : Declaration}

theorem mem_ofDeclarator_iff :
    d ∈ ofDeclarator source n ↔
      ∃ name value, n.child? .name = some name ∧ n.child? .value = some value ∧
        n.kind = .variableDeclarator ∧ name.kind = .identifier ∧
        Binds source [name.text source] value d := by
  rw [ofDeclarator]
  cases n.child? .name with
  | none => simp
  | some name =>
      cases n.child? .value with
      | none => simp
      | some value =>
          by_cases hkinds : n.kind = .variableDeclarator ∧ name.kind = .identifier
          · simp [hkinds, mem_ofValue_iff]
          · simpa [hkinds] using fun hkind hidentifier => absurd ⟨hkind, hidentifier⟩ hkinds

theorem mem_ofEnum_iff :
    d ∈ ofEnum source n ↔
      ∃ name body, n.child? .name = some name ∧ n.child? .body = some body ∧
        d ∈ ofEnumMembers source (name.text source) (some .zero) body.namedChildren := by
  rw [ofEnum]
  cases n.child? .name <;> cases n.child? .body <;> simp

theorem mem_ofNode_iff : d ∈ ofNode source n ↔ Declares source n d := by
  constructor
  · intro h
    unfold ofNode at h
    split at h
    · next hkind =>
      obtain ⟨name, body, hname, hbody, hd⟩ := mem_ofEnum_iff.1 h
      obtain ⟨before, member, after, hmembers, hcomment, key, hkey, rfl⟩ :=
        mem_ofEnumMembers_iff.1 hd
      exact .member hkind hname hbody hmembers hcomment hkey
    · next hkind =>
      split at h
      · next hconst =>
        obtain ⟨declarator, hmem, hd⟩ := List.mem_flatMap.1 h
        obtain ⟨name, value, hname, hvalue, hdeclarator, hidentifier, hbinds⟩ :=
          mem_ofDeclarator_iff.1 hd
        exact .binding hkind hconst hmem hdeclarator hname hidentifier hvalue hbinds
      · cases h
    · cases h
  · intro h
    cases h with
    | binding hkind hconst hmem hdeclarator hname hidentifier hvalue hbinds =>
        simp only [ofNode, hkind, hconst, if_true]
        exact List.mem_flatMap.2 ⟨_, hmem, mem_ofDeclarator_iff.2
          ⟨_, _, hname, hvalue, hdeclarator, hidentifier, hbinds⟩⟩
    | member hkind hname hbody hmembers hcomment hkey =>
        simp only [ofNode, hkind]
        exact mem_ofEnum_iff.2 ⟨_, _, hname, hbody, mem_ofEnumMembers_iff.2
          ⟨_, _, _, hmembers, hcomment, _, hkey, rfl⟩⟩

def ofSource (t : ParsedSource) : List Declaration :=
  t.root.namedPreorder.flatMap (ofNode t.text)

theorem mem_ofSource_iff {t : ParsedSource} :
    d ∈ ofSource t ↔ ∃ n, t.root.Reaches n ∧ Declares t.text n d := by
  simp only [ofSource, List.mem_flatMap, Node.mem_namedPreorder_iff, mem_ofNode_iff]

theorem mem_flatMap_ofSource_iff {ts : List ParsedSource} :
    d ∈ ts.flatMap ofSource ↔ ∃ t ∈ ts, ∃ n, t.root.Reaches n ∧ Declares t.text n d := by
  simp only [List.mem_flatMap, mem_ofSource_iff]

theorem Binds.keys_ne_nil {keys : List String} (h : Binds source keys n d) (hkeys : keys ≠ []) :
    d.keys ≠ [] := by
  induction h with
  | self => exact hkeys
  | property _ _ ih => exact ih (by simp)

theorem Declares.keys_ne_nil (h : Declares source n d) : d.keys ≠ [] := by
  cases h with
  | binding _ _ _ _ _ _ _ hbinds => exact hbinds.keys_ne_nil (List.cons_ne_nil _ _)
  | member => exact List.cons_ne_nil _ _

end source

end Declaration

end ScriptLens
