import ScriptLens.Proofs.Wire.Layout

namespace ScriptLens

namespace Json

variable {j j' : Json} {tag parts : String}

/-- The tag of a value, the parts beside it, and whether these come first. -/
def parts? (tag parts : String) : Json → Option (Json × Option Json × Bool)
  | object members =>
    match members.filter fun m => m.1 = tag || m.1 = parts with
    | [(first, t)] => if first = tag then some (t, none, false) else none
    | [(first, a), (second, b)] =>
      if first = tag ∧ second = parts then some (a, some b, false)
      else if first = parts ∧ second = tag then some (b, some a, true)
      else none
    | _ => none
  | array [t, p] => some (t, some p, false)
  | _ => none

theorem tagged?_eq (tag parts : String) (j : Json) :
    j.tagged? false tag parts =
      (j.parts? tag parts).filter fun x => !x.2.2 || x.2.1.all (·.canKeep 1) := by
  cases j with
  | object members =>
      simp only [tagged?, parts?]
      generalize (members.filter fun m => m.1 = tag || m.1 = parts) = known
      rcases known with _ | ⟨⟨first, a⟩, _ | ⟨⟨second, b⟩, _ | ⟨_, _⟩⟩⟩
      · rfl
      · dsimp only
        by_cases hfirst : first = tag
        · rw [if_pos hfirst]
          rfl
        · rw [if_neg hfirst]
          rfl
      · dsimp only
        by_cases hdirect : first = tag ∧ second = parts
        · rw [if_pos hdirect, if_pos hdirect]
          rfl
        · rw [if_neg hdirect, if_neg hdirect]
          by_cases hkept : first = parts ∧ second = tag
          · rw [if_pos hkept, Option.filter_some]
            by_cases hkeep : a.canKeep 1 = true
            · rw [if_pos ⟨hkept.1, hkept.2, by simpa using hkeep⟩]
              simp [hkeep]
            · rw [if_neg fun h => hkeep (by simpa using h.2.2)]
              simp [hkeep]
          · rw [if_neg hkept, if_neg fun h => hkept ⟨h.1, h.2.1⟩]
            rfl
      · rfl
  | array items => rcases items with _ | ⟨_, _ | ⟨_, _ | ⟨_, _⟩⟩⟩ <;> rfl
  | _ => rfl

/-- The tag and the parts of an object are two of its members. -/
theorem map_parts?_object (hne : tag ≠ parts) (members : List (String × Json)) :
    ((object members).parts? tag parts).map (fun x => (x.1, x.2.1)) =
      ((object members).fields? [tag, parts]).bind fun fields =>
        (fields.lookup tag).map (·, fields.lookup parts) := by
  have hfilter : (members.filter fun m => [tag, parts].contains m.1) =
      members.filter fun m => m.1 = tag || m.1 = parts := by
    apply List.filter_congr
    intro m _
    simp
  have hnames : ∀ m ∈ members.filter fun m => m.1 = tag || m.1 = parts,
      m.1 = tag ∨ m.1 = parts := by
    intro m hm
    simpa using (List.mem_filter.1 hm).2
  simp only [parts?, fields?, hfilter]
  generalize (members.filter fun m => m.1 = tag || m.1 = parts) = known at hnames
  rcases known with _ | ⟨⟨first, a⟩, _ | ⟨⟨second, b⟩, _ | ⟨⟨third, c⟩, rest⟩⟩⟩
  · rfl
  · rcases hnames (first, a) (by simp) with rfl | rfl
    · simp [Lookup.cons_ne hne.symm]
    · simp [Lookup.cons_ne hne, hne.symm]
  · rcases hnames (first, a) (by simp) with rfl | rfl <;>
      rcases hnames (second, b) (by simp) with rfl | rfl <;>
      simp [Lookup.cons_ne hne, Lookup.cons_ne hne.symm, hne, hne.symm]
  · -- three members under two names: one name stands twice
    rcases hnames (first, a) (by simp) with rfl | rfl <;>
      rcases hnames (second, b) (by simp) with rfl | rfl <;>
      rcases hnames (third, c) (by simp) with rfl | rfl <;>
      simp

theorem Rearranged.parts? {layout : Layout} (hne : tag ≠ parts)
    (h : Rearranged (.record [(tag, .plain), (parts, layout)]) j j') {t : Json} {p : Option Json}
    {first : Bool} (hparts : j.parts? tag parts = some (t, p, first)) :
    ∃ t' p' first', j'.parts? tag parts = some (t', p', first') ∧ Rearranged .plain t t' ∧
      Option.Rel (Rearranged layout) p p' := by
  have htag : (Layout.record [(tag, .plain), (parts, layout)]).member tag = .plain := by
    simp [Layout.member]
  have hlayout : (Layout.record [(tag, .plain), (parts, layout)]).member parts = layout := by
    simp [Layout.member, Lookup.cons_ne hne.symm]
  cases h with
  | same => exact ⟨t, p, first, hparts, .same _ t, rel_of_refl (.same _) p⟩
  | @array _ items items' hlength hitems =>
      match items, items', hlength with
      | [a, b], [a', b'], _ =>
          cases hparts
          refine ⟨a', some b', false, rfl, ?_, .some ?_⟩
          · rw [← htag]
            exact hitems 0 _ a' rfl rfl
          · rw [← hlayout]
            exact hitems 1 _ b' rfl rfl
  | @object _ members _ _ result hkeys hvalues hextra hperm =>
      have hrel := (Rearranged.object hkeys hvalues hextra hperm).fields?_rel
      have hfound := map_parts?_object hne members
      have hfound' := map_parts?_object hne result
      rw [List.map_cons, List.map_cons, List.map_nil] at hrel
      rw [hparts, Option.map_some, eq_comm, Option.bind_eq_some_iff] at hfound
      obtain ⟨fields, hfields, hfound⟩ := hfound
      obtain ⟨t, ht, hpair⟩ := Option.map_eq_some_iff.1 hfound
      cases hpair
      rw [hfields] at hrel
      generalize (Json.object result).fields? [tag, parts] = o at hrel hfound'
      cases hrel with
      | @some _ fields' h =>
          have htags := h tag
          have hothers := h parts
          rw [ht, htag] at htags
          rw [hlayout] at hothers
          rw [Option.bind_some] at hfound'
          generalize fields'.lookup tag = t' at htags hfound'
          cases htags with
          | @some _ t' htags =>
              obtain ⟨⟨t'', p', first'⟩, hparts', heq⟩ := Option.map_eq_some_iff.1 hfound'
              cases heq
              exact ⟨_, _, first', hparts', htags, hothers⟩

theorem mem_children_of_parts? {t p : Json} {first : Bool}
    (h : j.parts? tag parts = some (t, some p, first)) : p ∈ j.children := by
  cases j with
  | object members =>
      simp only [parts?] at h
      split at h
      · split at h <;> cases h
      · next k a k' b hknown =>
        have hmem : ∀ m ∈ [(k, a), (k', b)], m.2 ∈ (object members).children := by
          intro m hm
          rw [← hknown] at hm
          exact List.mem_map_of_mem (List.mem_filter.1 hm).1
        split at h
        · cases h
          exact hmem (k', p) (by simp)
        · split at h
          · cases h
            exact hmem (k, p) (by simp)
          · cases h
      · cases h
  | array items =>
      match items with
      | [_, _] =>
          cases h
          exact List.mem_cons_of_mem _ List.mem_cons_self
  | _ => cases h

theorem mem_children_of_objectFields? {names : List String} {fields : List (String × Json)}
    (h : j.objectFields? names = some fields) {name : String} {c : Json}
    (hc : fields.lookup name = some c) : c ∈ j.children := by
  cases j with
  | object members => exact mem_children_of_fields? (j := object members) h hc
  | _ => cases h

end Json

variable {j j' : Json}

namespace Source

def layout : Layout := .record [("content", .plain), ("version", .plain)]

theorem ofJson?_rearranged (h : Json.Rearranged layout j j') : ofJson? j' = ofJson? j := by
  refine Json.bind_eq_of_rel (fun fields _ fields' hfields => ?_) h.fields?_rel
  rw [hfields.required?_eq fun _ _ _ h => h.asString?_eq,
    hfields.required?_eq fun _ _ _ h => h.version?_eq]

end Source

namespace Target

variable {kept : Bool}

theorem ofJson?_rearranged (h : Json.Rearranged .plain j j') :
    ofJson? kept j' = ofJson? kept j := by
  rw [ofJson?, Json.asChoice?_eq, Json.asChoice?_eq, h.choiceName?_eq]

theorem ofJson?_false (j : Json) :
    ofJson? false j = if j.isHollow then none else ofJson? true j := by
  rw [ofJson?, ofJson?, Json.asChoice?_eq, Json.asChoice?_eq, Json.choiceName?_false]
  cases j.isHollow <;> rfl

theorem optional?_false (fields : List (String × Json)) (name : String) (default : Target) :
    Json.optional? fields name (ofJson? false) default =
      if (fields.lookup name).any Json.isHollow then none
      else Json.optional? fields name (ofJson? true) default := by
  rw [Json.optional?, Json.optional?]
  cases fields.lookup name with
  | none => rfl
  | some j => exact ofJson?_false j

end Target

namespace CompilerOptions

def layout : Layout := .record [("target", .plain), ("allowJs", .plain)]

def isHollow (j : Json) : Bool :=
  ((j.fields? ["target", "allowJs"]).bind (·.lookup "target")).any Json.isHollow

theorem ofJson?_rearranged {kept : Bool} (h : Json.Rearranged layout j j') :
    ofJson? kept j' = ofJson? kept j := by
  refine Json.bind_eq_of_rel (fun fields _ fields' hfields => ?_) h.fields?_rel
  have htarget : ∀ x y, Json.Rearranged (layout.member "target") x y →
      Target.ofJson? kept y = Target.ofJson? kept x := fun _ _ h => Target.ofJson?_rearranged h
  dsimp only
  rw [hfields.optional?_eq htarget, hfields.optional?_eq fun _ _ h => h.asBool?_eq]

theorem ofJson?_false (j : Json) :
    ofJson? false j = if isHollow j then none else ofJson? true j := by
  rw [ofJson?, ofJson?, isHollow]
  cases j.fields? ["target", "allowJs"] with
  | none => rfl
  | some fields =>
      simp only [Option.bind_eq_bind, Option.bind_some, Target.optional?_false]
      split <;> rfl

end CompilerOptions

namespace Request

def paramsLayout : Request → Layout
  | syncBuffer .. => .record [("fileName", .plain), ("version", .plain), ("text", .plain)]
  | syncLibs _ => .record [("libs", .dict Source.layout)]
  | updateOptions _ => .record [("options", CompilerOptions.layout)]
  | listFiles => .plain
  | references .. => .record [("fileName", .plain), ("roots", .plain)]
  | closeBuffer _ | version _ | text _ | outline _ | diagnostics _ =>
    .record [("fileName", .plain)]

def layout (r : Request) : Layout :=
  .record [("method", .plain), ("params", r.paramsLayout)]

def isHollow : Request → Json → Bool
  | updateOptions _, params =>
    ((params.objectFields? ["options"]).bind (·.lookup "options")).any CompilerOptions.isHollow
  | _, _ => false

section

variable {p p' : Json}

theorem ofFile?_rearranged (request : String → Request)
    (h : Json.Rearranged (.record [("fileName", .plain)]) p p') :
    ofFile? request p' = ofFile? request p := by
  refine Json.bind_eq_of_rel (fun fields _ fields' hfields => ?_) h.objectFields?_rel
  rw [hfields.required?_eq fun _ _ _ h => h.asString?_eq]

theorem syncBuffer?_rearranged
    (h : Json.Rearranged (.record [("fileName", .plain), ("version", .plain), ("text", .plain)])
      p p') : syncBuffer? p' = syncBuffer? p := by
  refine Json.bind_eq_of_rel (fun fields _ fields' hfields => ?_) h.objectFields?_rel
  rw [hfields.required?_eq fun _ _ _ h => h.asString?_eq,
    hfields.required?_eq fun _ _ _ h => h.version?_eq,
    hfields.required?_eq fun _ _ _ h => h.asString?_eq]

theorem references?_rearranged
    (h : Json.Rearranged (.record [("fileName", .plain), ("roots", .plain)]) p p') :
    references? p' = references? p := by
  refine Json.bind_eq_of_rel (fun fields _ fields' hfields => ?_) h.objectFields?_rel
  have hroots : ∀ x ∈ fields.lookup "roots", ∀ y, Json.Rearranged .plain x y →
      y.asList? Json.asString? = x.asList? Json.asString? :=
    fun _ _ _ h => h.asList?_eq fun _ _ _ h => h.asString?_eq
  rw [hfields.required?_eq fun _ _ _ h => h.asString?_eq, hfields.required?_eq hroots]

theorem updateOptions?_rearranged {kept : Bool}
    (h : Json.Rearranged (.record [("options", CompilerOptions.layout)]) p p') :
    updateOptions? kept p' = updateOptions? kept p := by
  refine Json.bind_eq_of_rel (fun fields _ fields' hfields => ?_) h.objectFields?_rel
  have hoptions : ∀ x ∈ fields.lookup "options", ∀ y,
      Json.Rearranged ((Layout.record [("options", CompilerOptions.layout)]).member "options") x y →
      CompilerOptions.ofJson? kept y = CompilerOptions.ofJson? kept x :=
    fun _ _ _ h => CompilerOptions.ofJson?_rearranged h
  rw [hfields.required?_eq hoptions]

theorem syncLibs?_rearranged (hdistinct : p.keysDistinct = true)
    (h : Json.Rearranged (.record [("libs", .dict Source.layout)]) p p') :
    syncLibs? p' = syncLibs? p := by
  refine Json.bind_eq_of_rel (fun fields hread fields' hfields => ?_) h.objectFields?_rel
  have hlibs : ∀ x ∈ fields.lookup "libs", ∀ y,
      Json.Rearranged ((Layout.record [("libs", .dict Source.layout)]).member "libs") x y →
      y.asDict? Source.ofJson? = x.asDict? Source.ofJson? := by
    intro x hx y h
    have hchild := Json.mem_children_of_objectFields? hread hx
    exact Json.Rearranged.asDict?_eq h (fun _ _ h => Source.ofJson?_rearranged h)
      (Json.keysDistinct_of_mem_children hchild hdistinct)
  rw [hfields.required?_eq hlibs]

end

def readAs (kept : Bool) (method : String) (params : Option Json) : Option Request :=
  ((readers kept).lookup method).bind (· params)

theorem ofJson?_eq (j : Json) :
    ofJson? j =
      ((j.parts? "method" "params").filter fun x => !x.2.2 || x.2.1.all (·.canKeep 1)).bind fun x =>
        (x.1.choiceName? false).bind fun method => readAs x.2.2 method x.2.1 := by
  rw [ofJson?, Json.tagged?_eq]
  simp only [Json.asChoice?_eq, readAs, Option.bind_eq_bind, Option.bind_assoc]

/-- Whatever comes out of a last step that names the request has its method. -/
theorem method_of_bind {α : Type} {o : Option α} {request : α → Request} {method : String}
    {r : Request} (h : (o.bind fun a => some (request a)) = some r)
    (hmethod : ∀ a, (request a).method = method) : r.method = method := by
  obtain ⟨a, -, ha⟩ := Option.bind_eq_some_iff.1 h
  cases ha
  exact hmethod a

theorem method_of_ofFile? {request : String → Request} {method : String} {params : Option Json}
    {r : Request} (h : params.bind (ofFile? request) = some r)
    (hmethod : ∀ file, (request file).method = method) : r.method = method := by
  obtain ⟨p, -, h⟩ := Option.bind_eq_some_iff.1 h
  obtain ⟨fields, -, h⟩ := Option.bind_eq_some_iff.1 h
  exact method_of_bind h hmethod

theorem method_of_readAs {kept : Bool} {method : String} {params : Option Json} {r : Request}
    (h : readAs kept method params = some r) : r.method = method := by
  obtain ⟨reader, hreader, h⟩ := Option.bind_eq_some_iff.1 h
  have hmem := Lookup.mem_of_eq_some hreader
  simp only [readers, List.mem_cons, List.not_mem_nil, or_false, Prod.mk.injEq] at hmem
  rcases hmem with ⟨rfl, rfl⟩ | ⟨rfl, rfl⟩ | ⟨rfl, rfl⟩ | ⟨rfl, rfl⟩ | ⟨rfl, rfl⟩ | ⟨rfl, rfl⟩ |
    ⟨rfl, rfl⟩ | ⟨rfl, rfl⟩ | ⟨rfl, rfl⟩ | ⟨rfl, rfl⟩
  · obtain ⟨p, -, h⟩ := Option.bind_eq_some_iff.1 h
    obtain ⟨fields, -, h⟩ := Option.bind_eq_some_iff.1 h
    obtain ⟨file, -, h⟩ := Option.bind_eq_some_iff.1 h
    obtain ⟨version, -, h⟩ := Option.bind_eq_some_iff.1 h
    exact method_of_bind h fun _ => rfl
  · exact method_of_ofFile? h fun _ => rfl
  · obtain ⟨p, -, h⟩ := Option.bind_eq_some_iff.1 h
    obtain ⟨fields, -, h⟩ := Option.bind_eq_some_iff.1 h
    exact method_of_bind h fun _ => rfl
  · obtain ⟨p, -, h⟩ := Option.bind_eq_some_iff.1 h
    obtain ⟨fields, -, h⟩ := Option.bind_eq_some_iff.1 h
    exact method_of_bind h fun _ => rfl
  · obtain ⟨_, -, rfl⟩ := Option.map_eq_some_iff.1 h
    rfl
  · exact method_of_ofFile? h fun _ => rfl
  · exact method_of_ofFile? h fun _ => rfl
  · exact method_of_ofFile? h fun _ => rfl
  · obtain ⟨p, -, h⟩ := Option.bind_eq_some_iff.1 h
    obtain ⟨fields, -, h⟩ := Option.bind_eq_some_iff.1 h
    obtain ⟨file, -, h⟩ := Option.bind_eq_some_iff.1 h
    exact method_of_bind h fun _ => rfl
  · exact method_of_ofFile? h fun _ => rfl

theorem readAs_rearranged {kept : Bool} {r : Request} {p p' : Option Json}
    (hdistinct : ∀ x ∈ p, x.keysDistinct = true)
    (h : Option.Rel (Json.Rearranged r.paramsLayout) p p') :
    readAs kept r.method p' = readAs kept r.method p := by
  cases r with
  | syncBuffer => exact Json.bind_eq_of_rel (fun _ _ _ h => syncBuffer?_rearranged h) h
  | syncLibs =>
      exact Json.bind_eq_of_rel (fun x hx _ h => syncLibs?_rearranged (hdistinct x hx) h) h
  | updateOptions => exact Json.bind_eq_of_rel (fun _ _ _ h => updateOptions?_rearranged h) h
  | listFiles =>
      have habsent : Json.absent? p' = Json.absent? p := by
        cases h with
        | none => rfl
        | some h => cases h <;> rfl
      change (Json.absent? p').map _ = (Json.absent? p).map _
      rw [habsent]
  | references => exact Json.bind_eq_of_rel (fun _ _ _ h => references?_rearranged h) h
  | closeBuffer | version | text | outline | diagnostics =>
      exact Json.bind_eq_of_rel (fun _ _ _ h => ofFile?_rearranged _ h) h

theorem updateOptions?_false (options : CompilerOptions) (params : Json) :
    updateOptions? false params =
      if (updateOptions options).isHollow params then none else updateOptions? true params := by
  rw [updateOptions?, updateOptions?, isHollow]
  cases params.objectFields? ["options"] with
  | none => rfl
  | some fields =>
      change (Json.required? fields "options" (CompilerOptions.ofJson? false)).bind _ =
        if (fields.lookup "options").any CompilerOptions.isHollow then none
        else (Json.required? fields "options" (CompilerOptions.ofJson? true)).bind _
      rw [Json.required?, Json.required?]
      cases fields.lookup "options" with
      | none => rfl
      | some j =>
          rw [Option.bind_some, CompilerOptions.ofJson?_false, Option.any_some, Option.bind_some]
          split <;> rfl

theorem readAs_false (r : Request) (params : Option Json) :
    readAs false r.method params =
      if params.any r.isHollow then none else readAs true r.method params := by
  cases params with
  | none => cases r <;> rfl
  | some params =>
      cases r with
      | updateOptions options => exact updateOptions?_false options params
      | _ => rfl

theorem readAs_true {kept : Bool} {params : Option Json} {r : Request}
    (h : readAs kept r.method params = some r) : readAs true r.method params = some r := by
  cases kept with
  | true => exact h
  | false =>
      rw [readAs_false] at h
      split at h
      · cases h
      · exact h

theorem ofJson?_of_parts? {j tag : Json} {params : Option Json} {first : Bool} {method : String}
    (hparts : j.parts? "method" "params" = some (tag, params, first))
    (hmethod : tag.choiceName? false = some method) :
    ofJson? j =
      if !first || params.all (·.canKeep 1) then readAs first method params else none := by
  rw [ofJson?_eq, hparts, Option.filter_some]
  split
  · rw [Option.bind_some, hmethod, Option.bind_some]
  · rfl

theorem parts?_of_ofJson? {j : Json} {r : Request} (h : ofJson? j = some r) :
    ∃ tag params first, j.parts? "method" "params" = some (tag, params, first) ∧
      tag.choiceName? false = some r.method ∧ readAs first r.method params = some r := by
  rw [ofJson?_eq, Option.bind_eq_some_iff] at h
  obtain ⟨⟨tag, params, first⟩, hparts, h⟩ := h
  obtain ⟨method, hmethod, hread⟩ := Option.bind_eq_some_iff.1 h
  have hr := method_of_readAs hread
  subst hr
  exact ⟨tag, params, first, (Option.filter_eq_some_iff.1 hparts).1, hmethod, hread⟩

/-- Where the nesting is bounded, parameters are kept if they have a value throughout. -/
theorem canKeep_params {j tag : Json} {params : Option Json} {first : Bool}
    (hparts : j.parts? "method" "params" = some (tag, params, first))
    (hdepth : j.depth ≤ Json.maxDepth) :
    params.all (·.canKeep 1) = params.all (·.hasValue) := by
  cases params with
  | none => rfl
  | some p =>
      have hlt := Json.depth_lt_of_mem_children (Json.mem_children_of_parts? hparts)
      have hle : 1 + p.depth ≤ Json.maxDepth := by omega
      rw [Option.all_some, Option.all_some, Json.canKeep, decide_eq_true hle, Bool.true_and]

/-- A request whose members have been put in another order, with others beside them, is read as the
same request, but for parameters before the method that have no value somewhere, and parameters
behind it that are understood only where they were kept. -/
theorem read_rearranged {j j' : Json} {r : Request} (hread : ofJson? j = some r)
    (h : Json.Rearranged r.layout j j') (hdistinct : j.keysDistinct = true)
    (hdepth : j'.depth ≤ Json.maxDepth) :
    ∃ tag params first, j'.parts? "method" "params" = some (tag, params, first) ∧
      (first = true → ofJson? j' = if params.all (·.hasValue) then some r else none) ∧
      (first = false → ofJson? j' = if params.any r.isHollow then none else some r) := by
  obtain ⟨tag, params, first, hparts, hmethod, hread⟩ := parts?_of_ofJson? hread
  obtain ⟨tag', params', first', hparts', htag, hparams⟩ := h.parts? (by decide) hparts
  have hmethod' : tag'.choiceName? false = some r.method := htag.choiceName?_eq.trans hmethod
  have hdistinct' : ∀ p ∈ params, p.keysDistinct = true := by
    rintro p rfl
    exact Json.keysDistinct_of_mem_children (Json.mem_children_of_parts? hparts) hdistinct
  have hread' : readAs true r.method params' = some r :=
    (readAs_rearranged hdistinct' hparams).trans (readAs_true hread)
  have hresult := ofJson?_of_parts? hparts' hmethod'
  rw [canKeep_params hparts' hdepth] at hresult
  refine ⟨tag', params', first', hparts', ?_, ?_⟩
  · rintro rfl
    rwa [Bool.not_true, Bool.false_or, hread'] at hresult
  · rintro rfl
    rwa [Bool.not_false, Bool.true_or, if_pos rfl, readAs_false, hread'] at hresult

theorem read_rearranged_libs :
    let lib := fun text => Json.object [("content", .string text), ("version", .nat 3)]
    let method := ("method", Json.string "syncExtraLibs")
    let libs := Json.object [("a.d.ts", lib "a"), ("b.d.ts", lib "b")]
    let libs' := Json.object [("b.d.ts", lib "b"), ("a.d.ts", lib "a")]
    let j := Json.object [method, ("params", .object [("libs", libs)])]
    let j' := Json.object [("params", .object [("id", .null), ("libs", libs')]), method]
    let r := syncLibs (Dict.ofList [("a.d.ts", ⟨"a", ⟨3⟩⟩), ("b.d.ts", ⟨"b", ⟨3⟩⟩)])
    ofJson? j = some r ∧ Json.Rearranged r.layout j j' ∧ j.keysDistinct = true ∧
      j'.depth ≤ Json.maxDepth ∧
      ∃ tag params first, j'.parts? "method" "params" = some (tag, params, first) ∧
        (first = true → ofJson? j' = if params.all (·.hasValue) then some r else none) ∧
        (first = false → ofJson? j' = if params.any r.isHollow then none else some r) := by
  intro lib method libs libs' j j' r
  have hread : ofJson? j = some r := by rfl
  have hlibs : Json.Rearranged (.dict Source.layout) libs libs' :=
    .of_perm (List.forall_mem_nil _) (.swap _ _ _)
  have hid : ∀ m ∈ [("id", Json.null)], r.paramsLayout.skips m.1 = true := by decide
  have hparams : Json.Rearranged r.paramsLayout (.object [("libs", libs)])
      (.object [("id", .null), ("libs", libs')]) :=
    @Json.Rearranged.object _ _ [("libs", libs')] _ _ rfl (List.forall_mem_singleton.2 hlibs) hid
      (.swap _ _ _)
  have h : Json.Rearranged r.layout j j' :=
    @Json.Rearranged.object _ _ [method, ("params", .object [("id", .null), ("libs", libs')])] _ _
      rfl (List.forall_mem_cons.2 ⟨.same _ _, List.forall_mem_singleton.2 hparams⟩)
      (List.forall_mem_nil _) (.swap _ _ _)
  have hdistinct : j.keysDistinct = true := by decide
  have hdepth : j'.depth ≤ Json.maxDepth := by decide
  exact ⟨hread, h, hdistinct, hdepth, read_rearranged hread h hdistinct hdepth⟩

/-- The order alone decides whether these two requests are read. -/
theorem reading_hangs_on_order :
    (let params := Json.object [("options", .object [("target", .object [("ESNext", .object [])])])]
      let j := Json.object [("params", params), ("method", .string "updateCompilerOptions")]
      let j' := Json.object [("method", .string "updateCompilerOptions"), ("params", params)]
      j.keysDistinct = true ∧ j'.depth ≤ Json.maxDepth ∧
        Json.Rearranged (updateOptions {}).layout j j' ∧
        ofJson? j = some (updateOptions {}) ∧ ofJson? j' = none) ∧
    (let large := Json.number ⟨false, 1, [], some 400⟩
      let params := Json.object [("fileName", .string "a.ts"), ("size", large)]
      let j := Json.object [("method", .string "closeBuffer"), ("params", params)]
      let j' := Json.object [("params", params), ("method", .string "closeBuffer")]
      j.keysDistinct = true ∧ j'.depth ≤ Json.maxDepth ∧
        Json.Rearranged (closeBuffer "a.ts").layout j j' ∧
        ofJson? j = some (closeBuffer "a.ts") ∧ ofJson? j' = none) :=
  ⟨⟨by decide, by decide, .of_perm (List.forall_mem_nil _) (.swap _ _ _), by decide, by decide⟩,
    ⟨by decide, by decide, .of_perm (List.forall_mem_nil _) (.swap _ _ _), by decide, by decide⟩⟩

end Request

end ScriptLens
