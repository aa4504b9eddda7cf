import ScriptLens.Proofs.Store.Dict
import ScriptLens.Wire.Message

namespace ScriptLens

inductive Layout where
  | plain
  | record (members : List (String × Layout))
  | dict (value : Layout)

namespace Layout

def names : Layout → List String
  | record members => members.map (·.1)
  | _ => []

def member : Layout → String → Layout
  | record members, name => (members.lookup name).getD plain
  | dict value, _ => value
  | plain, _ => plain

def item (l : Layout) (i : Nat) : Layout :=
  match l.names[i]? with
  | some name => l.member name
  | none => plain

def skips : Layout → String → Bool
  | record members, name => !(members.map (·.1)).contains name
  | _, _ => false

end Layout

namespace Json

/-- The second value is made from the first by changing the order of members, in objects at any
depth, and by putting in members that the layout skips. -/
inductive Rearranged : Layout → Json → Json → Prop
  | same (l : Layout) (j : Json) : Rearranged l j j
  | array {l : Layout} {items items' : List Json} (hlength : items.length = items'.length)
      (hitems : ∀ i x y, items[i]? = some x → items'[i]? = some y → Rearranged (l.item i) x y) :
      Rearranged l (array items) (array items')
  | object {l : Layout} {members members' extra result : List (String × Json)}
      (hkeys : members.map (·.1) = members'.map (·.1))
      (hvalues : ∀ x ∈ members.zip members', Rearranged (l.member x.1.1) x.1.2 x.2.2)
      (hextra : ∀ m ∈ extra, l.skips m.1 = true) (hperm : result.Perm (members' ++ extra)) :
      Rearranged l (object members) (object result)

theorem Rearranged.of_perm {l : Layout} {members extra result : List (String × Json)}
    (hextra : ∀ m ∈ extra, l.skips m.1 = true) (hperm : result.Perm (members ++ extra)) :
    Rearranged l (.object members) (.object result) := by
  refine .object rfl (fun x hx => ?_) hextra hperm
  obtain ⟨i, hi, rfl⟩ := List.mem_iff_getElem.1 hx
  rw [List.getElem_zip]
  exact .same _ _

mutual

def keysDistinct : Json → Bool
  | array items => itemsKeysDistinct items
  | object members => decide (members.map (·.1)).Nodup && membersKeysDistinct members
  | _ => true

def itemsKeysDistinct : List Json → Bool
  | [] => true
  | j :: rest => j.keysDistinct && itemsKeysDistinct rest

def membersKeysDistinct : List (String × Json) → Bool
  | [] => true
  | (_, j) :: rest => j.keysDistinct && membersKeysDistinct rest

end

variable {α β : Type} {l : Layout} {j j' : Json}

def children : Json → List Json
  | array items => items
  | object members => members.map (·.2)
  | _ => []

theorem keysDistinct_of_mem_children {c : Json} (hc : c ∈ j.children)
    (h : j.keysDistinct = true) : c.keysDistinct = true := by
  cases j with
  | array items =>
      rw [keysDistinct] at h
      rw [children] at hc
      induction items with
      | nil => cases hc
      | cons i items ih =>
          rw [itemsKeysDistinct, Bool.and_eq_true] at h
          rcases List.mem_cons.1 hc with rfl | hc
          · exact h.1
          · exact ih hc h.2
  | object members =>
      rw [keysDistinct, Bool.and_eq_true] at h
      have hmembers := h.2
      clear h
      rw [children] at hc
      induction members with
      | nil => cases hc
      | cons m members ih =>
          rw [membersKeysDistinct, Bool.and_eq_true] at hmembers
          rw [List.map_cons] at hc
          rcases List.mem_cons.1 hc with rfl | hc
          · exact hmembers.1
          · exact ih hc hmembers.2
  | _ => cases hc

theorem depth_lt_of_mem_children {c : Json} (hc : c ∈ j.children) : c.depth < j.depth := by
  cases j with
  | array items =>
      rw [depth, Nat.lt_succ_iff]
      rw [children] at hc
      induction items with
      | nil => cases hc
      | cons i items ih =>
          rw [depthItems]
          rcases List.mem_cons.1 hc with rfl | hc
          · exact Nat.le_max_left _ _
          · exact Nat.le_trans (ih hc) (Nat.le_max_right _ _)
  | object members =>
      rw [depth, Nat.lt_succ_iff]
      rw [children] at hc
      induction members with
      | nil => cases hc
      | cons m members ih =>
          rw [depthMembers]
          rw [List.map_cons] at hc
          rcases List.mem_cons.1 hc with rfl | hc
          · exact Nat.le_max_left _ _
          · exact Nat.le_trans (ih hc) (Nat.le_max_right _ _)
  | _ => cases hc

theorem mem_children_of_fields? {names : List String} {fields : List (String × Json)}
    (h : j.fields? names = some fields) {name : String} {c : Json}
    (hc : fields.lookup name = some c) : c ∈ j.children := by
  have hmem := Lookup.mem_of_eq_some hc
  cases j with
  | array items =>
      rw [fields?] at h
      split at h
      · cases h
        exact (List.of_mem_zip hmem).2
      · cases h
  | object members =>
      simp only [fields?] at h
      split at h
      · cases h
        exact List.mem_map_of_mem (List.mem_filter.1 hmem).1
      · cases h
  | _ => cases h

theorem Rearranged.asString?_eq (h : Rearranged l j j') : j'.asString? = j.asString? := by
  cases h <;> rfl

theorem Rearranged.asBool?_eq (h : Rearranged l j j') : j'.asBool? = j.asBool? := by
  cases h <;> rfl

theorem Rearranged.version?_eq (h : Rearranged l j j') :
    Version.ofJson? j' = Version.ofJson? j := by
  cases h <;> rfl

theorem mapM_congr {f : α → Option β} {xs ys : List α} (h : xs.map f = ys.map f) :
    xs.mapM f = ys.mapM f := by
  have hmap : ∀ xs : List α, xs.mapM f = (xs.map f).mapM id := by
    intro xs
    rw [List.mapM_map]
    rfl
  rw [hmap, hmap, h]

theorem Rearranged.asList?_eq {item? : Json → Option α}
    (hitem : ∀ l x y, Rearranged l x y → item? y = item? x) (h : Rearranged l j j') :
    j'.asList? item? = j.asList? item? := by
  cases h with
  | same => rfl
  | object => rfl
  | @array l items items' hlength hitems =>
      have hmap : items'.map item? = items.map item? := by
        apply List.ext_getElem?
        intro i
        rw [List.getElem?_map, List.getElem?_map]
        cases hx : items[i]? with
        | none =>
            rw [List.getElem?_eq_none_iff, hlength, ← List.getElem?_eq_none_iff] at hx
            rw [hx]
        | some x =>
            have hi : i < items'.length := hlength ▸ (List.getElem?_eq_some_iff.1 hx).1
            have hy := List.getElem?_eq_getElem hi
            rw [hy, Option.map_some, Option.map_some, hitem _ x _ (hitems i x _ hx hy)]
      exact mapM_congr hmap

theorem forall₂_of_keys {R : String × Json → String × Json → Prop}
    {members members' : List (String × Json)} (hkeys : members.map (·.1) = members'.map (·.1))
    (hvalues : ∀ x ∈ members.zip members', R x.1 x.2) :
    members.Forall₂ (fun m m' => m.1 = m'.1 ∧ R m m') members' := by
  induction members generalizing members' with
  | nil =>
      rw [List.map_eq_nil_iff.1 hkeys.symm]
      exact .nil
  | cons m members ih =>
      cases members' with
      | nil => cases hkeys
      | cons m' members' =>
          rw [List.map_cons, List.map_cons, List.cons.injEq] at hkeys
          rw [List.zip_cons_cons, List.forall_mem_cons] at hvalues
          exact .cons ⟨hkeys.1, hvalues.1⟩ (ih hkeys.2 hvalues.2)

theorem rel_of_refl {R : α → α → Prop} (h : ∀ a, R a a) : (o : Option α) → Option.Rel R o o
  | none => .none
  | some a => .some (h a)

theorem bind_eq_of_rel {R : α → α → Prop} {f : α → Option β} {o o' : Option α}
    (hf : ∀ a ∈ o, ∀ a', R a a' → f a' = f a) (h : Option.Rel R o o') : o'.bind f = o.bind f := by
  cases h with
  | none => rfl
  | some h => exact hf _ rfl _ h

def FieldsRearranged (l : Layout) (fields fields' : List (String × Json)) : Prop :=
  ∀ name, Option.Rel (Rearranged (l.member name)) (fields.lookup name) (fields'.lookup name)

theorem Rearranged.members {members result : List (String × Json)}
    (h : Rearranged l (.object members) (.object result)) :
    ∃ members' extra, members.Forall₂ (fun m m' => m.1 = m'.1 ∧ Rearranged (l.member m.1) m.2 m'.2)
        members' ∧
      (∀ m ∈ extra, l.skips m.1 = true) ∧ result.Perm (members' ++ extra) := by
  cases h with
  | same =>
      refine ⟨members, [], ?_, by simp, ?_⟩
      · exact List.forall₂_same.2 fun m _ => ⟨rfl, .same _ _⟩
      · rw [List.append_nil]
  | object hkeys hvalues hextra hperm =>
      let R : String × Json → String × Json → Prop := fun m m' =>
        Rearranged (l.member m.1) m.2 m'.2
      exact ⟨_, _, forall₂_of_keys (R := R) hkeys hvalues, hextra, hperm⟩

section fields

variable {layouts : List (String × Layout)}

theorem item_record {i : Nat} (hi : i < (layouts.map (·.1)).length) :
    (Layout.record layouts).item i = (Layout.record layouts).member (layouts.map (·.1))[i] := by
  rw [Layout.item, Layout.names, List.getElem?_eq_getElem hi]

theorem fields?_items {items items' : List Json} (hlength : items.length = items'.length)
    (hitems : ∀ i x y, items[i]? = some x → items'[i]? = some y →
      Rearranged ((Layout.record layouts).item i) x y) :
    Option.Rel (FieldsRearranged (.record layouts)) ((array items).fields? (layouts.map (·.1)))
      ((array items').fields? (layouts.map (·.1))) := by
  simp only [fields?, ← hlength]
  split
  · refine .some (Lookup.rel (R := fun name => Rearranged ((Layout.record layouts).member name)) ?_)
    rw [List.forall₂_iff_get]
    refine ⟨by simp [hlength], ?_⟩
    intro i hi hi'
    rw [List.length_zip, Nat.lt_min] at hi hi'
    rw [List.get_eq_getElem, List.get_eq_getElem, List.getElem_zip, List.getElem_zip,
      ← item_record hi.1]
    exact ⟨rfl, hitems i _ _ (List.getElem?_eq_getElem hi.2) (List.getElem?_eq_getElem hi'.2)⟩
  · exact .none

/-- The members that a record asks for are still there, rearranged and in some order. -/
theorem Rearranged.asked {members result : List (String × Json)}
    (h : Rearranged (.record layouts) (.object members) (.object result)) :
    ∃ asked', (members.filter fun m => (layouts.map (·.1)).contains m.1).Forall₂
        (fun m m' => m.1 = m'.1 ∧ Rearranged ((Layout.record layouts).member m.1) m.2 m'.2) asked' ∧
      (result.filter fun m => (layouts.map (·.1)).contains m.1).Perm asked' := by
  obtain ⟨members', extra, hvalues, hextra, hperm⟩ := h.members
  refine ⟨members'.filter fun m => (layouts.map (·.1)).contains m.1, ?_, ?_⟩
  · exact List.rel_filter (fun m m' hm => by simp [hm.1]) hvalues
  · have hnone : extra.filter (fun m => (layouts.map (·.1)).contains m.1) = [] := by
      rw [List.filter_eq_nil_iff]
      intro m hm
      simpa [Layout.skips] using hextra m hm
    have hfilter := hperm.filter fun m => (layouts.map (·.1)).contains m.1
    rwa [List.filter_append, hnone, List.append_nil] at hfilter

theorem fields?_members {members result : List (String × Json)}
    (h : Rearranged (.record layouts) (object members) (object result)) :
    Option.Rel (FieldsRearranged (.record layouts)) ((object members).fields? (layouts.map (·.1)))
      ((object result).fields? (layouts.map (·.1))) := by
  obtain ⟨asked', hvalues, hperm⟩ := h.asked
  simp only [fields?]
  generalize (members.filter fun m => (layouts.map (·.1)).contains m.1) = asked at hvalues ⊢
  generalize (result.filter fun m => (layouts.map (·.1)).contains m.1) = found at hperm ⊢
  have hkeys : asked.map (·.1) = asked'.map (·.1) := by
    rw [← List.forall₂_eq_eq_eq, List.forall₂_map_left_iff, List.forall₂_map_right_iff]
    exact hvalues.imp fun m m' hm => hm.1
  have hdistinct : (asked.map (·.1)).Nodup ↔ (found.map (·.1)).Nodup := by
    rw [hkeys]
    exact (hperm.map _).nodup_iff.symm
  split
  · next h =>
    rw [if_pos (hdistinct.1 h)]
    refine .some fun name => ?_
    rw [Lookup.perm hperm (hdistinct.1 h)]
    exact Lookup.rel (R := fun name => Rearranged ((Layout.record layouts).member name)) hvalues name
  · next h =>
    rw [if_neg fun h' => h (hdistinct.2 h')]
    exact .none

theorem Rearranged.fields?_rel (h : Rearranged (.record layouts) j j') :
    Option.Rel (FieldsRearranged (.record layouts)) (j.fields? (layouts.map (·.1)))
      (j'.fields? (layouts.map (·.1))) := by
  cases h with
  | same => exact rel_of_refl (fun _ _ => rel_of_refl (.same _) _) _
  | array hlength hitems => exact fields?_items hlength hitems
  | object hkeys hvalues hextra hperm => exact fields?_members (.object hkeys hvalues hextra hperm)

theorem Rearranged.objectFields?_rel (h : Rearranged (.record layouts) j j') :
    Option.Rel (FieldsRearranged (.record layouts)) (j.objectFields? (layouts.map (·.1)))
      (j'.objectFields? (layouts.map (·.1))) := by
  cases h with
  | same => exact rel_of_refl (fun _ _ => rel_of_refl (.same _) _) _
  | array => exact .none
  | object hkeys hvalues hextra hperm => exact fields?_members (.object hkeys hvalues hextra hperm)

end fields

section parts

variable {fields fields' : List (String × Json)} {name : String} {value? : Json → Option α}

theorem FieldsRearranged.required?_eq (h : FieldsRearranged l fields fields')
    (hvalue : ∀ x ∈ fields.lookup name, ∀ y, Rearranged (l.member name) x y →
      value? y = value? x) :
    required? fields' name value? = required? fields name value? :=
  bind_eq_of_rel hvalue (h name)

theorem FieldsRearranged.optional?_eq (h : FieldsRearranged l fields fields') {default : α}
    (hvalue : ∀ x y, Rearranged (l.member name) x y → value? y = value? x) :
    optional? fields' name value? default = optional? fields name value? default := by
  have hname := h name
  unfold optional?
  generalize fields.lookup name = a at hname
  generalize fields'.lookup name = b at hname
  cases hname with
  | none => rfl
  | some h => exact hvalue _ _ h

end parts

theorem Rearranged.unskipped {members result : List (String × Json)}
    (h : Rearranged l (.object members) (.object result)) (hl : ∀ name, l.skips name = false) :
    ∃ members', members.Forall₂ (fun m m' => m.1 = m'.1 ∧ Rearranged (l.member m.1) m.2 m'.2)
        members' ∧ result.Perm members' := by
  obtain ⟨members', extra, hvalues, hextra, hperm⟩ := h.members
  cases extra with
  | nil => exact ⟨members', hvalues, by simpa using hperm⟩
  | cons m extra =>
      have hskips := hextra m List.mem_cons_self
      rw [hl] at hskips
      cases hskips

theorem mapM_perm {f : α → Option β} {xs ys : List α} (h : xs.Perm ys) :
    Option.Rel List.Perm (xs.mapM f) (ys.mapM f) := by
  induction h with
  | nil => exact .some .nil
  | @cons x xs ys _ ih =>
      rw [List.mapM_cons, List.mapM_cons]
      cases f x with
      | none => exact .none
      | some b =>
          generalize xs.mapM f = a at ih
          generalize ys.mapM f = c at ih
          cases ih with
          | none => exact .none
          | some h => exact .some (h.cons b)
  | swap x y xs =>
      simp only [List.mapM_cons]
      cases f x with
      | none => cases f y <;> exact .none
      | some b =>
          cases f y with
          | none => exact .none
          | some c =>
              cases xs.mapM f with
              | none => exact .none
              | some bs => exact .some (.swap b c bs)
  | @trans xs ys zs _ _ ih ih' =>
      generalize xs.mapM f = a at ih
      generalize ys.mapM f = b at ih ih'
      generalize zs.mapM f = c at ih'
      cases ih with
      | none => exact ih'
      | some h =>
          cases ih' with
          | some h' => exact .some (h.trans h')

theorem keys_of_mapM {value? : Json → Option α} {members : List (String × Json)}
    {entries : List (String × α)}
    (h : members.mapM (fun m => (value? m.2).map (m.1, ·)) = some entries) :
    entries.map (·.1) = members.map (·.1) := by
  induction members generalizing entries with
  | nil =>
      cases h
      rfl
  | cons m members ih =>
      rw [List.mapM_cons, Option.bind_eq_bind, Option.bind_eq_some_iff] at h
      obtain ⟨e, he, h⟩ := h
      rw [Option.bind_eq_bind, Option.bind_eq_some_iff] at h
      obtain ⟨rest, hrest, h⟩ := h
      obtain ⟨a, -, rfl⟩ := Option.map_eq_some_iff.1 he
      cases h
      rw [List.map_cons, List.map_cons, ih hrest]

theorem Rearranged.asDict?_eq {value? : Json → Option α} (h : Rearranged (.dict l) j j')
    (hvalue : ∀ x y, Rearranged l x y → value? y = value? x) (hdistinct : j.keysDistinct = true) :
    j'.asDict? value? = j.asDict? value? := by
  cases h with
  | same => rfl
  | array => rfl
  | @object _ members _ _ result hkeys hvalues hextra hperm =>
      rw [keysDistinct, Bool.and_eq_true, decide_eq_true_eq] at hdistinct
      obtain ⟨members', hmembers, hresult⟩ :=
        (Rearranged.object hkeys hvalues hextra hperm).unskipped fun _ => rfl
      let read? : String × Json → Option (String × α) := fun m => (value? m.2).map (m.1, ·)
      have hsame : members'.mapM read? = members.mapM read? := by
        apply mapM_congr
        rw [eq_comm, ← List.forall₂_eq_eq_eq, List.forall₂_map_left_iff, List.forall₂_map_right_iff]
        exact hmembers.imp fun m m' hm => by simp only [read?, hm.1, hvalue _ _ hm.2]
      have hrel := mapM_perm (f := read?) hresult
      rw [hsame] at hrel
      change (result.mapM read?).map Dict.ofList = (members.mapM read?).map Dict.ofList
      cases hread : members.mapM read? with
      | none =>
          rw [hread] at hrel
          generalize result.mapM read? = o at hrel
          cases hrel
          rfl
      | some entries =>
          have hentries : (entries.map (·.1)).Nodup := by
            rw [keys_of_mapM hread]
            exact hdistinct.1
          rw [hread] at hrel
          generalize result.mapM read? = o at hrel
          cases hrel with
          | some h => rw [Option.map_some, Option.map_some, Dict.ofList_perm h.symm hentries]

def isUnit (kept : Bool) : Json → Bool
  | null => true
  | object [] => kept
  | _ => false

def choiceName? (kept : Bool) : Json → Option String
  | string name => some name
  | object [(name, value)] => if value.isUnit kept then some name else none
  | _ => none

/-- A choice by name that is understood only where it was kept. -/
def isHollow : Json → Bool
  | object [(_, object [])] => true
  | _ => false

theorem asChoice?_eq (kept : Bool) (choices : List (String × α)) (j : Json) :
    j.asChoice? kept choices = (j.choiceName? kept).bind (choices.lookup ·) := by
  cases j with
  | object members =>
      match members with
      | [] => rfl
      | [(name, value)] =>
          cases value with
          | object inner =>
              cases inner with
              | nil => cases kept <;> rfl
              | cons => rfl
          | _ => rfl
      | _ :: _ :: _ => simp [asChoice?, choiceName?]
  | _ => rfl

theorem choiceName?_false (j : Json) :
    j.choiceName? false = if j.isHollow then none else j.choiceName? true := by
  cases j with
  | object members =>
      match members with
      | [] => rfl
      | [(name, value)] =>
          cases value with
          | object inner => cases inner <;> rfl
          | _ => rfl
      | _ :: _ :: _ => simp [isHollow, choiceName?]
  | _ => rfl

theorem Rearranged.isUnit_eq {kept : Bool} (h : Rearranged .plain j j') :
    j'.isUnit kept = j.isUnit kept := by
  cases h with
  | same => rfl
  | array => rfl
  | @object _ members _ _ result hkeys hvalues hextra hperm =>
      obtain ⟨members', hmembers, hresult⟩ :=
        (Rearranged.object hkeys hvalues hextra hperm).unskipped fun _ => rfl
      have hlength : result.length = members.length := by
        rw [hresult.length_eq, hmembers.length_eq]
      cases members <;> cases result <;> first | rfl | cases hlength

theorem Rearranged.choiceName?_eq {kept : Bool} (h : Rearranged .plain j j') :
    j'.choiceName? kept = j.choiceName? kept := by
  cases h with
  | same => rfl
  | array => rfl
  | @object _ members _ _ result hkeys hvalues hextra hperm =>
      obtain ⟨members', hmembers, hresult⟩ :=
        (Rearranged.object hkeys hvalues hextra hperm).unskipped fun _ => rfl
      cases hmembers with
      | nil => rw [List.perm_nil.1 hresult]
      | @cons m m' _ _ hm hrest =>
          cases hrest with
          | nil =>
              rw [List.perm_singleton.1 hresult]
              change (if m'.2.isUnit kept then some m'.1 else none) =
                if m.2.isUnit kept then some m.1 else none
              rw [hm.1, Rearranged.isUnit_eq hm.2]
          | cons =>
              have hlength := hresult.length_eq
              match result with
              | [] => cases hlength
              | [_] => cases hlength
              | _ :: _ :: _ => rfl

end Json

end ScriptLens
