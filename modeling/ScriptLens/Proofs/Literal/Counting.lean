import Mathlib.Logic.Function.Iterate
import ScriptLens.Proofs.Literal.Latest

namespace ScriptLens.Declaration

def members (body : Node) : List Node :=
  body.namedChildren.filter (·.kind ≠ .comment)

def memberKey? (source : String) (n : Node) : Option String :=
  if n.kind = .enumAssignment then (n.child? .name).bind (·.staticName? source)
  else n.staticName? source

/-- The value that the member at a position is given, as the members in front of it leave it. -/
def memberValue (source : String) (ms : List Node) (j : Nat) : Option Literal :=
  ms[j]?.bind fun m => (enumMember source (nextAfter source (some .zero) (ms.take j)) m).2

def counted (value : Option Literal) (steps : Nat) : Option Literal :=
  match value with
  | some (.number x) => some (.number (Binary64.increment^[steps] x))
  | _ => none

def Called (source : String) (ms : List Node) (j : Nat) (key : String) : Prop :=
  ∃ m, ms[j]? = some m ∧ memberKey? source m = some key

def Uninitialised (ms : List Node) (first last : Nat) : Prop :=
  ∀ i m, first ≤ i → i ≤ last → ms[i]? = some m → m.kind ≠ .enumAssignment

/-- An initialiser gives its literal, and the members up to the next one count on from it. Those in
front of the first one count from zero. -/
structure Counts (source : String) (ms : List Node) (value : Nat → Option Literal) : Prop where
  initialised : ∀ {j m}, ms[j]? = some m → m.kind = .enumAssignment →
    value j = (m.child? .value).bind (·.literal? source)
  onwards : ∀ {k j m}, ms[k]? = some m → m.kind = .enumAssignment → k < j → j < ms.length →
    Uninitialised ms (k + 1) j → value j = counted (value k) (j - k)
  fromZero : ∀ {j}, j < ms.length → Uninitialised ms 0 j →
    value j = some (.number (Binary64.increment^[j] .zero))

section members

variable {source name : String} {next : Option Binary64} {ms : List Node} {m : Node} {j k : Nat}

theorem kind_ne_comment {body : Node} (h : m ∈ members body) : m.kind ≠ .comment :=
  of_decide_eq_true (List.mem_filter.1 h).2

theorem enumMember_key (source : String) (next : Option Binary64) (m : Node) :
    (enumMember source next m).1 = memberKey? source m := by
  rw [enumMember, memberKey?]
  split <;> rfl

theorem enumMember_initialised (h : m.kind = .enumAssignment) :
    (enumMember source next m).2 = (m.child? .value).bind (·.literal? source) := by
  rw [enumMember, if_pos h]

theorem enumMember_uninitialised (h : m.kind ≠ .enumAssignment) :
    (enumMember source next m).2 = next.map .number := by
  rw [enumMember, if_neg h]

theorem nextAfter_append (source : String) (next : Option Binary64) (xs ys : List Node) :
    nextAfter source next (xs ++ ys) = nextAfter source (nextAfter source next xs) ys :=
  List.foldl_append

theorem ofEnumMembers_filter (source name : String) (next : Option Binary64) (ns : List Node) :
    ofEnumMembers source name next (ns.filter (·.kind ≠ .comment)) =
      ofEnumMembers source name next ns := by
  induction ns generalizing next with
  | nil => rfl
  | cons n ns ih =>
      by_cases hcomment : n.kind = .comment
      · simpa [ofEnumMembers, hcomment] using ih next
      · simp only [ne_eq, decide_not] at ih
        simp [ofEnumMembers, hcomment, ih]

theorem ofEnumMembers_cons (hcomment : m.kind ≠ .comment) (ns : List Node) :
    ofEnumMembers source name next (m :: ns) =
      ((memberKey? source m).map fun key => ⟨[name, key], (enumMember source next m).2⟩).toList ++
        ofEnumMembers source name (following (enumMember source next m).2) ns := by
  rw [ofEnumMembers, if_neg hcomment, ← enumMember_key source next]
  cases hkey : (enumMember source next m).1 <;> simp [hkey]

theorem ofEnumMembers_append (source name : String) (next : Option Binary64) (xs ys : List Node) :
    ofEnumMembers source name next (xs ++ ys) =
      ofEnumMembers source name next xs ++
        ofEnumMembers source name (nextAfter source next xs) ys := by
  induction xs generalizing next with
  | nil => rfl
  | cons x xs ih =>
      by_cases hcomment : x.kind = .comment
      · simp [ofEnumMembers, nextAfter, hcomment, ih]
      · have hnext : nextAfter source next (x :: xs) =
            nextAfter source (following (enumMember source next x).2) xs := by
          rw [nextAfter, List.foldl_cons, if_neg hcomment]
          rfl
        rw [List.cons_append, ofEnumMembers_cons hcomment, ofEnumMembers_cons hcomment, ih, hnext,
          List.append_assoc]

theorem memberValue_eq (h : ms[j]? = some m) :
    memberValue source ms j =
      (enumMember source (nextAfter source (some .zero) (ms.take j)) m).2 := by
  rw [memberValue, h, Option.bind_some]

theorem memberValue_initialised (h : ms[j]? = some m) (hkind : m.kind = .enumAssignment) :
    memberValue source ms j = (m.child? .value).bind (·.literal? source) := by
  rw [memberValue_eq h, enumMember_initialised hkind]

theorem nextAfter_take_succ (h : ms[j]? = some m) (hcomment : m.kind ≠ .comment) :
    nextAfter source (some .zero) (ms.take (j + 1)) = following (memberValue source ms j) := by
  rw [List.take_add_one, h, Option.toList_some, nextAfter_append, memberValue_eq h, nextAfter,
    List.foldl_cons, List.foldl_nil, if_neg hcomment]

/-- One place further on without an initialiser. -/
theorem memberValue_succ {last : Node} (hlast : ms[j]? = some last)
    (hcomment : last.kind ≠ .comment) (h : ms[j + 1]? = some m) (hkind : m.kind ≠ .enumAssignment) :
    memberValue source ms (j + 1) = counted (memberValue source ms j) 1 := by
  rw [memberValue_eq h, enumMember_uninitialised hkind, nextAfter_take_succ hlast hcomment]
  cases memberValue source ms j with
  | none => rfl
  | some value => cases value <;> rfl

theorem counted_counted (value : Option Literal) (steps more : Nat) :
    counted (counted value steps) more = counted value (steps + more) := by
  cases value with
  | none => rfl
  | some value =>
      cases value with
      | string => rfl
      | number x => simp only [counted, Nat.add_comm steps, Function.iterate_add_apply]

/-- A run without initialisers counts on from the member in front of it. -/
theorem memberValue_run (hcomment : ∀ m ∈ ms, m.kind ≠ .comment) {steps : Nat}
    (hlength : k + (steps + 1) < ms.length) (hplain : Uninitialised ms (k + 1) (k + (steps + 1))) :
    memberValue source ms (k + (steps + 1)) = counted (memberValue source ms k) (steps + 1) := by
  induction steps with
  | zero =>
      have hlast := List.getElem?_eq_getElem (show k < ms.length by omega)
      have hnext := List.getElem?_eq_getElem hlength
      exact memberValue_succ hlast (hcomment _ (List.mem_of_getElem? hlast)) hnext
        (hplain _ _ (Nat.le_refl _) (Nat.le_refl _) hnext)
  | succ steps ih =>
      have hlast := List.getElem?_eq_getElem (show k + (steps + 1) < ms.length by omega)
      have hnext := List.getElem?_eq_getElem hlength
      have hrest := ih (by omega) fun i m hfirst hi => hplain i m hfirst (by omega)
      calc
        memberValue source ms (k + (steps + 1) + 1)
          = counted (memberValue source ms (k + (steps + 1))) 1 :=
            memberValue_succ hlast (hcomment _ (List.mem_of_getElem? hlast)) hnext
              (hplain _ _ (by omega) (Nat.le_refl _) hnext)
        _ = counted (memberValue source ms k) (steps + 1 + 1) := by rw [hrest, counted_counted]

theorem memberValue_zero (h : ms[0]? = some m) (hkind : m.kind ≠ .enumAssignment) :
    memberValue source ms 0 = some (.number .zero) := by
  rw [memberValue_eq h, enumMember_uninitialised hkind]
  rfl

theorem counts_memberValue (hcomment : ∀ m ∈ ms, m.kind ≠ .comment) :
    Counts source ms (memberValue source ms) where
  initialised := memberValue_initialised
  onwards := by
    intro k j m _ _ hlt hlength hplain
    obtain ⟨steps, rfl⟩ := Nat.exists_eq_add_of_lt hlt
    rw [Nat.add_assoc, Nat.add_sub_cancel_left]
    exact memberValue_run hcomment hlength hplain
  fromZero := by
    intro j hlength hplain
    have hfirst := List.getElem?_eq_getElem (show 0 < ms.length by omega)
    have hzero : memberValue source ms 0 = some (.number .zero) :=
      memberValue_zero hfirst (hplain 0 _ (Nat.le_refl _) (Nat.zero_le _) hfirst)
    cases j with
    | zero => exact hzero
    | succ j =>
        have hrun : memberValue source ms (0 + (j + 1)) =
            counted (memberValue source ms 0) (j + 1) :=
          memberValue_run hcomment (by omega) fun i m _ hi => hplain i m (Nat.zero_le _) (by omega)
        rw [Nat.zero_add, hzero] at hrun
        exact hrun

theorem path_member (name key : String) (value : Option Literal) :
    path ⟨[name, key], value⟩ = name ++ "." ++ key := by
  rw [path, ← String.toList_inj]
  simp

theorem path_member_inj {name key key' : String} {value value' : Option Literal}
    (h : path ⟨[name, key], value⟩ = path ⟨[name, key'], value'⟩) : key = key' := by
  rw [path_member, path_member, String.append_right_inj] at h
  exact h

theorem mem_ofEnumMembers_drop {d : Declaration}
    (h : d ∈ ofEnumMembers source name (nextAfter source (some .zero) (ms.take j)) (ms.drop j)) :
    ∃ i key, j ≤ i ∧ Called source ms i key ∧ d = ⟨[name, key], memberValue source ms i⟩ := by
  obtain ⟨before, m, after, hsplit, -, key, hkey, rfl⟩ := mem_ofEnumMembers_iff.1 h
  have hget : ms[j + before.length]? = some m := by
    rw [← List.getElem?_drop, hsplit]
    simp
  have htake : ms.take (j + before.length) = ms.take j ++ before := by
    rw [List.take_add, hsplit, List.take_left]
  rw [enumMember_key] at hkey
  refine ⟨j + before.length, key, Nat.le_add_right _ _, ⟨m, hget, hkey⟩, ?_⟩
  rw [memberValue_eq hget, htake, nextAfter_append]

theorem ofEnumMembers_split (name : String) (h : ms[j]? = some m) (hcomment : m.kind ≠ .comment)
    {key : String} (hkey : memberKey? source m = some key) :
    ofEnumMembers source name (some .zero) ms =
      ofEnumMembers source name (some .zero) (ms.take j) ++
        ⟨[name, key], memberValue source ms j⟩ ::
          ofEnumMembers source name (nextAfter source (some .zero) (ms.take (j + 1)))
            (ms.drop (j + 1)) := by
  have hsplit : ms = ms.take j ++ m :: ms.drop (j + 1) := by
    obtain ⟨hlt, rfl⟩ := List.getElem?_eq_some_iff.1 h
    rw [← List.drop_eq_getElem_cons hlt, List.take_append_drop]
  conv_lhs => rw [hsplit]
  rw [ofEnumMembers_append, ofEnumMembers_cons hcomment, hkey, nextAfter_take_succ h hcomment,
    memberValue_eq h]
  rfl

theorem get?_last_member (hcomment : ∀ m ∈ ms, m.kind ≠ .comment) (c : Constants)
    {key : String} {value : Literal} (hcalled : Called source ms j key)
    (hvalue : memberValue source ms j = some value)
    (hlater : ∀ i, j < i → Called source ms i key → memberValue source ms i = none) :
    ((ofEnumMembers source name (some .zero) ms).foldl Constants.declare c).get?
      (name ++ "." ++ key) = some value := by
  obtain ⟨m, hm, hkey⟩ := hcalled
  have hsplit := ofEnumMembers_split name hm (hcomment m (List.mem_of_getElem? hm)) hkey
  have hlatest : latest? (name ++ "." ++ key) (ofEnumMembers source name (some .zero) ms) =
      some value := by
    refine latest?_eq_some_iff.2 ⟨_, ⟨_, _, hsplit, ⟨path_member _ _ _, ?_⟩, ?_⟩, hvalue⟩
    · rw [hvalue]
      exact Option.some_ne_none _
    · rintro d hd ⟨hpath, hne⟩
      obtain ⟨i, key', hi, hcalled, rfl⟩ := mem_ofEnumMembers_drop hd
      rw [← path_member name key (some value)] at hpath
      rw [path_member_inj hpath] at hcalled
      exact hne (hlater i hi hcalled)
  rw [Constants.get?_foldl_declare, hlatest, Option.some_or]

theorem get?_no_member (c : Constants) {path : String}
    (hnone : ∀ i key, Called source ms i key → path = name ++ "." ++ key →
      memberValue source ms i = none) :
    ((ofEnumMembers source name (some .zero) ms).foldl Constants.declare c).get? path =
      c.get? path := by
  have hlatest : latest? path (ofEnumMembers source name (some .zero) ms) = none := by
    refine latest?_eq_none_iff.2 fun d hd hpath => ?_
    obtain ⟨i, key, -, hcalled, rfl⟩ := mem_ofEnumMembers_drop (j := 0) hd
    exact hnone i key hcalled (hpath.symm.trans (path_member _ _ _))
  rw [Constants.get?_foldl_declare, hlatest, Option.none_or]

end members

section enum

variable {n name body : Node}

theorem ofNode_enum (source : String) (hkind : n.kind = .enumDeclaration)
    (hname : n.child? .name = some name) (hbody : n.child? .body = some body) :
    ofNode source n = ofEnumMembers source (name.text source) (some .zero) (members body) := by
  rw [members, ofEnumMembers_filter, ofNode, hkind]
  simp only [ofEnum, hname, hbody]

/-- The members of an enum count on from their initialisers, or from zero. When the enum has been
entered, the path of a member's name has the value of the last member of that name that has one; a
path that no member with a value is called by is left as it was. -/
theorem enum_members_count (source : String) (hkind : n.kind = .enumDeclaration)
    (hname : n.child? .name = some name) (hbody : n.child? .body = some body) :
    let ms := members body
    let value := memberValue source ms
    Counts source ms value ∧
    ∀ c : Constants, let entered := (ofNode source n).foldl Constants.declare c
      (∀ j key v, Called source ms j key → value j = some v →
        (∀ i, j < i → Called source ms i key → value i = none) →
        entered.get? (name.text source ++ "." ++ key) = some v) ∧
      ∀ path, (∀ i key, Called source ms i key → path = name.text source ++ "." ++ key →
        value i = none) → entered.get? path = c.get? path := by
  intro ms value
  have hcomment : ∀ m ∈ ms, m.kind ≠ .comment := fun _ => kind_ne_comment
  refine ⟨counts_memberValue hcomment, fun c => ?_⟩
  rw [ofNode_enum source hkind hname hbody]
  refine ⟨?_, fun path => get?_no_member c⟩
  intro j key v hcalled hvalue hlater
  exact get?_last_member hcomment c hcalled hvalue hlater

/-- The second `D` is behind a string and has no value, so that `D` is what the first one is: two
more than `B`, as the computed name between them takes a place. -/
theorem enum_members_count_unnamed :
    let node (type : String) (start stop : UInt64) (fields : List Field) (below : List Node) :
        Node := .mk ⟨type, start, stop, 0, start, true, false, false, false, fields⟩ below
    let source := "enum E \x7b A, B = 5, [c], D, /**/ S = \"s\", T, D \x7d"
    let name := node "identifier" 5 6 [.name] []
    let body := node "enum_body" 7 47 [.body]
      [node "property_identifier" 9 10 [.name] [],
       node "enum_assignment" 12 17 []
        [node "property_identifier" 12 13 [.name] [], node "number" 16 17 [.value] []],
       node "computed_property_name" 19 22 [.name] [node "identifier" 20 21 [] []],
       node "property_identifier" 24 25 [.name] [],
       node "comment" 27 31 [] [],
       node "enum_assignment" 32 39 []
        [node "property_identifier" 32 33 [.name] [], node "string" 36 39 [.value] []],
       node "property_identifier" 41 42 [.name] [],
       node "property_identifier" 44 45 [.name] []]
    let n := node "enum_declaration" 0 47 [] [name, body]
    let entered := (ofNode source n).foldl Constants.declare .empty
    (n.kind = .enumDeclaration ∧ n.child? .name = some name ∧ n.child? .body = some body) ∧
    Counts source (members body) (memberValue source (members body)) ∧
    (List.range 7).map (memberValue source (members body)) =
      [some (.number .zero), some (.number (.ofNat 5)), some (.number (.ofNat 6)),
        some (.number (.ofNat 7)), some (.string "s"), none, none] ∧
    entered.get? "E.D" = some (.number (.ofNat 7)) ∧ entered.get? "E.T" = none := by
  intro node source name body n entered
  have hkind : n.kind = .enumDeclaration := by decide +kernel
  have hname : n.child? .name = some name := rfl
  have hbody : n.child? .body = some body := rfl
  have hcount := enum_members_count source hkind hname hbody
  exact ⟨⟨hkind, hname, hbody⟩, hcount.1, by decide +kernel, by decide +kernel, by decide +kernel⟩

end enum

end ScriptLens.Declaration
