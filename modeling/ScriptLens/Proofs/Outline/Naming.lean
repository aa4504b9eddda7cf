import Mathlib.Data.List.Forall2
import ScriptLens.Proofs.Outline.Traversal
import ScriptLens.Proofs.Text.Line

namespace ScriptLens

namespace Place

/-- A construct that goes by the slot it stands in: an object literal, an arrow function, or a
function without a name of its own. -/
def Borrows (source : String) (p : Place) : Prop :=
  p.node.kind = .objectLiteral ∨ p.node.kind = .arrowFunction ∨
    (p.node.kind ∈ [.functionDeclaration, .functionExpression] ∧
      (p.node.child? .name).bind (·.staticName? source) = none)

def IsArgumentTo (callee : Node) (p : Place) : Prop :=
  ∃ args call above, p.above = args :: call :: above ∧ args.kind = .arguments ∧
    call.kind = .callExpression ∧ call.child? .function = some callee

def IsAssignedTo (target : Node) (p : Place) : Prop :=
  ∃ assignment above, p.above = assignment :: above ∧ assignment.kind = .assignment ∧
    assignment.child? .left = some target ∧ target.kind ∈ [.identifier, .memberAccess]

end Place

namespace Outline

/-- How the name of an entry comes about, as far as it is a callee's or a target's. A target of which
nothing can be seen lends no name. -/
structure Entry.WellNamed (source : String) (e : Entry) (p : Place) : Prop where
  nonEmpty : e.name ≠ ""
  callee : ∀ callee, p.Borrows source → p.IsArgumentTo callee →
    ∃ line, Text.IsFinalLine (callee.text source).toList line ∧ e.name = .ofList line ++ "()"
  target : ∀ target, p.Borrows source → p.IsAssignedTo target →
    ∃ line, Text.IsFinalLine (target.text source).toList line ∧
      (e.name = .ofList line ∨ line = [] ∧ e.name ∈ [anonymous, anonymousArrow])

variable {source : String}

theorem nonEmpty?_ne (s : String) : nonEmpty? s ≠ some "" := by
  unfold nonEmpty?
  split
  · exact nofun
  · next hne => simpa using hne

theorem staticName?_ne (n : Node) : n.staticName? source ≠ some "" := by
  unfold Node.staticName?
  split
  · exact nonEmpty?_ne _
  · exact nonEmpty?_ne _
  · exact nonEmpty?_ne _
  · exact nofun

theorem bind_ne {α : Type} {f : α → Option String} (hf : ∀ a, f a ≠ some "") (o : Option α) :
    o.bind f ≠ some "" := by
  cases o with
  | none => exact nofun
  | some a => exact hf a

theorem or_ne {o o' : Option String} (h : o ≠ some "") (h' : o' ≠ some "") : o.or o' ≠ some "" := by
  cases o with
  | none => exact h'
  | some name => exact h

theorem getD_ne {o : Option String} {placeholder : String} (h : o ≠ some "")
    (hplaceholder : placeholder ≠ "") : o.getD placeholder ≠ "" := by
  cases o with
  | none => exact hplaceholder
  | some name => simpa using h

theorem calleeName?_ne (call : Node) : calleeName? source call ≠ some "" := by
  unfold calleeName?
  split
  · rw [ne_eq, Option.map_eq_some_iff]
    rintro ⟨callee, -, hempty⟩
    exact absurd (String.append_eq_empty_iff.1 hempty).2 (by decide)
  · exact nofun

theorem targetName?_ne (target : Node) : targetName? source target ≠ some "" := by
  unfold targetName?
  split
  · exact nonEmpty?_ne _
  · exact nonEmpty?_ne _
  · exact nofun

theorem slot_ne (above : List Node) : (slot source above).name ≠ some "" := by
  cases above with
  | nil => exact nofun
  | cons parent above =>
      unfold slot
      dsimp only
      split
      · exact bind_ne staticName?_ne _
      · exact bind_ne (fun _ => nonEmpty?_ne _) _
      · exact bind_ne calleeName?_ne _
      · exact bind_ne targetName?_ne _
      · exact nofun

theorem member_ne (above : List Node) (n : Node) : (member source above n).1 ≠ "" := by
  have hown := bind_ne (@staticName?_ne source) (n.child? .name)
  unfold member
  dsimp only
  split
  · exact getD_ne hown (by decide)
  · exact getD_ne hown (by decide)
  · split
    · exact (by decide : constructorName ≠ "")
    · exact getD_ne hown (by decide)

theorem ne_of_listed? {above : List Node} {n : Node} {name : String} {construct : Construct}
    (h : listed? source above n = some (name, construct)) : name ≠ "" := by
  unfold listed? at h
  split at h
  · split at h
    · cases h
      exact getD_ne (slot_ne above) (by decide)
    · cases h
  · cases h
    exact getD_ne (bind_ne (fun _ => nonEmpty?_ne _) _) (by decide)
  · cases h
    exact getD_ne (bind_ne (fun _ => nonEmpty?_ne _) _) (by decide)
  · have hmember := @member_ne source above n
    rwa [Option.some.inj h] at hmember
  · have hmember := @member_ne source above n
    rwa [Option.some.inj h] at hmember
  · cases h
    exact getD_ne (slot_ne above) (by decide)
  · cases h
    exact getD_ne (or_ne (bind_ne staticName?_ne _) (slot_ne above)) (by decide)
  · cases h
    exact getD_ne (or_ne (bind_ne staticName?_ne _) (slot_ne above)) (by decide)
  · cases h

theorem name_of_borrows {p : Place} {name : String} {construct : Construct}
    (hborrows : p.Borrows source)
    (hlisted : listed? source p.above p.node = some (name, construct)) :
    ∃ placeholder ∈ [anonymous, anonymousArrow],
      name = (slot source p.above).name.getD placeholder := by
  unfold listed? at hlisted
  rcases hborrows with hkind | hkind | ⟨hkind, hown⟩
  · simp only [hkind] at hlisted
    split at hlisted
    · cases hlisted
      exact ⟨anonymous, by simp, rfl⟩
    · cases hlisted
  · simp only [hkind] at hlisted
    cases hlisted
    exact ⟨anonymousArrow, by simp, rfl⟩
  · simp only [List.mem_cons, List.not_mem_nil, or_false] at hkind
    rcases hkind with hkind | hkind
    all_goals
      simp only [hkind, hown, Option.none_or] at hlisted
      cases hlisted
      exact ⟨anonymous, by simp, rfl⟩

theorem slot_of_isArgumentTo {p : Place} {callee : Node} (h : p.IsArgumentTo callee) :
    (slot source p.above).name = some (callee.finalLine source ++ "()") := by
  obtain ⟨args, call, above, habove, hargs, hcall, hcallee⟩ := h
  simp [slot, habove, hargs, calleeName?, hcall, hcallee]

theorem slot_of_isAssignedTo {p : Place} {target : Node} (h : p.IsAssignedTo target) :
    (slot source p.above).name = nonEmpty? (target.finalLine source) := by
  obtain ⟨assignment, above, habove, hassignment, htarget, hkind⟩ := h
  simp only [List.mem_cons, List.not_mem_nil, or_false] at hkind
  rcases hkind with hkind | hkind <;>
    simp [slot, habove, hassignment, htarget, targetName?, hkind]

theorem wellNamed_of_listed {e : Entry} {p : Place}
    (h : listed? source p.above p.node = some (e.name, e.construct)) : e.WellNamed source p where
  nonEmpty := ne_of_listed? h
  callee := by
    intro callee hborrows hargument
    obtain ⟨placeholder, -, hname⟩ := name_of_borrows hborrows h
    rw [slot_of_isArgumentTo hargument] at hname
    exact ⟨_, Text.isFinalLine_finalLine _, hname⟩
  target := by
    intro target hborrows hassigned
    obtain ⟨placeholder, hplaceholder, hname⟩ := name_of_borrows hborrows h
    refine ⟨_, Text.isFinalLine_finalLine _, ?_⟩
    rw [slot_of_isAssignedTo hassigned, nonEmpty?] at hname
    split at hname
    · next hempty =>
      refine .inr ⟨String.ofList_eq_empty_iff.1 hempty, ?_⟩
      rw [hname]
      exact hplaceholder
    · exact .inl hname

theorem ofSource_listed (t : ParsedSource) :
    (ofSource t).Forall₂ (fun e p => listed? t.text p.above p.node = some (e.name, e.construct))
      t.root.constructs := by
  have hnames : (ofSource t).map (fun e => some (e.name, e.construct)) =
      t.root.constructs.map fun p => listed? t.text p.above p.node := by
    rw [← List.zipIdx_map_fst 0 t.root.constructs, List.map_map]
    apply map_ofSource
    rintro ⟨p, i⟩ - e he
    obtain ⟨⟨name, construct⟩, hlisted, rfl⟩ := Option.map_eq_some_iff.1 he
    exact hlisted.symm
  rw [← List.forall₂_eq_eq_eq, List.forall₂_map_left_iff, List.forall₂_map_right_iff] at hnames
  exact hnames.imp fun e p h => h.symm

/-- Every entry has a name, and one that is called after a callee or a target has the final line of
its text for a name: a single line without blanks around it, which the text ends with, and empty
only where nothing of the text can be seen. -/
theorem entries_well_named (t : ParsedSource) :
    (ofSource t).Forall₂ (Entry.WellNamed t.text) t.root.constructs :=
  (ofSource_listed t).imp fun _ _ => wellNamed_of_listed

end Outline

end ScriptLens
