import Mathlib.Data.List.Forall2
import ScriptLens.Outline.Render
import ScriptLens.Proofs.Number.Decimal
import ScriptLens.Proofs.Text.Line

namespace ScriptLens.Outline

structure Entry.Alike (a b : Entry) : Prop where
  construct : a.construct = b.construct
  name : a.name = b.name
  line : a.line = b.line
  indent : a.indent = b.indent

section run

variable {p : Char → Bool} {xs ys rest more : List Char}

theorem takeWhile_run (hx : ∀ c ∈ xs, p c = true) (hrest : ∀ c ∈ rest.head?, p c = false) :
    (xs ++ rest).takeWhile p = xs := by
  have hnone : rest.takeWhile p = [] := by
    cases rest with
    | nil => rfl
    | cons c rest => exact List.takeWhile_cons_of_neg (by simp [hrest c rfl])
  rw [List.takeWhile_append_of_pos hx, hnone, List.append_nil]

/-- A run of characters ends at the first that is not of its class. -/
theorem run_inj (hx : ∀ c ∈ xs, p c = true) (hy : ∀ c ∈ ys, p c = true)
    (hrest : ∀ c ∈ rest.head?, p c = false) (hmore : ∀ c ∈ more.head?, p c = false)
    (h : xs ++ rest = ys ++ more) : xs = ys ∧ rest = more := by
  have hruns : xs = ys := by rw [← takeWhile_run hx hrest, h, takeWhile_run hy hmore]
  subst hruns
  exact ⟨rfl, List.append_cancel_left h⟩

end run

namespace Entry

variable {a b : Entry} {xs ys : List Char} {m n : Nat}

theorem label_inj {c d : Construct} (h : c.label = d.label) : c = d := by
  cases c <;> cases d <;> simp_all [Construct.label]

theorem label_ne_nil (c : Construct) : c.label.toList ≠ [] := by
  cases c <;> simp [Construct.label]

/-- The name of a kind has neither blanks nor line feeds. -/
theorem unbroken_label (c : Construct) :
    c.label.toList.all (fun x => x != ' ' && x != '\n') = true := by
  cases c <;> rfl

theorem blank_not_mem_label (c : Construct) : ∀ x ∈ c.label.toList, (x != ' ') = true :=
  fun x hx => (Bool.and_eq_true_iff.1 (List.all_eq_true.1 (unbroken_label c) x hx)).1

theorem head?_label (c : Construct) (rest : List Char) :
    ∀ x ∈ (c.label.toList ++ rest).head?, (x == ' ') = false := by
  intro x hx
  rw [List.head?_append_of_ne_nil _ (label_ne_nil c)] at hx
  exact beq_false_of_ne (bne_iff_ne.1 (blank_not_mem_label c x (List.mem_of_head? hx)))

theorem indented_inj (hx : ∀ c ∈ xs.head?, (c == ' ') = false)
    (hy : ∀ c ∈ ys.head?, (c == ' ') = false)
    (h : List.replicate m ' ' ++ xs = List.replicate n ' ' ++ ys) : m = n ∧ xs = ys := by
  obtain ⟨hblanks, hrest⟩ := run_inj (p := (· == ' ')) (by simp) (by simp) hx hy h
  have hlength := congrArg List.length hblanks
  rw [List.length_replicate, List.length_replicate] at hlength
  exact ⟨hlength, hrest⟩

theorem labelled_inj {c d : Construct}
    (h : c.label.toList ++ ' ' :: xs = d.label.toList ++ ' ' :: ys) : c = d ∧ xs = ys := by
  have hblank (zs : List Char) : ∀ x ∈ (' ' :: zs).head?, (x != ' ') = false := by simp
  obtain ⟨hlabel, hrest⟩ :=
    run_inj (blank_not_mem_label c) (blank_not_mem_label d) (hblank xs) (hblank ys) h
  exact ⟨label_inj (String.toList_inj.1 hlabel), (List.cons.inj hrest).2⟩

/-- The number of a line is what stands behind its last colon. -/
theorem numbered_inj
    (h : xs ++ ' ' :: ':' :: Nat.toDigits 10 m = ys ++ ' ' :: ':' :: Nat.toDigits 10 n) :
    xs = ys ∧ m = n := by
  have hdigits (k : Nat) : ∀ c ∈ (Nat.toDigits 10 k).reverse, c.isDigit = true :=
    fun _ hc => isDigit_of_mem_toDigits (List.mem_reverse.1 hc)
  have hcolon (zs : List Char) : ∀ c ∈ (':' :: ' ' :: zs).head?, c.isDigit = false := by
    rintro c ⟨⟩
    rfl
  have hreverse (zs : List Char) (k : Nat) : (zs ++ ' ' :: ':' :: Nat.toDigits 10 k).reverse =
      (Nat.toDigits 10 k).reverse ++ ':' :: ' ' :: zs.reverse := by simp
  have hback := congrArg List.reverse h
  rw [hreverse, hreverse] at hback
  obtain ⟨hnumber, hrest⟩ := run_inj (hdigits m) (hdigits n) (hcolon _) (hcolon _) hback
  exact ⟨by simpa using hrest, toDigits_inj (List.reverse_inj.1 hnumber)⟩

theorem rendered_eq (e : Entry) :
    e.rendered = List.replicate (2 * e.indent.toNat) ' ' ++ (e.construct.label.toList ++ ' ' ::
      (e.name.toList ++ ' ' :: ':' :: Nat.toDigits 10 (e.line.toNat + 1))) := by
  simp only [rendered, List.append_assoc, List.cons_append]

theorem alike_of_rendered_eq (h : a.rendered = b.rendered) : Alike a b := by
  rw [rendered_eq, rendered_eq] at h
  obtain ⟨hindent, h⟩ := indented_inj (head?_label a.construct _) (head?_label b.construct _) h
  obtain ⟨hconstruct, h⟩ := labelled_inj h
  obtain ⟨hname, hline⟩ := numbered_inj h
  exact ⟨hconstruct, String.toList_inj.1 hname, UInt64.toNat_inj.1 (Nat.succ.inj hline),
    UInt64.toNat_inj.1 (Nat.eq_of_mul_eq_mul_left Nat.two_pos hindent)⟩

theorem rendered_eq_iff : a.rendered = b.rendered ↔ Alike a b := by
  refine ⟨alike_of_rendered_eq, fun h => ?_⟩
  rw [rendered, rendered, h.construct, h.name, h.line, h.indent]

theorem newline_not_mem_rendered (h : '\n' ∉ a.name.toList) : '\n' ∉ a.rendered := by
  have hkind : '\n' ∉ a.construct.label.toList :=
    fun hmem => absurd (List.all_eq_true.1 (unbroken_label a.construct) '\n' hmem) (by decide)
  have hnumber : '\n' ∉ Nat.toDigits 10 (a.line.toNat + 1) :=
    fun hmem => absurd (isDigit_of_mem_toDigits hmem) (by decide)
  simp [rendered_eq, h, hkind, hnumber]

end Entry

variable {xs ys : List Entry}

theorem toList_render (entries : List Entry) :
    (render entries).toList = (entries.map Entry.rendered).flatMap (· ++ ['\n']) := by
  rw [render, String.toList_ofList, List.flatMap_map]

theorem splitLines_render (h : ∀ e ∈ xs, '\n' ∉ e.name.toList) :
    Text.splitLines (render xs).toList = xs.map Entry.rendered := by
  rw [toList_render, Text.splitLines_flatMap]
  intro line hline
  obtain ⟨e, he, rfl⟩ := List.mem_map.1 hline
  exact Entry.newline_not_mem_rendered (h e he)

theorem count_newline_render (h : ∀ e ∈ xs, '\n' ∉ e.name.toList) :
    (render xs).toList.count '\n' = xs.length := by
  rw [toList_render]
  induction xs with
  | nil => rfl
  | cons e xs ih =>
      obtain ⟨he, hxs⟩ := List.forall_mem_cons.1 h
      rw [List.map_cons, List.flatMap_cons, List.count_append, List.count_append, ih hxs,
        List.count_eq_zero_of_not_mem (Entry.newline_not_mem_rendered he), List.count_singleton_self,
        List.length_cons]
      omega

/-- If no name has a line feed, two outlines have the same text exactly if their entries show the
same one by one, and the text has one line for each entry. -/
theorem render_eq_iff_alike (hx : ∀ e ∈ xs, '\n' ∉ e.name.toList)
    (hy : ∀ e ∈ ys, '\n' ∉ e.name.toList) :
    (render xs = render ys ↔ List.Forall₂ Entry.Alike xs ys) ∧
    Text.splitLines (render xs).toList = xs.map Entry.rendered ∧
    (render xs).toList.count '\n' = xs.length := by
  refine ⟨?_, splitLines_render hx, count_newline_render hx⟩
  have hlines : render xs = render ys ↔ xs.map Entry.rendered = ys.map Entry.rendered := by
    constructor
    · intro h
      rw [← splitLines_render hx, ← splitLines_render hy, h]
    · intro h
      rw [← String.toList_inj, toList_render, toList_render, h]
  rw [hlines, ← List.forall₂_eq_eq_eq, List.forall₂_map_left_iff, List.forall₂_map_right_iff]
  simp only [Entry.rendered_eq_iff]

/-- A name that ends like a numbered line, and one that begins with the name of a kind. -/
theorem render_eq_iff_alike_lookalikes :
    let a : Entry := ⟨"f :1", .function, 1, 1, 0⟩
    let b : Entry := ⟨"f", .function, 1, 0, 0⟩
    let c : Entry := ⟨"  Get x", .getter, 2, 8, 1⟩
    (∀ e ∈ [a, c], '\n' ∉ e.name.toList) ∧ (∀ e ∈ [b, c], '\n' ∉ e.name.toList) ∧
    render [a, c] = "Function f :1 :2\n  Get   Get x :9\n" ∧
    render [a, c] ≠ render [b, c] := by
  intro a b c
  have hx : ∀ e ∈ [a, c], '\n' ∉ e.name.toList := by decide
  have hy : ∀ e ∈ [b, c], '\n' ∉ e.name.toList := by decide
  refine ⟨hx, hy, by decide +kernel, fun h => ?_⟩
  have halike := (render_eq_iff_alike hx hy).1.1 h
  cases halike with
  | cons hhead _ => exact absurd hhead.name (by decide)

end ScriptLens.Outline
