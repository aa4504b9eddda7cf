import Mathlib.Data.List.TakeWhile
import ScriptLens.Outline.Forest

namespace ScriptLens.Outline

/-- Forests by recursion: the entries behind the first one that are indented more, up to the next one
that is not, are those below it. -/
def grouped : List Entry → List Branch
  | [] => []
  | e :: rest =>
    .mk e (grouped (rest.takeWhile fun x => e.indent < x.indent))
      :: grouped (rest.dropWhile fun x => e.indent < x.indent)
termination_by entries => entries.length
decreasing_by
  · exact Nat.lt_succ_of_le (List.takeWhile_prefix _).length_le
  · exact Nat.lt_succ_of_le (List.dropWhile_suffix _).length_le

namespace Nesting

/-- What the open branches become, from the innermost outwards, when the branches `done` are put into
the innermost one and the entries that are left are added. Each branch takes the entries in front
that are indented more than it. -/
def completed : List Branch → List Branch → List Entry → List Branch
  | [], done, rest => done ++ grouped rest
  | b :: outer, done, rest =>
    completed outer
      [b.extend (done ++ grouped (rest.takeWhile fun x => b.entry.indent < x.indent))]
      (rest.dropWhile fun x => b.entry.indent < x.indent)

def outcome (n : Nesting) (rest : List Entry) : List Branch :=
  n.roots ++ completed n.opened [] rest

section lists

variable {α : Type} {p q : α → Bool}

theorem takeWhile_takeWhile_of_imp (hpq : ∀ x, p x = true → q x = true) (xs : List α) :
    (xs.takeWhile q).takeWhile p = xs.takeWhile p := by
  rw [List.takeWhile_takeWhile]
  congr 1
  funext x
  cases hx : p x <;> simp [hx, hpq]

theorem takeWhile_dropWhile_of_imp (hpq : ∀ x, p x = true → q x = true) (xs : List α) :
    (xs.takeWhile q).dropWhile p = (xs.dropWhile p).takeWhile q := by
  induction xs with
  | nil => rfl
  | cons x xs ih => cases hp : p x <;> cases hq : q x <;> simp_all

theorem dropWhile_dropWhile_of_imp (hpq : ∀ x, p x = true → q x = true) (xs : List α) :
    (xs.dropWhile p).dropWhile q = xs.dropWhile q := by
  induction xs with
  | nil => rfl
  | cons x xs ih => cases hp : p x <;> cases hq : q x <;> simp_all

end lists

variable {b : Branch} {outer done : List Branch} {e : Entry} {rest : List Entry} {n : Nesting}
  {p : Branch → Bool}

@[simp] theorem extend_nil (b : Branch) : b.extend [] = b := by
  cases b
  rw [Branch.extend, List.append_nil]

@[simp] theorem extend_extend (b : Branch) (more again : List Branch) :
    (b.extend more).extend again = b.extend (more ++ again) := by
  cases b
  rw [Branch.extend, Branch.extend, Branch.extend, List.append_assoc]

@[simp] theorem entry_extend (b : Branch) (more : List Branch) : (b.extend more).entry = b.entry := by
  cases b
  rfl

/-- Nothing more comes into a branch if the next entry is not indented more than it. -/
theorem completed_cons_of_le (h : ∀ x ∈ rest.head?, x.indent ≤ b.entry.indent) :
    completed (b :: outer) done rest = completed outer [b.extend done] rest := by
  have hsplit : rest.takeWhile (fun x => decide (b.entry.indent < x.indent)) = [] ∧
      rest.dropWhile (fun x => decide (b.entry.indent < x.indent)) = rest := by
    cases rest with
    | nil => exact ⟨rfl, rfl⟩
    | cons x rest =>
        have hx : ¬ b.entry.indent < x.indent := UInt64.not_lt.2 (h x rfl)
        exact ⟨List.takeWhile_cons_of_neg (by simpa using hx),
          List.dropWhile_cons_of_neg (by simpa using hx)⟩
  rw [completed, hsplit.1, hsplit.2, grouped, List.append_nil]

theorem outcome_close (hopen : n.opened = b :: outer)
    (h : ∀ x ∈ rest.head?, x.indent ≤ b.entry.indent) : n.close.outcome rest = n.outcome rest := by
  obtain ⟨opened, roots⟩ := n
  cases hopen
  cases outer with
  | nil =>
      rw [close, outcome, outcome, completed_cons_of_le h, completed, completed, extend_nil,
        List.nil_append, List.append_assoc]
  | cons parent outer =>
      rw [close, outcome, outcome, completed_cons_of_le h, completed, completed, extend_nil,
        extend_extend, entry_extend, List.nil_append]

theorem outcome_closeWhile (h : ∀ b, p b = true → ∀ x ∈ rest.head?, x.indent ≤ b.entry.indent) :
    (n.closeWhile p).outcome rest = n.outcome rest := by
  fun_induction closeWhile p n with
  | case1 => rfl
  | case2 n b outer hopen hb ih => rw [ih, outcome_close hopen (h b hb)]
  | case3 => rfl

theorem head?_closeWhile (p : Branch → Bool) (n : Nesting) :
    ∀ b ∈ (n.closeWhile p).opened.head?, p b = false := by
  fun_induction closeWhile p n with
  | case1 n hopen => simp [hopen]
  | case2 _ _ _ _ _ ih => exact ih
  | case3 n b outer hopen hb => simpa [hopen] using hb

theorem completed_open (e : Entry) (outer : List Branch) (rest : List Entry) :
    completed (.mk e [] :: outer) [] rest =
      completed outer [.mk e (grouped (rest.takeWhile fun x => e.indent < x.indent))]
        (rest.dropWhile fun x => e.indent < x.indent) :=
  rfl

/-- An entry that is indented more than the innermost open branch is the first of what is left for
it, and opens a branch of its own. -/
theorem outcome_open (h : ∀ b ∈ n.opened.head?, b.entry.indent < e.indent) :
    outcome ⟨.mk e [] :: n.opened, n.roots⟩ rest = n.outcome (e :: rest) := by
  obtain ⟨opened, roots⟩ := n
  rw [outcome, outcome, completed_open]
  congr 1
  cases opened with
  | nil =>
      rw [completed, completed, grouped]
      rfl
  | cons b outer =>
      have hb : b.entry.indent < e.indent := h b rfl
      have hfirst : decide (b.entry.indent < e.indent) = true := decide_eq_true hb
      have hdeeper : ∀ x : Entry, decide (e.indent < x.indent) = true →
          decide (b.entry.indent < x.indent) = true := by
        intro x hx
        exact decide_eq_true (UInt64.lt_trans hb (of_decide_eq_true hx))
      have htake : (e :: rest).takeWhile (fun x => decide (b.entry.indent < x.indent)) =
          e :: rest.takeWhile (fun x => decide (b.entry.indent < x.indent)) :=
        List.takeWhile_cons_of_pos hfirst
      have hdrop : (e :: rest).dropWhile (fun x => decide (b.entry.indent < x.indent)) =
          rest.dropWhile (fun x => decide (b.entry.indent < x.indent)) :=
        List.dropWhile_cons_of_pos hfirst
      rw [completed, completed, htake, hdrop, grouped, takeWhile_takeWhile_of_imp hdeeper,
        takeWhile_dropWhile_of_imp hdeeper, dropWhile_dropWhile_of_imp hdeeper]
      rfl

theorem outcome_enter (n : Nesting) (e : Entry) (rest : List Entry) :
    (n.enter e).outcome rest = n.outcome (e :: rest) := by
  have hstop : ∀ b ∈ (n.closeWhile fun b => e.indent ≤ b.entry.indent).opened.head?,
      b.entry.indent < e.indent := by
    intro b hb
    have hnot := of_decide_eq_false (head?_closeWhile _ n b hb)
    exact UInt64.not_le.1 hnot
  rw [enter, outcome_open hstop, outcome_closeWhile]
  rintro b hb x ⟨⟩
  exact of_decide_eq_true hb

theorem outcome_foldl (n : Nesting) (entries : List Entry) :
    (entries.foldl enter n).outcome [] = n.outcome entries := by
  induction entries generalizing n with
  | nil => rfl
  | cons e entries ih => rw [List.foldl_cons, ih, outcome_enter]

theorem opened_closeWhile (n : Nesting) : (n.closeWhile fun _ => true).opened = [] := by
  cases hopen : (n.closeWhile fun _ => true).opened with
  | nil => rfl
  | cons b outer => cases head?_closeWhile (fun _ => true) n b (by rw [hopen]; rfl)

end Nesting

open Nesting in
theorem forest_eq_grouped (entries : List Entry) : forest entries = grouped entries := by
  have hroots (n : Nesting) (h : n.opened = []) : n.roots = n.outcome [] := by
    rw [outcome, h, completed, grouped, List.append_nil, List.append_nil]
  rw [forest, hroots _ (opened_closeWhile _), outcome_closeWhile (by simp), outcome_foldl]
  rfl

theorem forest_nil : forest [] = [] := by
  rw [forest_eq_grouped, grouped]

theorem forest_cons (e : Entry) (rest : List Entry) :
    forest (e :: rest) =
      .mk e (forest (rest.takeWhile fun x => e.indent < x.indent))
        :: forest (rest.dropWhile fun x => e.indent < x.indent) := by
  rw [forest_eq_grouped, grouped, ← forest_eq_grouped, ← forest_eq_grouped]

end ScriptLens.Outline
