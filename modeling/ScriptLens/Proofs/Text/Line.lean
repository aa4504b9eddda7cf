import Mathlib.Data.List.TakeWhile
import ScriptLens.Text.Line

namespace ScriptLens.Text

theorem trim_eq_self {cs : List Char} (h : ∀ c ∈ cs, isBlank c = false) : trim cs = cs := by
  have hkeep : ∀ cs : List Char, (∀ c ∈ cs, isBlank c = false) → cs.dropWhile isBlank = cs := by
    intro cs h
    cases cs with
    | nil => rfl
    | cons c cs => exact List.dropWhile_cons_of_neg (by simp [h c List.mem_cons_self])
  rw [trim, trimStart, hkeep cs h, trimEnd, hkeep _ (by simpa using h), List.reverse_reverse]

theorem trim_eq_nil_iff {cs : List Char} : trim cs = [] ↔ cs.all isBlank = true := by
  induction cs with
  | nil => exact iff_of_true rfl rfl
  | cons c cs ih =>
      cases hc : isBlank c with
      | true =>
          rw [trim, trimStart, List.dropWhile_cons_of_pos hc, List.all_cons, hc, Bool.true_and]
          exact ih
      | false =>
          -- a character that is not blank ends the trimming at either end
          have hne : (c :: cs).reverse.dropWhile isBlank ≠ [] := by
            rw [ne_eq, List.dropWhile_eq_nil_iff]
            intro h
            have hblank := h c (List.mem_reverse.2 List.mem_cons_self)
            rw [hc] at hblank
            cases hblank
          rw [trim, trimStart, List.dropWhile_cons_of_neg (by simp [hc]), trimEnd,
            List.reverse_eq_nil_iff, List.all_cons, hc, Bool.false_and]
          exact iff_of_false hne Bool.false_ne_true

structure Trimmed (cs : List Char) : Prop where
  first : ∀ c ∈ cs.head?, isBlank c = false
  last : ∀ c ∈ cs.getLast?, isBlank c = false

/-- A line that stands for a text: one line, without blanks around it, with which the text ends. It is
empty only if nothing of the text can be seen. -/
structure IsFinalLine (cs line : List Char) : Prop where
  oneLine : '\n' ∉ line
  trimmed : Trimmed line
  suffix : line <:+ trim cs
  blank : line = [] → ∀ c ∈ cs, isBlank c = true

theorem isBlank_of_mem_head?_trimStart {cs : List Char} {c : Char} (h : c ∈ (trimStart cs).head?) :
    isBlank c = false := by
  have hhead := List.head?_dropWhile_not isBlank cs
  rw [show (cs.dropWhile isBlank).head? = some c from h] at hhead
  exact hhead

theorem trimEnd_prefix (cs : List Char) : trimEnd cs <+: cs := by
  rw [trimEnd, ← List.reverse_suffix, List.reverse_reverse]
  exact List.dropWhile_suffix isBlank

theorem trimEnd_of_last {cs : List Char} (h : ∀ c ∈ cs.getLast?, isBlank c = false) :
    trimEnd cs = cs := by
  have hkeep : cs.reverse.dropWhile isBlank = cs.reverse := by
    rw [← List.head?_reverse] at h
    cases hrev : cs.reverse with
    | nil => rfl
    | cons c rest => exact List.dropWhile_cons_of_neg (by simp [h c (by rw [hrev]; rfl)])
  rw [trimEnd, hkeep, List.reverse_reverse]

theorem trimmed_trim (cs : List Char) : Trimmed (trim cs) where
  first := by
    intro c hc
    obtain ⟨rest, hrest⟩ := trimEnd_prefix (trimStart cs)
    have hhead : c ∈ (trimStart cs).head? := by
      rw [← hrest, List.head?_append, show (trimEnd (trimStart cs)).head? = some c from hc]
      rfl
    exact isBlank_of_mem_head?_trimStart hhead
  last := by
    intro c hc
    rw [trim, trimEnd, List.getLast?_reverse] at hc
    exact isBlank_of_mem_head?_trimStart hc

theorem mem_getLast?_of_suffix {cs line : List Char} (h : line <:+ cs) {c : Char}
    (hc : c ∈ line.getLast?) : c ∈ cs.getLast? := by
  obtain ⟨before, rfl⟩ := h
  rw [List.getLast?_append, show line.getLast? = some c from hc]
  rfl

theorem afterLastBreak_suffix (cs : List Char) : afterLastBreak cs <:+ cs := by
  rw [afterLastBreak, ← List.reverse_prefix, List.reverse_reverse]
  exact List.takeWhile_prefix _

theorem newline_not_mem_afterLastBreak (cs : List Char) : '\n' ∉ afterLastBreak cs := by
  rw [afterLastBreak, List.mem_reverse]
  intro h
  exact absurd (List.mem_takeWhile_imp h) (by decide)

theorem afterLastBreak_ne_nil {cs : List Char} {c : Char} (hc : c ∈ cs.getLast?) (hne : c ≠ '\n') :
    afterLastBreak cs ≠ [] := by
  rw [← List.head?_reverse] at hc
  rw [afterLastBreak, ne_eq, List.reverse_eq_nil_iff]
  cases hrev : cs.reverse with
  | nil =>
      rw [hrev] at hc
      cases hc
  | cons d rest =>
      rw [hrev] at hc
      cases hc
      rw [List.takeWhile_cons_of_pos (by simpa using hne)]
      exact List.cons_ne_nil _ _

/-- The blanks are all in front: a trimmed text does not end with one. -/
theorem finalLine_eq (cs : List Char) : finalLine cs = trimStart (afterLastBreak (trim cs)) := by
  apply trimEnd_of_last
  intro c hc
  have hlast := mem_getLast?_of_suffix (List.dropWhile_suffix isBlank) hc
  exact (trimmed_trim cs).last c (mem_getLast?_of_suffix (afterLastBreak_suffix _) hlast)

theorem isFinalLine_finalLine (cs : List Char) : IsFinalLine cs (finalLine cs) where
  oneLine := by
    rw [finalLine_eq]
    intro h
    exact newline_not_mem_afterLastBreak _ ((List.dropWhile_suffix isBlank).subset h)
  trimmed := trimmed_trim _
  suffix := by
    rw [finalLine_eq]
    exact (List.dropWhile_suffix isBlank).trans (afterLastBreak_suffix _)
  blank := by
    intro hnil
    have hall : ∀ c ∈ afterLastBreak (trim cs), isBlank c = true :=
      List.dropWhile_eq_nil_iff.1 ((finalLine_eq cs).symm.trans hnil)
    rw [← List.all_eq_true, ← trim_eq_nil_iff]
    by_contra hne
    -- the last character of the trimmed text is on the last line and can be seen
    obtain ⟨c, hc⟩ := Option.ne_none_iff_exists'.1 (mt List.getLast?_eq_none_iff.1 hne)
    have hseen : isBlank c = false := (trimmed_trim cs).last c hc
    have hbreak : c ≠ '\n' := by
      rintro rfl
      cases hseen
    obtain ⟨d, hd⟩ := Option.ne_none_iff_exists'.1
      (mt List.getLast?_eq_none_iff.1 (afterLastBreak_ne_nil hc hbreak))
    have hdc := mem_getLast?_of_suffix (afterLastBreak_suffix _) hd
    rw [Option.mem_def, hc, Option.some.injEq] at hdc
    have hblank := hall d (List.mem_of_getLast? hd)
    rw [← hdc, hseen] at hblank
    cases hblank

example : finalLine "app\n    .router\n    .get ".toList = ".get".toList := by decide

theorem splitLines_append {line : List Char} (h : '\n' ∉ line) (rest : List Char) :
    splitLines (line ++ '\n' :: rest) = line :: splitLines rest := by
  induction line with
  | nil => rw [List.nil_append, splitLines]
  | cons c line ih =>
      rw [List.mem_cons, not_or] at h
      rw [List.cons_append, splitLines, ih h.2]
      rintro rfl
      exact h.1 rfl

theorem splitLines_flatMap {lines : List (List Char)} (h : ∀ line ∈ lines, '\n' ∉ line) :
    splitLines (lines.flatMap (· ++ ['\n'])) = lines := by
  induction lines with
  | nil => rfl
  | cons line lines ih =>
      rw [List.flatMap_cons, List.append_assoc, List.singleton_append,
        splitLines_append (h line List.mem_cons_self),
        ih fun l hl => h l (List.mem_cons_of_mem _ hl)]

end ScriptLens.Text
