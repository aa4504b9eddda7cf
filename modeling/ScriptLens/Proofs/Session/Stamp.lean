import ScriptLens.Proofs.Session.Changes

namespace ScriptLens.Settings

variable {s : Settings} {c : Change} {changes : List Change}

/-- A change is answered with an error, since the path of a new file is taken, or with false, since
the file of a handle has gone. -/
inductive Declines (s : Settings) : Change → Prop
  | duplicate {clock : Nat} {content : String} {path : Option String} {p : String}
      (hadd : s.addLib clock content path = .error (.duplicateLib p)) :
      Declines s (.addLib clock content path)
  | gone {h : LibHandle} (hdispose : (s.dispose h).1 = false) : Declines s (.dispose h)

theorem declines_iff : s.Declines c ↔ s.takesEffect c = false := by
  constructor
  · intro h
    cases h with
    | duplicate hadd => simp [takesEffect, hadd, Except.toOption]
    | gone hdispose => exact hdispose
  · intro hidle
    cases c with
    | setCompiler | setDiagnostics | setLibs => cases hidle
    | addLib clock content path =>
        obtain ⟨p, -, -, hadd⟩ | ⟨p, -, -, hadd⟩ := addLib_cases s clock content path
        · exact .duplicate hadd
        · simp [takesEffect, hadd, Except.toOption] at hidle
    | dispose h => exact .gone hidle

theorem step_of_declines (h : s.Declines c) : s.step c = s := by
  obtain ⟨-, hsame⟩ | ⟨heffect, -⟩ := step_cases s c
  · exact hsame
  · rw [declines_iff.1 h] at heffect
    cases heffect

theorem revision_lt_step (hroom : s.Room [c]) (h : ¬ s.Declines c) :
    s.revision < (s.step c).revision := by
  have heffect : s.takesEffect c = true := by rwa [declines_iff, Bool.not_eq_false] at h
  have hstep := toNat_revision_step hroom
  rw [heffect] at hstep
  rw [UInt64.lt_iff_toNat_lt, hstep]
  exact Nat.lt_succ_self _

theorem run_of_mutations_eq_zero (h : s.mutations changes = 0) : s.run changes = s := by
  induction changes generalizing s with
  | nil => rfl
  | cons c changes ih =>
      obtain ⟨heffect, hrest⟩ := Nat.add_eq_zero_iff.1 h
      obtain ⟨-, hsame⟩ | ⟨htrue, -⟩ := step_cases s c
      · rw [hsame] at hrest
        change (s.step c).run changes = s
        rw [hsame]
        exact ih hrest
      · rw [htrue] at heffect
        cases heffect

theorem revision_le_run (hroom : s.Room changes) : s.revision ≤ (s.run changes).revision := by
  rw [UInt64.le_iff_toNat_le, toNat_revision_run hroom]
  exact Nat.le_add_right _ _

theorem run_of_revision_eq (hroom : s.Room changes) (h : s.revision = (s.run changes).revision) :
    s.run changes = s := by
  apply run_of_mutations_eq_zero
  have hrun := toNat_revision_run hroom
  rw [← h] at hrun
  omega

/-- Any two points of a run with room before the revision comes round: the later one is reached from
the earlier one by a run that has room as well. -/
theorem Room.between (hroom : s.Room changes) (i k : Nat) :
    ∃ more, s.run (changes.take (i + k)) = (s.run (changes.take i)).run more ∧
      (s.run (changes.take i)).Room more := by
  refine ⟨(changes.drop i).take k, ?_, ?_⟩
  · rw [List.take_add, run_append]
  · have htake : s.Room (changes.take (i + k)) := by
      rw [← List.take_append_drop (i + k) changes] at hroom
      exact hroom.left
    rw [List.take_add] at htake
    exact htake.run

/-- The revision never goes back, and two points of a run at which it is the same have the same
settings. A change that is declined changes nothing at all, and every other moves the revision. -/
theorem revision_stamps_settings {config : Configuration} {changes : List Change}
    (hbound : (ofConfiguration config).mutations changes < UInt64.size) :
    let after i := (ofConfiguration config).run (changes.take i)
    (∀ i j, i ≤ j → (after i).revision ≤ (after j).revision) ∧
    (∀ i j, (after i).revision = (after j).revision → after i = after j) ∧
    (∀ i c, (after i).Declines c → (after i).step c = after i) ∧
    ∀ i c, changes[i]? = some c → ¬ (after i).Declines c →
      (after i).revision < (after (i + 1)).revision := by
  intro after
  have hroom := room_ofConfiguration config hbound
  have hsame : ∀ i k, (after i).revision = (after (i + k)).revision → after i = after (i + k) := by
    intro i k heq
    obtain ⟨more, hrun, hmore⟩ := hroom.between i k
    change after (i + k) = (after i).run more at hrun
    rw [hrun] at heq ⊢
    exact (run_of_revision_eq hmore heq).symm
  refine ⟨?_, ?_, fun i c => step_of_declines, ?_⟩
  · intro i j hij
    obtain ⟨k, rfl⟩ := Nat.exists_eq_add_of_le hij
    obtain ⟨more, hrun, hmore⟩ := hroom.between i k
    change after (i + k) = (after i).run more at hrun
    rw [hrun]
    exact revision_le_run hmore
  · intro i j heq
    rcases Nat.le_total i j with hij | hji
    · obtain ⟨k, rfl⟩ := Nat.exists_eq_add_of_le hij
      exact hsame i k heq
    · obtain ⟨k, rfl⟩ := Nat.exists_eq_add_of_le hji
      exact (hsame j k heq.symm).symm
  · intro i c hc hdeclines
    have htake : changes.take (i + 1) = changes.take i ++ [c] := by
      rw [List.take_add_one, hc, Option.toList_some]
    have hone : (after i).Room [c] := by
      rw [← List.take_append_drop (i + 1) changes, htake] at hroom
      exact hroom.left.run
    have hnext : after (i + 1) = (after i).step c := by
      change (ofConfiguration config).run (changes.take (i + 1)) = _
      rw [htake, run_append]
      rfl
    rw [hnext]
    exact revision_lt_step hone hdeclines

/-- A path that is taken, a handle used twice, and a file put back as it was: only the last brings a
new revision, under a new version. -/
theorem revision_stamps_settings_restored :
    let h : LibHandle := ⟨"lib.d.ts", ⟨1⟩⟩
    let changes : List Change :=
      [.addLib 0 "a" (some "lib.d.ts"), .addLib 0 "b" (some "lib.d.ts"), .dispose h, .dispose h,
        .addLib 0 "a" (some "lib.d.ts")]
    let after i := (ofConfiguration {}).run (changes.take i)
    (ofConfiguration {}).mutations changes < UInt64.size ∧
    after 1 = after 2 ∧ after 3 = after 4 ∧
    ((after 1).revision ≠ (after 5).revision ∧ after 1 ≠ after 5) := by
  intro h changes after
  have hbound : (ofConfiguration {}).mutations changes < UInt64.size := by decide
  obtain ⟨-, hsame, -, -⟩ := revision_stamps_settings hbound
  exact ⟨hbound, hsame 1 2 (by decide), hsame 3 4 (by decide), by decide, by decide⟩

end ScriptLens.Settings
