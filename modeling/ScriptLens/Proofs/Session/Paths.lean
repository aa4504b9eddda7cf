import Mathlib.Data.List.Nodup
import Mathlib.Order.Bounds.Basic
import ScriptLens.Proofs.Number.Decimal
import ScriptLens.Proofs.Session.Changes

namespace ScriptLens.Settings

variable {libs : Dict Source} {clock millis : Nat}

inductive Searches (libs : Dict Source) : Nat → Nat → Prop
  | found {millis : Nat} (hfree : libs.get? (pathAt millis) = none) : Searches libs millis millis
  | onwards {millis result : Nat} (htaken : (libs.get? (pathAt millis)).isSome)
      (h : Searches libs (millis + 1) result) : Searches libs millis result

theorem pathAt_inj {m n : Nat} (h : pathAt m = pathAt n) : m = n := by
  exact toDigits_inj (List.append_cancel_left (String.ofList_inj.1 h))

theorem Searches.isLeast {result : Nat} (h : Searches libs clock result) :
    IsLeast {m | clock ≤ m ∧ libs.get? (pathAt m) = none} result := by
  induction h with
  | found hfree => exact ⟨⟨Nat.le_refl _, hfree⟩, fun _ hm => hm.1⟩
  | @onwards millis result htaken _ ih =>
      obtain ⟨⟨hle, hfree⟩, hleast⟩ := ih
      refine ⟨⟨by omega, hfree⟩, ?_⟩
      rintro m ⟨hm, hmfree⟩
      have hne : m ≠ millis := by
        rintro rfl
        rw [hmfree] at htaken
        cases htaken
      exact hleast ⟨by omega, hmfree⟩

/-- Of one more milliseconds than there are files, one has a path that is free. -/
theorem exists_free (libs : Dict Source) (clock : Nat) :
    ∃ m, clock ≤ m ∧ m ≤ clock + libs.size ∧ libs.get? (pathAt m) = none := by
  by_contra hnone
  let paths := (List.range' clock (libs.size + 1)).map pathAt
  have hdistinct : paths.Nodup :=
    List.Nodup.map (fun _ _ => pathAt_inj) List.nodup_range'
  have htaken : paths ⊆ libs.keys := by
    intro path hpath
    obtain ⟨m, hm, rfl⟩ := List.mem_map.1 hpath
    rw [List.mem_range'_1] at hm
    rw [Dict.mem_keys_iff, Option.isSome_iff_ne_none]
    exact fun hfree => hnone ⟨m, hm.1, by omega, hfree⟩
  have hlength := (hdistinct.subperm htaken).length_le
  simp only [paths, List.length_map, List.length_range', Dict.keys] at hlength
  exact Nat.not_succ_le_self _ hlength

theorem searches_freeMillis {tries : Nat}
    (h : ∃ m, clock ≤ m ∧ m ≤ clock + tries ∧ libs.get? (pathAt m) = none) :
    Searches libs clock (freeMillis libs tries clock) := by
  obtain ⟨m, hle, hlast, hfree⟩ := h
  induction tries generalizing clock with
  | zero =>
      obtain rfl : m = clock := by omega
      exact .found hfree
  | succ tries ih =>
      rw [freeMillis]
      split
      · next htaken =>
        have hne : m ≠ clock := by
          rintro rfl
          rw [Dict.contains, hfree] at htaken
          cases htaken
        exact .onwards htaken (ih (by omega) (by omega))
      · next hclock => exact .found (by simpa [Dict.contains] using hclock)

theorem searches_freePath (libs : Dict Source) (clock : Nat) :
    ∃ millis, Searches libs clock millis ∧ millis ≤ clock + libs.size ∧
      freePath libs clock = pathAt millis := by
  obtain ⟨m, hle, hlast, hfree⟩ := exists_free libs clock
  have hsearch := searches_freeMillis ⟨m, hle, hlast, hfree⟩
  exact ⟨_, hsearch, Nat.le_trans (hsearch.isLeast.2 ⟨hle, hfree⟩) hlast, rfl⟩

theorem get?_freePath (libs : Dict Source) (clock : Nat) :
    libs.get? (freePath libs clock) = none := by
  obtain ⟨millis, hsearch, -, hpath⟩ := searches_freePath libs clock
  rw [hpath]
  exact hsearch.isLeast.1.2

theorem addLib_unnamed (s : Settings) (clock : Nat) (content : String) :
    ∃ h added, s.addLib clock content none = .ok (h, added) ∧
      h.path = freePath s.libs clock ∧
      ∀ p, added.libs.get? p = if p = h.path then some ⟨content, h.version⟩ else s.libs.get? p := by
  obtain ⟨p, rfl, htaken, -⟩ | ⟨p, rfl, -, hadd⟩ := addLib_cases s clock content none
  · rw [Option.getD_none, get?_freePath] at htaken
    cases htaken
  · exact ⟨_, _, hadd, rfl, fun p => Dict.get?_insert _ _ _ _⟩

/-- The files that stand after a change, as a plain list: one that is added is put in front, whatever
its path is. -/
def stand (s : Settings) (standing : List (String × Source)) : Change → List (String × Source)
  | .setCompiler _ | .setDiagnostics _ => standing
  | .addLib clock content path =>
    match s.addLib clock content path with
    | .ok (h, _) => (h.path, ⟨content, h.version⟩) :: standing
    | .error _ => standing
  | .setLibs libs => (s.setLibs libs).libs.entries
  | .dispose h => standing.filter fun e => !(e.1 = h.path ∧ e.2.version = h.version)

def standing (s : Settings) (files : List (String × Source)) : List Change → List (String × Source)
  | [] => files
  | c :: changes => (s.step c).standing (s.stand files c) changes

structure Apart (files : List (String × Source)) (s : Settings) : Prop where
  distinct : (files.map (·.1)).Nodup
  mem_iff : ∀ path lib, (path, lib) ∈ files ↔ s.libs.get? path = some lib

section step

variable {s : Settings} {files : List (String × Source)}

theorem Apart.not_mem (h : Apart files s) {path : String} (hfree : s.libs.get? path = none) :
    path ∉ files.map (·.1) := by
  intro hmem
  obtain ⟨⟨p, lib⟩, hfile, rfl⟩ := List.mem_map.1 hmem
  rw [h.mem_iff, hfree] at hfile
  cases hfile

theorem apart_entries (s : Settings) : Apart s.libs.entries s :=
  ⟨s.libs.distinct, s.libs.mem_entries_iff⟩

theorem Apart.addLib (h : Apart files s) (clock : Nat) (content : String) (path : Option String) :
    Apart (s.stand files (.addLib clock content path)) (s.step (.addLib clock content path)) := by
  obtain ⟨p, -, -, hadd⟩ | ⟨p, -, hfree, hadd⟩ := addLib_cases s clock content path
  · rw [stand, step, hadd]
    exact h
  · rw [stand, step, hadd]
    have habsent := h.not_mem hfree
    refine ⟨List.nodup_cons.2 ⟨habsent, h.distinct⟩, fun path lib => ?_⟩
    rw [List.mem_cons, h.mem_iff, Dict.get?_insert]
    by_cases hpath : path = p
    · simp [hpath, hfree, eq_comm]
    · simp [hpath]

theorem Apart.dispose (h : Apart files s) (handle : LibHandle) :
    Apart (s.stand files (.dispose handle)) (s.step (.dispose handle)) := by
  refine ⟨h.distinct.sublist (List.filter_sublist.map _), fun path lib => ?_⟩
  rw [stand, List.mem_filter, h.mem_iff]
  obtain ⟨⟨held, hheld, hversion⟩, hdispose⟩ | ⟨hgone, hdispose⟩ := dispose_cases s handle
  · rw [step, hdispose]
    change _ ↔ (s.libs.erase handle.path).get? path = some lib
    rw [Dict.get?_erase]
    by_cases hpath : path = handle.path
    · subst hpath
      simp only [hheld, Option.some.injEq, if_true, reduceCtorEq, iff_false]
      rintro ⟨rfl, hkept⟩
      simp [hversion] at hkept
    · simp [hpath]
  · rw [step, hdispose]
    refine and_iff_left_of_imp fun hlib => ?_
    have hother : ¬ (path = handle.path ∧ lib.version = handle.version) := by
      rintro ⟨rfl, hversion⟩
      exact hgone lib hlib hversion
    simpa only [Bool.not_eq_true', decide_eq_false_iff_not] using hother

theorem Apart.step (h : Apart files s) (c : Change) : Apart (s.stand files c) (s.step c) := by
  cases c with
  | setCompiler | setDiagnostics => exact ⟨h.distinct, h.mem_iff⟩
  | addLib clock content path => exact h.addLib clock content path
  | setLibs libs => exact apart_entries (s.setLibs libs)
  | dispose handle => exact h.dispose handle

theorem Apart.run (h : Apart files s) (changes : List Change) :
    Apart (s.standing files changes) (s.run changes) := by
  induction changes generalizing s files with
  | nil => exact h
  | cons c changes ih => exact ih (h.step c)

end step

/-- A search for a path ends, at the first millisecond from the clock on whose path is free. So a
file that comes without a path is always taken, and changes nothing under any other path; and no two
of the files that stand after a run are under the same path, however they came by it. -/
theorem paths_apart :
    (∀ (libs : Dict Source) (clock : Nat), ∃ millis, Searches libs clock millis ∧
      freePath libs clock = pathAt millis ∧
      IsLeast {m | clock ≤ m ∧ libs.get? (pathAt m) = none} millis ∧
      millis ≤ clock + libs.size) ∧
    (∀ (s : Settings) (clock : Nat) (content : String), ∃ h added,
      s.addLib clock content none = .ok (h, added) ∧ h.path = freePath s.libs clock ∧
      ∀ p, added.libs.get? p =
        if p = h.path then some ⟨content, h.version⟩ else s.libs.get? p) ∧
    ∀ (s : Settings) (changes : List Change),
      Apart (s.standing s.libs.entries changes) (s.run changes) := by
  refine ⟨?_, addLib_unnamed, fun s changes => (apart_entries s).run changes⟩
  intro libs clock
  obtain ⟨millis, hsearch, hlast, hpath⟩ := searches_freePath libs clock
  exact ⟨millis, hsearch, hpath, hsearch.isLeast, hlast⟩

/-- An explicit path that is spelled like a generated one is passed over. -/
example :
    let changes : List Change :=
      [.addLib 7 "a" none, .addLib 0 "b" (some "ts:extralib-8"), .addLib 7 "c" none]
    ((ofConfiguration {}).standing [] changes).map (·.1) =
      ["ts:extralib-9", "ts:extralib-8", "ts:extralib-7"] := by decide +kernel

end ScriptLens.Settings
