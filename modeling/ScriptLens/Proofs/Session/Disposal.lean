import ScriptLens.Proofs.Session.Changes

namespace ScriptLens.Settings

variable {s : Settings} {c : Change} {changes : List Change} {h : LibHandle}

def Change.ends (h : LibHandle) : Change → Bool
  | .setLibs _ => true
  | .dispose h' => h' = h
  | _ => false

structure Spent (h : LibHandle) (s : Settings) : Prop where
  past : h.version.value.toNat ≤ s.revision.toNat
  gone : ∀ lib, s.libs.get? h.path = some lib → lib.version ≠ h.version

theorem addLib_eq_ok {clock : Nat} {content : String} {path : Option String} {added : Settings}
    (hadd : s.addLib clock content path = .ok (h, added)) :
    h.version.value = added.revision ∧ added.libs.get? h.path = some ⟨content, h.version⟩ := by
  obtain ⟨p, -, -, hadd'⟩ | ⟨p, -, -, hadd'⟩ := addLib_cases s clock content path
  · rw [hadd'] at hadd
    cases hadd
  · rw [hadd'] at hadd
    cases hadd
    exact ⟨rfl, by simp⟩

theorem dispose_of_held {lib : Source} (hlib : s.libs.get? h.path = some lib)
    (hversion : lib.version = h.version) (hroom : s.Room [.dispose h]) :
    (s.dispose h).1 = true ∧
      (∀ p, (s.dispose h).2.libs.get? p = if p = h.path then none else s.libs.get? p) ∧
      s.revision < (s.dispose h).2.revision := by
  obtain ⟨-, hdispose⟩ | ⟨hgone, -⟩ := dispose_cases s h
  · have heffect : s.takesEffect (.dispose h) = true := by rw [takesEffect, hdispose]
    have hrev := toNat_revision_step hroom
    rw [heffect] at hrev
    refine ⟨heffect, ?_, ?_⟩
    · rw [hdispose]
      exact Dict.get?_erase s.libs h.path
    · rw [UInt64.lt_iff_toNat_lt]
      change s.revision.toNat < (s.step (.dispose h)).revision.toNat
      rw [hrev]
      exact Nat.lt_succ_self _
  · exact absurd hversion (hgone lib hlib)

theorem Spent.dispose_eq (hs : Spent h s) : s.dispose h = (false, s) := by
  obtain ⟨⟨lib, hlib, hversion⟩, -⟩ | ⟨-, hdispose⟩ := dispose_cases s h
  · exact absurd hversion (hs.gone lib hlib)
  · exact hdispose

theorem get?_step_of_stays {content : String}
    (hlib : s.libs.get? h.path = some ⟨content, h.version⟩) (hstays : c.ends h = false) :
    (s.step c).libs.get? h.path = some ⟨content, h.version⟩ := by
  cases c with
  | setCompiler | setDiagnostics => exact hlib
  | setLibs libs => cases hstays
  | addLib clock text path =>
      obtain ⟨p, -, -, hadd⟩ | ⟨p, -, hfree, hadd⟩ := addLib_cases s clock text path
      · rw [step, hadd]
        exact hlib
      · have hne : h.path ≠ p := by
          intro heq
          rw [← heq, hlib] at hfree
          cases hfree
        rw [step, hadd, Dict.get?_insert, if_neg hne]
        exact hlib
  | dispose h' =>
      have hother : h' ≠ h := of_decide_eq_false hstays
      obtain ⟨⟨lib, hlib', hversion⟩, hdispose⟩ | ⟨-, hdispose⟩ := dispose_cases s h'
      · -- a handle that finds its file under this path has the version of this one, and so is it
        have hne : h.path ≠ h'.path := by
          intro heq
          rw [← heq, hlib] at hlib'
          cases hlib'
          apply hother
          cases h
          cases h'
          cases heq
          cases hversion
          rfl
        rw [step, hdispose]
        change (s.libs.erase h'.path).get? h.path = _
        rw [Dict.get?_erase, if_neg hne]
        exact hlib
      · rw [step, hdispose]
        exact hlib

theorem ne_new_version (hpast : h.version.value.toNat ≤ s.revision.toNat) (hroom : s.Room [c])
    (heffect : s.takesEffect c = true) : h.version.value ≠ s.revision + 1 := by
  have hstep := toNat_revision_step hroom
  intro heq
  rw [heffect, revision_step heffect, ← heq] at hstep
  change h.version.value.toNat = s.revision.toNat + 1 at hstep
  omega

theorem past_step (hpast : h.version.value.toNat ≤ s.revision.toNat) (hroom : s.Room [c]) :
    h.version.value.toNat ≤ (s.step c).revision.toNat := by
  rw [toNat_revision_step hroom]
  exact Nat.le_add_right_of_le hpast

theorem Spent.step (hs : Spent h s) (hroom : s.Room [c]) : Spent h (s.step c) := by
  refine ⟨past_step hs.past hroom, ?_⟩
  intro lib hlib hversion
  obtain ⟨-, hsame⟩ | ⟨heffect, -⟩ := step_cases s c
  · rw [hsame] at hlib
    exact hs.gone lib hlib hversion
  · rcases get?_step hlib with hbefore | hnew
    · exact hs.gone lib hbefore hversion
    · rw [hversion] at hnew
      exact ne_new_version hs.past hroom heffect hnew

theorem spent_of_ends (hpast : h.version.value.toNat ≤ s.revision.toNat) (hroom : s.Room [c])
    (hends : c.ends h = true) : Spent h (s.step c) := by
  refine ⟨past_step hpast hroom, ?_⟩
  cases c with
  | setCompiler | setDiagnostics | addLib => cases hends
  | setLibs libs =>
      intro lib hlib hversion
      have hnew := version_of_get?_setLibs hlib
      rw [hversion] at hnew
      exact ne_new_version hpast hroom rfl hnew
  | dispose h' =>
      cases of_decide_eq_true hends
      obtain ⟨-, hdispose⟩ | ⟨hgone, hdispose⟩ := dispose_cases s h
      · rw [Settings.step, hdispose]
        change ∀ lib, (s.libs.erase h.path).get? h.path = some lib → _
        simp
      · rw [Settings.step, hdispose]
        exact hgone

theorem get?_run_of_stays {content : String}
    (hlib : s.libs.get? h.path = some ⟨content, h.version⟩)
    (hstays : ∀ c ∈ changes, c.ends h = false) :
    (s.run changes).libs.get? h.path = some ⟨content, h.version⟩ := by
  induction changes generalizing s with
  | nil => exact hlib
  | cons c changes ih =>
      apply ih (get?_step_of_stays hlib (hstays c List.mem_cons_self))
      intro d hd
      exact hstays d (List.mem_cons_of_mem _ hd)

theorem spent_run (hpast : h.version.value.toNat ≤ s.revision.toNat) (hroom : s.Room changes)
    (hends : ∃ c ∈ changes, c.ends h = true) : Spent h (s.run changes) := by
  obtain ⟨c, hc, hends⟩ := hends
  obtain ⟨before, after, rfl⟩ := List.append_of_mem hc
  have hpast' : h.version.value.toNat ≤ (s.run before).revision.toNat := by
    rw [toNat_revision_run hroom.left]
    exact Nat.le_add_right_of_le hpast
  have hrest : (s.run before).Room ([c] ++ after) := hroom.run
  rw [run_append]
  change Spent h (((s.run before).step c).run after)
  apply run_induction hrest.tail
  · intro d _ t hone ht
    exact ht.step hone
  · exact spent_of_ends hpast' hrest.left hends

section registration

variable {before after : List Change} {clock : Nat} {content : String} {path : Option String}
  {added : Settings}

theorem step_addLib (hadd : s.addLib clock content path = .ok (h, added)) :
    s.step (.addLib clock content path) = added := by
  rw [step, hadd]

theorem run_addLib (hadd : (s.run before).addLib clock content path = .ok (h, added))
    (after : List Change) :
    s.run (before ++ .addLib clock content path :: after) = added.run after := by
  rw [run_append, ← step_addLib hadd]
  rfl

theorem handle_unique (hroom : s.Room (before ++ .addLib clock content path :: after))
    (hadd : (s.run before).addLib clock content path = .ok (h, added)) :
    h ∉ s.handles before ∧ h ∉ added.handles after := by
  have hadding : (s.run before).Room ([.addLib clock content path] ++ after) := hroom.run
  constructor
  · -- handles of before are dated before the revision that this one takes
    intro hearlier
    have hgiven : h ∈ (s.run before).handles [.addLib clock content path] := by
      simp [handles, handle?, hadd, Except.toOption]
    have hle := (version_of_mem_handles hroom.left hearlier).2
    have hlt := (version_of_mem_handles hadding.left hgiven).1
    omega
  · intro hlater
    have hafter : added.Room after := step_addLib hadd ▸ hadding.tail
    have hlt := (version_of_mem_handles hafter hlater).1
    rw [(addLib_eq_ok hadd).1] at hlt
    exact Nat.lt_irrefl _ hlt

end registration

/-- Whatever else happens, a handle removes the file that it was given for and nothing but that
file, and it does so exactly if nothing has replaced or removed the file before. -/
theorem dispose_own_registration {config : Configuration} {before after : List Change}
    {clock : Nat} {content : String} {path : Option String} {h : LibHandle} {added : Settings}
    (hadd : ((ofConfiguration config).run before).addLib clock content path = .ok (h, added))
    (hbound : (ofConfiguration config).mutations
      (before ++ .addLib clock content path :: after ++ [.dispose h]) < UInt64.size) :
    let now := added.run after
    (h ∉ (ofConfiguration config).handles before ∧ h ∉ added.handles after) ∧
    ((now.dispose h).1 = true ↔ ∀ c ∈ after, c.ends h = false) ∧
    ((now.dispose h).1 = true →
      now.libs.get? h.path = some ⟨content, h.version⟩ ∧
      (∀ p, (now.dispose h).2.libs.get? p = if p = h.path then none else now.libs.get? p) ∧
      now.revision < (now.dispose h).2.revision) ∧
    ((now.dispose h).1 = false → (now.dispose h).2 = now) := by
  intro now
  have hroom := room_ofConfiguration config hbound
  obtain ⟨hdated, hlib⟩ := addLib_eq_ok hadd
  refine ⟨handle_unique hroom.left hadd, ?_⟩
  by_cases hstays : ∀ c ∈ after, c.ends h = false
  · have hlast : now.Room [.dispose h] := by
      have hrun := hroom.run
      rwa [run_addLib hadd] at hrun
    have hheld := get?_run_of_stays hlib hstays
    obtain ⟨htrue, hrest, hrev⟩ := dispose_of_held hheld rfl hlast
    refine ⟨⟨fun _ => hstays, fun _ => htrue⟩, fun _ => ⟨hheld, hrest, hrev⟩, ?_⟩
    intro hfalse
    cases htrue.symm.trans hfalse
  · -- the version is past from the change on that ended it, and no later file is given it
    have hends : ∃ c ∈ after, c.ends h = true := by simpa using hstays
    have hadding : ((ofConfiguration config).run before).Room
        (.addLib clock content path :: after) := hroom.left.run
    have hafter : added.Room after := step_addLib hadd ▸ hadding.tail
    have hpast : h.version.value.toNat ≤ added.revision.toNat := hdated ▸ Nat.le_refl _
    have hfalse : now.dispose h = (false, now) := (spent_run hpast hafter hends).dispose_eq
    rw [hfalse]
    refine ⟨⟨?_, fun hall => absurd hall hstays⟩, ?_, fun _ => rfl⟩
    · intro htrue
      cases htrue
    · intro htrue
      cases htrue

/-- The path is used again, before and after: the older handle does not remove the file, and the
handle does not remove the newer one. -/
theorem dispose_own_registration_reused :
    let before : List Change := [.addLib 0 "old" (some "lib.d.ts"), .setLibs []]
    let h : LibHandle := ⟨"lib.d.ts", ⟨3⟩⟩
    ∃ added,
      ((ofConfiguration {}).run before).addLib 1 "new" (some "lib.d.ts") = .ok (h, added) ∧
      ((added.run [.dispose ⟨"lib.d.ts", ⟨1⟩⟩]).dispose h).1 = true ∧
      let again := added.run [.setLibs [], .addLib 2 "newer" (some "lib.d.ts")]
      again.libs.get? h.path = some ⟨"newer", ⟨5⟩⟩ ∧ again.dispose h = (false, again) := by
  intro before h
  refine ⟨_, rfl, ?_, by decide, ?_⟩
  · have hkept := @dispose_own_registration {} before [.dispose ⟨"lib.d.ts", ⟨1⟩⟩] 1 "new"
      (some "lib.d.ts") h _ rfl (by decide)
    exact hkept.2.1.2 (by decide)
  · have hagain := @dispose_own_registration {} before
      [.setLibs [], .addLib 2 "newer" (some "lib.d.ts")] 1 "new" (some "lib.d.ts") h _ rfl
      (by decide)
    have hfalse := Bool.eq_false_iff.2 fun htrue => absurd (hagain.2.1.1 htrue) (by decide)
    exact Prod.ext hfalse (hagain.2.2.2 hfalse)

end ScriptLens.Settings
