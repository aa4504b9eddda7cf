import ScriptLens.Proofs.Session.Moves

namespace ScriptLens

namespace Settings

inductive Change where
  | setCompiler (options : CompilerOptions)
  | setDiagnostics (options : DiagnosticsOptions)
  | addLib (clock : Nat) (content : String) (path : Option String)
  | setLibs (libs : List (String × String))
  | dispose (h : LibHandle)
deriving DecidableEq

def step (s : Settings) : Change → Settings
  | .setCompiler options => s.setCompiler options
  | .setDiagnostics options => s.setDiagnostics options
  | .addLib clock content path =>
    match s.addLib clock content path with
    | .ok (_, added) => added
    | .error _ => s
  | .setLibs libs => s.setLibs libs
  | .dispose h => (s.dispose h).2

def run (s : Settings) (changes : List Change) : Settings :=
  changes.foldl step s

def handle? (s : Settings) : Change → Option LibHandle
  | .addLib clock content path => (s.addLib clock content path).toOption.map (·.1)
  | _ => none

def handles (s : Settings) : List Change → List LibHandle
  | [] => []
  | c :: changes => (s.handle? c).toList ++ (s.step c).handles changes

def takesEffect (s : Settings) : Change → Bool
  | .setCompiler _ | .setDiagnostics _ | .setLibs _ => true
  | .addLib clock content path => (s.addLib clock content path).toOption.isSome
  | .dispose h => (s.dispose h).1

def mutations (s : Settings) : List Change → Nat
  | [] => 0
  | c :: changes => (s.takesEffect c).toNat + (s.step c).mutations changes

variable {s : Settings} {c : Change} {changes more : List Change}

theorem addLib_cases (s : Settings) (clock : Nat) (content : String) (path : Option String) :
    (∃ p, path.getD (freePath s.libs clock) = p ∧ (s.libs.get? p).isSome ∧
      s.addLib clock content path = .error (.duplicateLib p)) ∨
    (∃ p, path.getD (freePath s.libs clock) = p ∧ s.libs.get? p = none ∧
      s.addLib clock content path = .ok (⟨p, ⟨s.revision + 1⟩⟩,
        { s.advance with libs := s.libs.insert p ⟨content, ⟨s.revision + 1⟩⟩ })) := by
  cases htaken : s.libs.contains (path.getD (freePath s.libs clock)) with
  | true => exact .inl ⟨_, rfl, htaken, by simp [addLib, htaken]⟩
  | false =>
      refine .inr ⟨_, rfl, ?_, ?_⟩
      · simpa [Dict.contains] using htaken
      · simp [addLib, htaken, advance]

theorem dispose_cases (s : Settings) (h : LibHandle) :
    ((∃ lib, s.libs.get? h.path = some lib ∧ lib.version = h.version) ∧
      s.dispose h = (true, { s with libs := s.libs.erase h.path }.advance)) ∨
    ((∀ lib, s.libs.get? h.path = some lib → lib.version ≠ h.version) ∧
      s.dispose h = (false, s)) := by
  cases hlib : (s.libs.get? h.path).any (·.version = h.version) with
  | true => exact .inl ⟨by simpa [Option.any_eq_true] using hlib, by simp [dispose, hlib]⟩
  | false => exact .inr ⟨by simpa [Option.any_eq_false] using hlib, by simp [dispose, hlib]⟩

theorem step_cases (s : Settings) (c : Change) :
    (s.takesEffect c = false ∧ s.step c = s) ∨
      (s.takesEffect c = true ∧ (s.step c).revision = s.revision + 1) := by
  cases c with
  | setCompiler | setDiagnostics | setLibs => exact .inr ⟨rfl, rfl⟩
  | addLib clock content path =>
      obtain ⟨p, -, -, hadd⟩ | ⟨p, -, -, hadd⟩ := addLib_cases s clock content path
      · exact .inl ⟨by simp [takesEffect, hadd, Except.toOption], by simp [step, hadd]⟩
      · exact .inr ⟨by simp [takesEffect, hadd, Except.toOption], by simp [step, hadd, advance]⟩
  | dispose h =>
      obtain ⟨-, hdispose⟩ | ⟨-, hdispose⟩ := dispose_cases s h
      · exact .inr ⟨by rw [takesEffect, hdispose], by rw [step, hdispose]; rfl⟩
      · exact .inl ⟨by rw [takesEffect, hdispose], by rw [step, hdispose]⟩

theorem revision_step (heffect : s.takesEffect c = true) :
    (s.step c).revision = s.revision + 1 := by
  obtain ⟨hidle, -⟩ | ⟨-, hrev⟩ := step_cases s c
  · rw [heffect] at hidle
    cases hidle
  · exact hrev

theorem version_of_get?_setLibs {libs : List (String × String)} {path : String} {lib : Source}
    (hlib : (s.setLibs libs).libs.get? path = some lib) : lib.version.value = s.revision + 1 := by
  have hmem := Dict.mem_of_get?_ofList hlib
  obtain ⟨⟨name, content⟩, -, heq⟩ := List.mem_map.1 hmem
  cases heq
  rfl

/-- The file under a path is of before, or dated by the change. -/
theorem get?_step {path : String} {lib : Source} (hlib : (s.step c).libs.get? path = some lib) :
    s.libs.get? path = some lib ∨ lib.version.value = s.revision + 1 := by
  cases c with
  | setCompiler | setDiagnostics => exact .inl hlib
  | setLibs libs => exact .inr (version_of_get?_setLibs hlib)
  | addLib clock content p =>
      obtain ⟨p, -, -, hadd⟩ | ⟨p, -, -, hadd⟩ := addLib_cases s clock content p
      · rw [step, hadd] at hlib
        exact .inl hlib
      · rw [step, hadd, Dict.get?_insert] at hlib
        split at hlib
        · cases hlib
          exact .inr rfl
        · exact .inl hlib
  | dispose h =>
      obtain ⟨-, hdispose⟩ | ⟨-, hdispose⟩ := dispose_cases s h
      · rw [step, hdispose] at hlib
        change (s.libs.erase h.path).get? path = some lib at hlib
        rw [Dict.get?_erase] at hlib
        split at hlib
        · cases hlib
        · exact .inl hlib
      · rw [step, hdispose] at hlib
        exact .inl hlib

theorem run_append (s : Settings) (changes more : List Change) :
    s.run (changes ++ more) = (s.run changes).run more :=
  List.foldl_append

theorem mutations_append (s : Settings) (changes more : List Change) :
    s.mutations (changes ++ more) = s.mutations changes + (s.run changes).mutations more := by
  induction changes generalizing s with
  | nil => exact (Nat.zero_add _).symm
  | cons c changes ih =>
      rw [List.cons_append, mutations, mutations, ih, Nat.add_assoc]
      rfl

def Room (s : Settings) (changes : List Change) : Prop :=
  s.revision.toNat + s.mutations changes < UInt64.size

theorem room_ofConfiguration (config : Configuration)
    (h : (ofConfiguration config).mutations changes < UInt64.size) :
    (ofConfiguration config).Room changes := by
  change 0 + (ofConfiguration config).mutations changes < UInt64.size
  rwa [Nat.zero_add]

theorem Room.left (h : s.Room (changes ++ more)) : s.Room changes := by
  unfold Room at *
  rw [mutations_append] at h
  omega

theorem toNat_revision_step (h : s.Room (c :: changes)) :
    (s.step c).revision.toNat = s.revision.toNat + (s.takesEffect c).toNat := by
  have hlt : s.revision.toNat + (s.takesEffect c).toNat < UInt64.size := by
    unfold Room mutations at h
    omega
  obtain ⟨heffect, hstep⟩ | ⟨heffect, hrev⟩ := step_cases s c
  · rw [heffect, hstep]
    rfl
  · rw [heffect] at hlt ⊢
    rw [hrev, UInt64.toNat_add]
    exact Nat.mod_eq_of_lt hlt

theorem Room.tail (h : s.Room (c :: changes)) : (s.step c).Room changes := by
  unfold Room
  rw [toNat_revision_step h, Nat.add_assoc]
  exact h

theorem toNat_revision_run (h : s.Room changes) :
    (s.run changes).revision.toNat = s.revision.toNat + s.mutations changes := by
  induction changes generalizing s with
  | nil => rfl
  | cons c changes ih =>
      rw [mutations, ← Nat.add_assoc, ← toNat_revision_step h]
      exact ih h.tail

theorem Room.run (h : s.Room (changes ++ more)) : (s.run changes).Room more := by
  have hrun := toNat_revision_run h.left
  unfold Room at *
  rw [mutations_append] at h
  omega

theorem run_induction {P : Settings → Prop} (h : s.Room changes)
    (hstep : ∀ c ∈ changes, ∀ s, Room s [c] → P s → P (s.step c)) (hs : P s) :
    P (s.run changes) := by
  induction changes generalizing s with
  | nil => exact hs
  | cons c changes ih =>
      have hone : s.Room ([c] ++ changes) := h
      have hnext := hstep c List.mem_cons_self s hone.left hs
      exact ih h.tail (fun c hc => hstep c (List.mem_cons_of_mem _ hc)) hnext

theorem version_of_handle? {h : LibHandle} (hh : s.handle? c = some h) :
    h.version.value = s.revision + 1 ∧ s.takesEffect c = true := by
  cases c with
  | addLib clock content path =>
      obtain ⟨p, -, -, hadd⟩ | ⟨p, -, -, hadd⟩ := addLib_cases s clock content path
      · simp [handle?, hadd, Except.toOption] at hh
      · rw [handle?, hadd] at hh
        cases hh
        exact ⟨rfl, by simp [takesEffect, hadd, Except.toOption]⟩
  | setCompiler | setDiagnostics | setLibs | dispose => cases hh

theorem version_of_mem_handles (hroom : s.Room changes) {h : LibHandle}
    (hh : h ∈ s.handles changes) :
    s.revision.toNat < h.version.value.toNat ∧
      h.version.value.toNat ≤ (s.run changes).revision.toNat := by
  induction changes generalizing s with
  | nil => cases hh
  | cons c changes ih =>
      have hstep := toNat_revision_step hroom
      have hrest := toNat_revision_run hroom.tail
      change (s.run (c :: changes)).revision.toNat = _ at hrest
      rcases List.mem_append.1 hh with hfirst | hlater
      · obtain ⟨hversion, heffect⟩ := version_of_handle? (Option.mem_toList.1 hfirst)
        rw [heffect] at hstep
        rw [hversion, ← revision_step heffect, hrest, hstep]
        exact ⟨Nat.lt_succ_self _, Nat.le_add_right _ _⟩
      · obtain ⟨hlt, hle⟩ := ih hroom.tail hlater
        exact ⟨by omega, hle⟩

end Settings

def Operation.change? : Operation → Option Settings.Change
  | .setCompiler options => some (.setCompiler options)
  | .setDiagnostics options => some (.setDiagnostics options)
  | .addLib clock content path => some (.addLib clock content path)
  | .setLibs libs => some (.setLibs libs)
  | .dispose h => some (.dispose h)
  | _ => none

namespace Session

variable {parser : Parser}

theorem settings_step (s : Session) (op : Operation) :
    (s.step parser op).2.settings = s.settings.run op.change?.toList := by
  cases op with
  | setCompiler | setDiagnostics | setLibs | dispose => rfl
  | addLib clock content path =>
      change _ = s.settings.step (.addLib clock content path)
      cases hadd : s.settings.addLib clock content path with
      | error e => simp only [step, Settings.step, hadd]
      | ok added =>
          simp only [step, Settings.step, hadd]
          rfl
  | sync | close | files | version | text | outline | references | diagnostics | retire =>
      exact (step_moves_of_same rfl s).settings_eq rfl

/-- The settings of a session go through the changes among its operations. -/
theorem settings_run (s : Session) (ops : List Operation) :
    (s.run parser ops).settings = s.settings.run (ops.flatMap (·.change?.toList)) := by
  induction ops generalizing s with
  | nil => rfl
  | cons op ops ih =>
      rw [List.flatMap_cons, Settings.run_append, ← @settings_step parser]
      exact ih _

end Session

end ScriptLens
