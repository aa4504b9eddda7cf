import ScriptLens.Proofs.Session.Consistency

namespace ScriptLens.Session

variable {parser : Parser} {op : Operation} {s s' : Session} {file : String}

def heldSource (s : Session) (file : String) : Option Entered :=
  s.running.bind (·.worker.catalog.buffers.get? file)

theorem heldSource_of_running {r : Running} (hr : s.running = some r) (file : String) :
    s.heldSource file = r.worker.catalog.buffers.get? file := by
  rw [heldSource, hr]
  rfl

theorem buffers_close (s : Session) (file : String) :
    (s.close parser file).2.buffers = s.buffers.erase file := by
  obtain ⟨hb, hs⟩ | ⟨b, -, ⟨r, -, -, hs⟩ | ⟨-, hs⟩⟩ := close_cases parser s file
  · rw [hs, Table.erase_of_get? hb]
  · rw [hs]
  · rw [hs]

theorem get?_close (s : Session) (file name : String) :
    (s.close parser file).2.buffers.get? name =
      if name = file then none else s.buffers.get? name := by
  rw [buffers_close, Table.get?_erase]

theorem running_close {r' : Running} (h : (s.close parser file).2.running = some r') :
    ∃ r, s.running = some r ∧ r'.worker.catalog.auxiliary = r.worker.catalog.auxiliary ∧
      r'.worker.diagnostics = r.worker.diagnostics := by
  obtain ⟨-, hs⟩ | ⟨b, -, ⟨r, hr, -, hs⟩ | ⟨-, hs⟩⟩ := close_cases parser s file
  · rw [hs] at h
    exact ⟨r', h, rfl, rfl⟩
  · rw [hs] at h
    cases h
    exact ⟨r, hr, rfl, rfl⟩
  · rw [hs] at h
    exact ⟨r', h, rfl, rfl⟩

theorem heldSource_close_of_ne (s : Session) {name : String} (hne : file ≠ name) :
    (s.close parser name).2.heldSource file = s.heldSource file := by
  obtain ⟨-, hs⟩ | ⟨b, -, ⟨r, hr, -, hs⟩ | ⟨-, hs⟩⟩ := close_cases parser s name
  · rw [hs]
  · rw [hs, heldSource_of_running hr]
    change (r.worker.catalog.buffers.erase name).get? file = _
    rw [Table.get?_erase, if_neg hne]
  · rw [hs]
    rfl

theorem heldSource_close {b : Buffer} (hb : s.buffers.get? file = some b) :
    (s.close parser file).2.heldSource file = if b.synced then none else s.heldSource file := by
  obtain ⟨hnone, -⟩ | ⟨b', hb', ⟨r, hr, hsynced, hs⟩ | ⟨hidle, hs⟩⟩ := close_cases parser s file
  · rw [hb] at hnone
    cases hnone
  · rw [hb] at hb'
    cases hb'
    rw [hs, if_pos hsynced]
    change (r.worker.catalog.buffers.erase file).get? file = _
    rw [Table.get?_erase, if_pos rfl]
  · rw [hb] at hb'
    cases hb'
    rw [hs]
    rcases hidle with hr | hsynced
    · simp [heldSource, hr]
    · simp [heldSource, hsynced]

theorem heldSource_settle (s : Session) (file : String) :
    (s.settle parser).2.heldSource file = s.heldSource file := by
  rw [settle_eq, heldSource]
  change (pushSettings parser s.settings s.ensureRunning.1).2.worker.catalog.buffers.get? file = _
  rw [pushSettings_buffers]
  cases hr : s.running with
  | none =>
      rw [ensureRunning, hr, heldSource, hr]
      rfl
  | some r =>
      rw [ensureRunning, hr, heldSource_of_running hr]

/-- As long as a file is not open, its worker neither gets nor loses it. -/
theorem Move.closed (hmove : Move parser op s s') (hop : ∀ version text, op ≠ .sync file version text)
    (hretire : op ≠ .retire) (hclosed : s.buffers.get? file = none) :
    s'.buffers.get? file = none ∧ s'.heldSource file = s.heldSource file := by
  cases hmove with
  | change | keep => exact ⟨hclosed, rfl⟩
  | retire hop' => exact absurd hop' hretire
  | enter name version text hop' =>
      have hne : file ≠ name := fun heq => hop version text (heq ▸ hop')
      refine ⟨?_, rfl⟩
      rw [get?_openBuffer, if_neg hne]
      exact hclosed
  | close name =>
      by_cases hne : file = name
      · subst hne
        obtain ⟨-, hs⟩ | ⟨b, hb, -⟩ := close_cases parser s file
        · rw [hs]
          exact ⟨hclosed, rfl⟩
        · rw [hb] at hclosed
          cases hclosed
      · rw [get?_close, if_neg hne, heldSource_close_of_ne s hne]
        exact ⟨hclosed, rfl⟩
  | settle =>
      refine ⟨?_, heldSource_settle s file⟩
      have hsource := congrArg (·.get? file) (@sources_settle parser s)
      simpa [hclosed] using hsource
  | push r name b catalog hr hb _ hsync =>
      have hne : file ≠ name := by
        rintro rfl
        rw [hb] at hclosed
        cases hclosed
      obtain ⟨-, -, rfl⟩ := Catalog.sync_eq_ok_iff.1 hsync
      constructor
      · rw [get?_pushed, if_neg hne]
        exact hclosed
      · rw [heldSource_of_running hr]
        change (r.worker.catalog.buffers.insert name _).get? file = _
        rw [Table.get?_insert, if_neg hne]
  | drop r name b e =>
      refine ⟨?_, rfl⟩
      change (s.buffers.erase name).get? file = none
      rw [Table.get?_erase, hclosed, ite_self]

theorem Moves.closed (hmoves : Moves parser op s s')
    (hop : ∀ version text, op ≠ .sync file version text) (hretire : op ≠ .retire)
    (hclosed : s.buffers.get? file = none) :
    s'.buffers.get? file = none ∧ s'.heldSource file = s.heldSource file := by
  refine hmoves.keep (P := fun s' => s'.buffers.get? file = none ∧
    s'.heldSource file = s.heldSource file) ?_ ⟨hclosed, rfl⟩
  rintro s₁ s₂ hmove ⟨hclosed₁, hheld₁⟩
  obtain ⟨hclosed₂, hheld₂⟩ := hmove.closed hop hretire hclosed₁
  exact ⟨hclosed₂, hheld₂.trans hheld₁⟩

theorem step_closed (hop : ∀ version text, op ≠ .sync file version text)
    (hclosed : s.buffers.get? file = none) :
    (s.step parser op).2.buffers.get? file = none ∧
    (s.step parser op).2.heldSource file = if op = .retire then none else s.heldSource file := by
  by_cases hretire : op = .retire
  · subst hretire
    exact ⟨hclosed, rfl⟩
  · rw [if_neg hretire]
    cases hchange : op.changesSettings with
    | true =>
        obtain ⟨settings, hs, -⟩ := @step_changesSettings parser op s hchange
        rw [hs]
        exact ⟨hclosed, rfl⟩
    | false =>
        exact (step_moves_of_same hchange s).closed hop hretire hclosed

theorem run_closed {ops : List Operation} (hops : ∀ version text, .sync file version text ∉ ops)
    (hclosed : s.buffers.get? file = none) :
    (s.run parser ops).buffers.get? file = none ∧
    (s.run parser ops).heldSource file = if .retire ∈ ops then none else s.heldSource file := by
  induction ops generalizing s with
  | nil => exact ⟨hclosed, rfl⟩
  | cons op ops ih =>
      have hop : ∀ version text, op ≠ .sync file version text := by
        rintro version text rfl
        exact hops version text List.mem_cons_self
      have hrest : ∀ version text, .sync file version text ∉ ops := by
        intro version text hmem
        exact hops version text (List.mem_cons_of_mem _ hmem)
      obtain ⟨hclosed', hheld⟩ := @step_closed parser op s file hop hclosed
      obtain ⟨hrun, hheld'⟩ := ih hrest hclosed'
      refine ⟨hrun, ?_⟩
      change ((s.step parser op).2.run parser ops).heldSource file = _
      rw [hheld', hheld]
      by_cases hmem : .retire ∈ ops
      · simp [hmem]
      · by_cases heq : op = .retire <;> simp [hmem, heq, eq_comm]

end ScriptLens.Session
