import ScriptLens.Proofs.Session.Moves

namespace ScriptLens.Session

variable {parser : Parser} {op : Operation} {s s' : Session}

structure Consistent (s : Session) : Prop where
  dated : s.cacheRevision ≤ s.settings.revision
  sent : ∀ r, s.running = some r → r.revision = some s.cacheRevision
  apart : ∀ r, s.running = some r → r.worker.catalog.Apart
  options : ∀ r, s.running = some r → s.cacheRevision = s.settings.revision →
    r.worker.catalog.options = s.settings.compiler
  held : ∀ r, s.running = some r → ∀ file b, s.buffers.get? file = some b → b.synced = true →
    r.worker.catalog.buffers.get? file = some b.entered

theorem consistent_start (config : Configuration) : (start config).Consistent := by
  refine ⟨UInt64.le_refl _, ?_, ?_, ?_, ?_⟩ <;> intro r hr <;> cases hr

theorem Consistent.change (h : s.Consistent) {settings : Settings}
    (hrev : s.settings.revision < settings.revision) : (s.withSettings settings).Consistent := by
  have hlt : s.cacheRevision < settings.revision := UInt64.lt_of_le_of_lt h.dated hrev
  refine ⟨UInt64.le_of_lt hlt, h.sent, h.apart, ?_, h.held⟩
  intro r _ heq
  change s.cacheRevision = settings.revision at heq
  exact absurd (heq ▸ hlt) (UInt64.lt_irrefl _)

theorem Consistent.retire (h : s.Consistent) : s.retire.Consistent := by
  refine ⟨h.dated, ?_, ?_, ?_, ?_⟩ <;> intro r hr <;> cases hr

theorem Consistent.enter (h : s.Consistent) (file : String) (version : Version) (text : String) :
    (s.openBuffer file version text).Consistent := by
  refine ⟨h.dated, h.sent, h.apart, h.options, ?_⟩
  intro r hr name b hb hsynced
  rw [get?_openBuffer] at hb
  by_cases hname : name = file
  · rw [if_pos hname] at hb
    cases hb
    cases hsynced
  · rw [if_neg hname] at hb
    exact h.held r hr name b hb hsynced

theorem Consistent.close (h : s.Consistent) (file : String) :
    (s.close parser file).2.Consistent := by
  obtain ⟨-, hs⟩ | ⟨b, -, ⟨r, hr, -, hs⟩ | ⟨-, hs⟩⟩ := close_cases parser s file
  · rw [hs]
    exact h
  · rw [hs]
    refine ⟨h.dated, ?_, ?_, ?_, ?_⟩
    · rintro _ ⟨⟩
      exact h.sent r hr
    · rintro _ ⟨⟩
      exact (h.apart r hr).close file
    · rintro _ ⟨⟩
      exact h.options r hr
    · rintro _ ⟨⟩ name b' hb' hsynced
      obtain ⟨hname, hget⟩ := Table.get?_of_erase hb'
      change (r.worker.catalog.buffers.erase file).get? name = _
      rw [Table.get?_erase, if_neg hname]
      exact h.held r hr name b' hget hsynced
  · rw [hs]
    refine ⟨h.dated, h.sent, h.apart, h.options, ?_⟩
    intro r hr name b' hb' hsynced
    exact h.held r hr name b' (Table.get?_of_erase hb').2 hsynced

section pushSettings

variable (parser : Parser) (settings : Settings) (r : Running)

theorem pushSettings_buffers :
    (pushSettings parser settings r).2.worker.catalog.buffers = r.worker.catalog.buffers := by
  obtain ⟨-, h⟩ | ⟨-, catalog, hlibs, h⟩ | ⟨-, e, -, h⟩ := pushSettings_cases parser settings r
  · rw [h]
  · rw [h, (Catalog.setAuxiliary_eq_ok_iff.1 hlibs).2]
    rfl
  · rw [h]
    rfl

theorem pushSettings_diagnostics :
    (pushSettings parser settings r).2.worker.diagnostics = r.worker.diagnostics := by
  obtain ⟨-, h⟩ | ⟨-, catalog, -, h⟩ | ⟨-, e, -, h⟩ := pushSettings_cases parser settings r <;> rw [h]

variable {parser settings r}

theorem pushSettings_apart (hr : r.worker.catalog.Apart) :
    (pushSettings parser settings r).2.worker.catalog.Apart := by
  obtain ⟨-, h⟩ | ⟨-, catalog, hlibs, h⟩ | ⟨-, e, -, h⟩ := pushSettings_cases parser settings r
  · rw [h]
    exact hr
  · rw [h]
    exact (hr.setOptions settings.compiler).setAuxiliary hlibs
  · rw [h]
    exact hr.setOptions settings.compiler

theorem pushSettings_options
    (hr : r.revision = some settings.revision → r.worker.catalog.options = settings.compiler) :
    (pushSettings parser settings r).2.worker.catalog.options = settings.compiler := by
  obtain ⟨hrev, h⟩ | ⟨-, catalog, hlibs, h⟩ | ⟨-, e, -, h⟩ := pushSettings_cases parser settings r
  · rw [h]
    exact hr hrev
  · rw [h, (Catalog.setAuxiliary_eq_ok_iff.1 hlibs).2]
    rfl
  · rw [h]
    rfl

end pushSettings

theorem Consistent.settle (h : s.Consistent) : (s.settle parser).2.Consistent := by
  rw [settle_eq]
  refine ⟨?_, ?_, ?_, ?_, ?_⟩
  · simp
  · rintro _ ⟨⟩
    simp [pushSettings_revision]
  · rintro _ ⟨⟩
    apply pushSettings_apart
    cases hr : s.running with
    | none =>
        rw [ensureRunning, hr]
        exact Catalog.apart_empty _
    | some r =>
        rw [ensureRunning, hr]
        exact h.apart r hr
  · rintro _ ⟨⟩ -
    simp only [settings_refreshCache, settings_ensureRunning]
    apply pushSettings_options
    cases hr : s.running with
    | none =>
        rw [ensureRunning, hr]
        intro hrev
        cases hrev
    | some r =>
        rw [ensureRunning, hr]
        intro hrev
        apply h.options r hr
        rw [h.sent r hr] at hrev
        exact Option.some.inj hrev
  · rintro _ ⟨⟩ file b hb hsynced
    simp only [buffers_refreshCache] at hb
    rw [pushSettings_buffers]
    cases hr : s.running with
    | none =>
        simp only [ensureRunning, hr, startWorker, Table.get?_map] at hb
        obtain ⟨b', -, rfl⟩ := Option.map_eq_some_iff.1 hb
        cases hsynced
    | some r =>
        rw [ensureRunning, hr] at hb ⊢
        exact h.held r hr file b hb hsynced

theorem Consistent.push (h : s.Consistent) {r : Running} (hr : s.running = some r) {file : String}
    {b : Buffer} {catalog : Catalog}
    (hsync : r.worker.catalog.sync file b.version b.text = .ok catalog) :
    (s.pushed r file b catalog).Consistent := by
  have hapart := (h.apart r hr).sync hsync
  obtain ⟨-, -, rfl⟩ := Catalog.sync_eq_ok_iff.1 hsync
  refine ⟨h.dated, ?_, ?_, ?_, ?_⟩
  · rintro _ ⟨⟩
    exact h.sent r hr
  · rintro _ ⟨⟩
    exact hapart
  · rintro _ ⟨⟩
    exact h.options r hr
  · rintro _ ⟨⟩ name b' hb' hsynced
    change (r.worker.catalog.buffers.insert file (.live ⟨b.text, b.version⟩)).get? name = _
    rw [get?_pushed] at hb'
    rw [Table.get?_insert]
    by_cases hname : name = file
    · rw [if_pos hname] at hb' ⊢
      cases hb'
      rfl
    · rw [if_neg hname] at hb' ⊢
      exact h.held r hr name b' hb' hsynced

theorem Consistent.move (h : s.Consistent) (hmove : Move parser op s s') : s'.Consistent := by
  cases hmove with
  | change settings _ hrev => exact h.change hrev
  | retire => exact h.retire
  | enter file version text => exact h.enter file version text
  | close file => exact h.close file
  | settle => exact h.settle
  | push r file b catalog hr _ _ hsync => exact h.push hr hsync
  | drop r file b e =>
      refine ⟨h.dated, h.sent, h.apart, h.options, ?_⟩
      intro r hr name b' hb' hsynced
      exact h.held r hr name b' (Table.get?_of_erase hb').2 hsynced
  | keep => exact ⟨h.dated, h.sent, h.apart, h.options, h.held⟩

theorem Consistent.run (h : s.Consistent) {ops : List Operation} (hroom : s.Room ops) :
    (s.run parser ops).Consistent :=
  run_induction (fun _ _ _ hmove h => h.move hmove) hroom h

theorem Consistent.prepare (hs : s.Consistent) {r : Running} (h : s.prepare parser = (.ok r, s')) :
    s'.Consistent :=
  (Moves.of_prepare .files h).keep (fun _ _ hmove h => h.move hmove) hs

theorem Consistent.holds (hs : s'.Consistent) {r : Running} (hready : Ready s r s') {file : String}
    {b : Buffer}
    (hb : s.buffers.get? file = some b) :
    r.worker.catalog.buffers.get? file = some b.entered := by
  obtain ⟨b', hb', hsource⟩ := hready.get? hb
  rw [hs.held r hready.running file b' hb' (hready.synced file b' hb'), Buffer.entered, hsource]
  rfl

end ScriptLens.Session
