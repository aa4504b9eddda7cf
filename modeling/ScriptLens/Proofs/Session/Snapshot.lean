import ScriptLens.Proofs.Session.Order

namespace ScriptLens.Session

variable {parser : Parser} {s s' : Session} {r : Running}

def snapshot (s : Session) : Catalog where
  buffers := s.buffers.map Buffer.entered
  auxiliary := s.settings.libs.map .declaration
  options := s.settings.compiler

theorem libs_settle (hs : s.Consistent)
    (hlibs : ∀ r, s.running = some r → s.cacheRevision = s.settings.revision →
      r.worker.catalog.auxiliary = s.settings.libs.map .declaration)
    (h : s.settle parser = (.ok r, s')) :
    r.worker.catalog.auxiliary = s.settings.libs.map .declaration := by
  obtain ⟨hpush, -⟩ := settle_eq_ok h
  obtain ⟨hrev, heq⟩ | ⟨-, catalog, hset, heq⟩ | ⟨-, e, -, heq⟩ :=
    pushSettings_cases parser s.settings s.ensureRunning.1
  · rw [heq] at hpush
    cases hpush
    cases hr : s.running with
    | none =>
        rw [ensureRunning, hr] at hrev
        cases hrev
    | some r =>
        rw [ensureRunning, hr] at hrev ⊢
        rw [hs.sent r hr] at hrev
        exact hlibs r hr (Option.some.inj hrev)
  · rw [heq] at hpush
    cases hpush
    rw [(Catalog.setAuxiliary_eq_ok_iff.1 hset).2]
  · rw [heq] at hpush
    cases hpush

/-- A worker that is brought up to date has the snapshot, if it held the first of the open buffers,
and went with the declaration files as far as it had been sent them. -/
theorem catalog_prepare (hs : s.Consistent)
    (horder : ∀ r, s.running = some r → r.worker.catalog.buffers.keys <+: s.buffers.keys)
    (hlibs : ∀ r, s.running = some r → s.cacheRevision = s.settings.revision →
      r.worker.catalog.auxiliary = s.settings.libs.map .declaration)
    (h : s.prepare parser = (.ok r, s')) : r.worker.catalog = s.snapshot := by
  have hready := ready_of_prepare h
  have hbuffers := buffers_prepare hs horder h
  have hoptions : r.worker.catalog.options = s.settings.compiler := by
    rw [← hready.settings]
    apply (hs.prepare h).options r hready.running
    rw [hready.cacheRevision, hready.settings]
  obtain ⟨r₀, s₀, hsettle, hpush, -, -⟩ := prepare_eq_ok h
  have hauxiliary := (@pushBuffers_fixed parser (pending s₀.buffers) r₀.worker s₀.buffers).1
  rw [hpush, libs_settle hs hlibs hsettle] at hauxiliary
  obtain ⟨⟨⟨buffers, libs, options⟩, diagnostics⟩, revision⟩ := r
  cases hbuffers
  cases hauxiliary
  cases hoptions
  rfl

def validation (s : Session) : DiagnosticsOptions :=
  match s.running with
  | some r => r.worker.diagnostics
  | none => s.settings.diagnostics

theorem diagnostics_prepare (h : s.prepare parser = (.ok r, s')) :
    r.worker.diagnostics = s.validation := by
  obtain ⟨r₀, s₀, hsettle, hpush, -, -⟩ := prepare_eq_ok h
  obtain ⟨hsent, -⟩ := settle_eq_ok hsettle
  have hpushed := (@pushBuffers_fixed parser (pending s₀.buffers) r₀.worker s₀.buffers).2
  have hstarted := pushSettings_diagnostics parser s.settings s.ensureRunning.1
  rw [hpush] at hpushed
  rw [hsent] at hstarted
  rw [hpushed, hstarted]
  unfold ensureRunning validation
  cases s.running <;> rfl

/-- Buffers of different files are taken or not each on its own account. -/
theorem pushBuffers_of_free {names : List String} (hnames : names.Nodup) {w : Worker}
    {buffers : Table Buffer}
    (hfree : ∀ file ∈ names, file ∉ w.catalog.auxiliary.keys ∧ Catalog.isBuiltin file = false)
    (hnew : ∀ file ∈ names, w.catalog.buffers.get? file = none) :
    (pushBuffers parser names w buffers).1 = .ok () := by
  induction names generalizing w buffers with
  | nil => rfl
  | cons file rest ih =>
      obtain ⟨hfile, hrest⟩ := List.nodup_cons.1 hnames
      have hfree' := fun name hname => hfree name (List.mem_cons_of_mem file hname)
      have hnew' := fun name hname => hnew name (List.mem_cons_of_mem file hname)
      cases hb : buffers.get? file with
      | none =>
          rw [pushBuffers_absent hb]
          exact ih hrest hfree' hnew'
      | some b =>
          have hsync : w.catalog.sync file b.version b.text =
              .ok { w.catalog with buffers := w.catalog.buffers.insert file b.entered } := by
            refine Catalog.sync_eq_ok_iff.2 ⟨hfree file List.mem_cons_self, ?_, rfl⟩
            intro source hsource
            rw [hnew file List.mem_cons_self] at hsource
            cases hsource
          rw [pushBuffers_accepted hb hsync]
          refine ih hrest hfree' ?_
          intro name hname
          have hne : name ≠ file := fun heq => hfile (heq ▸ hname)
          rw [Table.get?_insert, if_neg hne]
          exact hnew' name hname

theorem settle_idle (hidle : s.running = none) (hlibs : ∀ file ∈ s.settings.libs.keys,
    Catalog.isBuiltin file = false) :
    ∃ r s', s.settle parser = (.ok r, s') ∧ r.worker.catalog.buffers = .empty ∧
      r.worker.catalog.auxiliary = s.settings.libs.map .declaration ∧
      s'.buffers.keys = s.buffers.keys := by
  have hset : ((Worker.start s.settings.toConfiguration).catalog.setOptions
      s.settings.compiler).setAuxiliary s.settings.libs =
      .ok { auxiliary := s.settings.libs.map .declaration, options := s.settings.compiler } :=
    Catalog.setAuxiliary_eq_ok_iff.2 ⟨fun file hfile => ⟨List.not_mem_nil, hlibs file hfile⟩, rfl⟩
  have hsources := congrArg Table.keys (@sources_settle parser s)
  rw [Table.keys_map, Table.keys_map] at hsources
  rw [settle_eq] at hsources ⊢
  obtain ⟨hrev, -⟩ | ⟨-, catalog, hset', heq⟩ | ⟨-, e, hset', -⟩ :=
    pushSettings_cases parser s.settings s.ensureRunning.1
  · rw [ensureRunning, hidle] at hrev
    cases hrev
  · rw [heq] at hsources ⊢
    rw [ensureRunning, hidle] at hset'
    cases hset.symm.trans hset'
    exact ⟨_, _, rfl, rfl, rfl, hsources⟩
  · rw [ensureRunning, hidle] at hset'
    cases hset.symm.trans hset'

/-- A new worker takes the snapshot if no name is in two sections of it, and only then. -/
theorem prepare_idle_iff (hs : s.Consistent) (hidle : s.running = none) :
    (∃ r s', s.prepare parser = (.ok r, s')) ↔ s.snapshot.Apart := by
  constructor
  · rintro ⟨r, s', h⟩
    have hcatalog : r.worker.catalog = s.snapshot := by
      apply catalog_prepare hs ?_ ?_ h
      · intro r hr
        rw [hidle] at hr
        cases hr
      · intro r hr
        rw [hidle] at hr
        cases hr
    rw [← hcatalog]
    exact (hs.prepare h).apart r (ready_of_prepare h).running
  · intro hapart
    have hlibs : ∀ file ∈ s.settings.libs.keys, Catalog.isBuiltin file = false := by
      intro file hfile
      apply hapart.auxiliary
      rw [snapshot, Dict.keys_map]
      exact hfile
    obtain ⟨r₀, s₀, hsettle, hnone, hauxiliary, hkeys⟩ :=
      @settle_idle parser s hidle hlibs
    have hpush : (pushBuffers parser (pending s₀.buffers) r₀.worker s₀.buffers).1 = .ok () := by
      apply pushBuffers_of_free (nodup_pending _)
      · intro file hfile
        rw [pending_eq, List.mem_filter, hkeys] at hfile
        rw [hauxiliary]
        apply hapart.buffers file
        rw [snapshot, Table.keys_map]
        exact hfile.1
      · intro file _
        rw [hnone]
        rfl
    rw [prepare, hsettle]
    simp only [hpush]
    exact ⟨_, _, rfl⟩

end ScriptLens.Session
