import ScriptLens.Proofs.Session.Kept
import ScriptLens.Proofs.Session.Plain
import ScriptLens.Proofs.Session.Snapshot

namespace ScriptLens

namespace PlainSession

def worker (p : PlainSession) : Worker :=
  { catalog := {
      buffers := p.buffers.map .live
      auxiliary := p.settings.libs.map .declaration
      options := p.settings.compiler }
    diagnostics := p.settings.diagnostics }

variable (parser : Parser) (p : PlainSession) (file : String)

theorem worker_entered? : (p.worker.catalog.entered? file).map (·.toSource) = p.source? file := by
  change (((p.buffers.map Entered.live).get? file).or
    ((p.settings.libs.map Entered.declaration).get? file)).map
    _ = (p.buffers.get? file).or (p.settings.libs.get? file)
  rw [Table.get?_map, Dict.get?_map]
  cases p.buffers.get? file with
  | some source => rfl
  | none => cases p.settings.libs.get? file <;> rfl

theorem worker_files : p.worker.catalog.files = p.files := by
  change (p.buffers.map Entered.live).keys ++ (p.settings.libs.map Entered.declaration).keys ++ _ = _
  rw [Table.keys_map, Dict.keys_map]
  rfl

theorem worker_version? : p.worker.catalog.version? file = p.version? file := by
  rw [Catalog.version?, version?, ← p.worker_entered? file]
  cases p.worker.catalog.entered? file with
  | none => rfl
  | some entered => rfl

theorem worker_text? : p.worker.catalog.text? file = p.text? file := by
  rw [Catalog.text?, text?, ← p.worker_entered? file]
  cases p.worker.catalog.entered? file with
  | none => rfl
  | some entered => rfl

theorem worker_parsed? : p.worker.parsed? parser file = p.tree? parser file := by
  rw [Worker.parsed?, tree?, worker_version?, worker_text?]
  rfl

theorem worker_outline : p.worker.outline parser file = p.outline parser file := by
  rw [Worker.outline, outline, worker_parsed?]
  cases p.tree? parser file <;> rfl

theorem worker_syntaxErrors : p.worker.syntaxErrors parser file = p.syntaxErrors parser file := by
  rw [Worker.syntaxErrors, syntaxErrors, worker_parsed?]
  change (if p.settings.diagnostics.noSyntaxValidation then _ else _) = _
  cases p.settings.diagnostics.noSyntaxValidation with
  | true => rfl
  | false => cases p.tree? parser file <;> rfl

/-- The declaration files are looked up by name, so no buffer may have the name of one. -/
theorem worker_constants (h : p.worker.catalog.Apart) (t : ParsedSource) :
    p.worker.constants parser t = p.constants parser t := by
  rw [Worker.constants, Worker.filterMap_parsed? h, constants]
  congr 2
  change (p.settings.libs.entries.map _).map _ = _
  rw [List.map_map]
  rfl

theorem worker_references (h : p.worker.catalog.Apart) (roots : List String) :
    p.worker.references parser file roots = p.references parser file roots := by
  rw [Worker.references, references, worker_parsed?]
  cases p.tree? parser file with
  | none => rfl
  | some t => simp only [worker_constants parser p h]

theorem respond_files : (p.worker.respond parser .listFiles).1 = .ok (.files p.files) := by
  rw [Worker.respond, worker_files]

theorem respond_version :
    (p.worker.respond parser (.version file)).1 = .ok (.version (p.version? file)) := by
  rw [Worker.respond, worker_version?]

theorem respond_text :
    (p.worker.respond parser (.text file)).1 = .ok (.text (p.text? file)) := by
  rw [Worker.respond, worker_text?]

theorem respond_outline :
    (p.worker.respond parser (.outline file)).1 = .ok (.outline (p.outline parser file)) := by
  rw [Worker.respond, worker_outline]

theorem respond_references (h : p.worker.catalog.Apart) (roots : List String) :
    (p.worker.respond parser (.references file roots)).1 =
      .ok (.references (p.references parser file roots)) := by
  rw [Worker.respond, worker_references parser p file h]

theorem respond_diagnostics :
    (p.worker.respond parser (.diagnostics file)).1 =
      .ok (.diagnostics (p.syntaxErrors parser file)) := by
  rw [Worker.respond, worker_syntaxErrors]

end PlainSession

namespace Session

variable {parser : Parser} {s s' : Session} {p : PlainSession}

/-- A plain session that answers as a session does. The worker has taken what it was sent, and holds
no file that is not open. -/
structure Agreed (parser : Parser) (s : Session) (p : PlainSession) : Prop where
  settings : s.settings = p.settings
  sources : s.buffers.map Buffer.source = p.buffers
  consistent : s.Consistent
  vouched : Vouched parser (fun _ _ => False) s
  libs : ∀ r, s.running = some r → s.cacheRevision = s.settings.revision →
    r.worker.catalog.auxiliary = s.settings.libs.map .declaration
  diagnostics : ∀ r, s.running = some r → r.worker.diagnostics = s.settings.diagnostics
  order : ∀ r, s.running = some r → r.worker.catalog.buffers.keys <+: s.buffers.keys

theorem agreed_start (config : Configuration) : Agreed parser (start config) (.start config) := by
  refine ⟨rfl, rfl, consistent_start config, vouched_start config, ?_, ?_, ?_⟩ <;> intro r hr <;>
    cases hr

theorem Agreed.validation_eq (h : Agreed parser s p) : s.validation = p.settings.diagnostics := by
  rw [validation, ← h.settings]
  cases hr : s.running with
  | none => rfl
  | some r => exact h.diagnostics r hr

theorem Agreed.worker_prepare (h : Agreed parser s p) {r : Running}
    (hprepare : s.prepare parser = (.ok r, s')) : r.worker = p.worker := by
  have hcatalog : r.worker.catalog = p.worker.catalog := by
    rw [catalog_prepare h.consistent h.order h.libs hprepare, snapshot, Table.map_entered, h.sources,
      h.settings]
    rfl
  have hdiagnostics : r.worker.diagnostics = p.worker.diagnostics := by
    rw [diagnostics_prepare hprepare, h.validation_eq]
    rfl
  obtain ⟨⟨catalog, diagnostics⟩, revision⟩ := r
  cases hcatalog
  cases hdiagnostics
  rfl

theorem Agreed.prepare (h : Agreed parser s p) {r : Running}
    (hprepare : s.prepare parser = (.ok r, s')) : Agreed parser s' p := by
  have hready := ready_of_prepare hprepare
  have hworker := h.worker_prepare hprepare
  obtain ⟨hs', hvouched⟩ :=
    (Moves.of_prepare .files hprepare).vouched h.consistent h.vouched (by simp)
  have hsettings : s'.settings = p.settings := hready.settings.trans h.settings
  refine ⟨hsettings, hready.sources.trans h.sources, hs', hvouched, ?_, ?_, ?_⟩
  · intro r' hr' _
    cases hready.running.symm.trans hr'
    rw [hworker, hsettings]
    rfl
  · intro r' hr'
    cases hready.running.symm.trans hr'
    rw [hworker, hsettings]
    rfl
  · intro r' hr'
    cases hready.running.symm.trans hr'
    have hkeys := keys_prepare h.consistent h.order hprepare
    exact hkeys ▸ List.prefix_rfl

theorem Agreed.change (h : Agreed parser s p) {settings : Settings}
    (hrev : s.settings.revision < settings.revision)
    (hdiagnostics : settings.diagnostics = s.settings.diagnostics) :
    Agreed parser (s.withSettings settings) (p.withSettings settings) := by
  refine ⟨rfl, h.sources, h.consistent.change hrev, .change h.consistent hrev, ?_, ?_, h.order⟩
  · intro r _ heq
    change s.cacheRevision = settings.revision at heq
    have hlt : s.cacheRevision < settings.revision :=
      UInt64.lt_of_le_of_lt h.consistent.dated hrev
    exact absurd (heq ▸ hlt) (UInt64.lt_irrefl _)
  · intro r hr
    exact (h.diagnostics r hr).trans hdiagnostics.symm

/-- The worker goes with the settings as it is, so its answers can outlive it. -/
theorem Agreed.not_differs (h : Agreed parser s p) (query : Query) : ¬ s.Differs query := by
  rintro ⟨r, hr, hrev, hdiffers⟩
  rw [h.consistent.sent r hr] at hrev
  cases query with
  | outline => exact hdiffers rfl
  | references roots => exact hdiffers (congrArg Basis.libs (h.libs r hr (Option.some.inj hrev)))
  | diagnostics => exact hdiffers (congrArg Basis.validation (h.diagnostics r hr))

theorem Agreed.retire (h : Agreed parser s p) : Agreed parser s.retire p := by
  refine ⟨h.settings, h.sources, h.consistent.retire, ?_, ?_, ?_, ?_⟩
  · refine (h.vouched.retire h.consistent).mono ?_
    rintro key payload (hfalse | ⟨-, hdiffers⟩)
    · exact hfalse
    · exact h.not_differs key.query hdiffers
  all_goals
    intro r hr
    cases hr

theorem Agreed.enter (h : Agreed parser s p) (file : String) (version : Version) (text : String) :
    Agreed parser (s.openBuffer file version text) (p.openBuffer file version text) := by
  refine ⟨h.settings, ?_, h.consistent.enter file version text, h.vouched.enter file version text,
    h.libs, h.diagnostics, ?_⟩
  · change (s.buffers.insert file _).map Buffer.source = p.buffers.insert file _
    rw [Table.map_insert, h.sources]
    rfl
  · intro r hr
    exact order_enter h.order file version text hr

theorem Agreed.close (h : Agreed parser s p) {file : String} (howed : ¬ s.Owed file) :
    Agreed parser (s.close parser file).2 { p with buffers := p.buffers.erase file } := by
  refine ⟨(settings_close s file).trans h.settings, ?_, h.consistent.close file,
    h.vouched.close file, ?_, ?_, ?_⟩
  · rw [buffers_close, Table.map_erase, h.sources]
  · intro r' hr' hrev
    obtain ⟨r, hr, haux, -⟩ := running_close hr'
    rw [cacheRevision_close, settings_close] at hrev
    rw [haux, settings_close]
    exact h.libs r hr hrev
  · intro r' hr'
    obtain ⟨r, hr, -, hdiagnostics⟩ := running_close hr'
    rw [hdiagnostics, settings_close]
    exact h.diagnostics r hr
  · intro r' hr'
    rw [buffers_close]
    exact order_close h.order howed hr'

theorem Agreed.close_fst (h : Agreed parser s p) (file : String) :
    (s.close parser file).1 = p.buffers.contains file := by
  rw [← h.sources, Table.contains, Table.get?_map, Option.isSome_map]
  obtain ⟨hb, hs⟩ | ⟨b, hb, ⟨r, -, -, hs⟩ | ⟨-, hs⟩⟩ := close_cases parser s file
  · rw [hs, hb]
    rfl
  · rw [hs, hb]
    rfl
  · rw [hs, hb]
    rfl

structure Answered (parser : Parser) (p : PlainSession) (request : Request)
    (asked : Except SessionError Payload × Session) : Prop where
  answer : asked.1 = answerOf (p.worker.respond parser request).1
  agreed : Agreed parser asked.2 p
  synced : ∀ file b, asked.2.buffers.get? file = some b → b.synced = true
  apart : p.worker.catalog.Apart

theorem Agreed.apart (h : Agreed parser s p) {r : Running}
    (hprepare : s.prepare parser = (.ok r, s')) : p.worker.catalog.Apart := by
  rw [← h.worker_prepare hprepare]
  exact (h.prepare hprepare).consistent.apart r (ready_of_prepare hprepare).running

theorem Agreed.ask (h : Agreed parser s p) {request : Request}
    (hread : ∀ w : Worker, (w.respond parser request).2 = w)
    (hworker : ∀ m, (s.ask parser request).1 ≠ .error (.worker m)) :
    Answered parser p request (s.ask parser request) := by
  cases hprepare : s.prepare parser with
  | mk result s' =>
      cases result with
      | error e =>
          obtain ⟨m, rfl⟩ := prepare_error hprepare
          rw [Session.ask, hprepare] at hworker
          exact absurd rfl (hworker m)
      | ok r =>
          rw [ask_of_ready hprepare (hread r.worker), h.worker_prepare hprepare]
          exact ⟨rfl, h.prepare hprepare, (ready_of_prepare hprepare).synced, h.apart hprepare⟩

/-- What is kept is what the worker would answer, so nothing tells whether it was asked. -/
theorem Agreed.respond_kept (h : Agreed parser s p) {r : Running}
    (hprepare : s.prepare parser = (.ok r, s')) {file : String} {b : Buffer} {q : Question}
    {payload : Payload} (hb : s'.buffers.get? file = some b)
    (hkey : s'.cache.get? ⟨file, b.version, q.query⟩ = some payload) :
    (r.worker.respond parser (q.request file)).1 = .ok payload := by
  have h' := h.prepare hprepare
  exact h'.vouched.respond_eq h'.consistent (ready_of_prepare hprepare) hb hkey id

theorem Agreed.keep (h : Agreed parser s p) {r : Running} (hr : s.running = some r) {file : String}
    {b : Buffer} {q : Question} {payload : Payload} (hb : s.buffers.get? file = some b)
    (hsynced : b.synced = true)
    (hpayload : (r.worker.respond parser (q.request file)).1 = .ok payload) :
    Agreed parser { s with cache := s.cache.insert ⟨file, b.version, q.query⟩ payload } p := by
  have hc := h.consistent
  exact ⟨h.settings, h.sources, ⟨hc.dated, hc.sent, hc.apart, hc.options, hc.held⟩,
    h.vouched.keep hc hr hb hsynced hpayload, h.libs, h.diagnostics, h.order⟩

theorem Agreed.askCached (h : Agreed parser s p) (file : String) (q : Question)
    (hworker : ∀ m, (s.askCached parser file q.query (q.request file)).1 ≠ .error (.worker m)) :
    Answered parser p (q.request file) (s.askCached parser file q.query (q.request file)) := by
  cases hprepare : s.prepare parser with
  | mk result s' =>
      cases result with
      | error e =>
          obtain ⟨m, rfl⟩ := prepare_error hprepare
          rw [Session.askCached, hprepare] at hworker
          exact absurd rfl (hworker m)
      | ok r =>
          have hready := ready_of_prepare hprepare
          have h' := h.prepare hprepare
          have hafter : Agreed parser (s.askCached parser file q.query (q.request file)).2 p ∧
              ∀ name b, (s.askCached parser file q.query (q.request file)).2.buffers.get? name =
                some b → b.synced = true := by
            cases hb : s'.buffers.get? file with
            | none =>
                rw [askCached_of_closed hprepare hb]
                exact ⟨h', hready.synced⟩
            | some b =>
                cases hkey : s'.cache.get? ⟨file, b.version, q.query⟩ with
                | some payload =>
                    rw [askCached_of_kept hprepare hb hkey]
                    exact ⟨h', hready.synced⟩
                | none =>
                    obtain ⟨payload, hanswer⟩ := @respond_question_ok parser r.worker q file
                    rw [askCached_of_new hprepare hb hkey hanswer]
                    have hsynced := hready.synced file b hb
                    exact ⟨h'.keep hready.running hb hsynced hanswer, hready.synced⟩
          refine ⟨?_, hafter.1, hafter.2, h.apart hprepare⟩
          rw [askCached_fst hprepare fun _ _ hb hkey => h.respond_kept hprepare hb hkey,
            h.worker_prepare hprepare]

end Session

end ScriptLens
