import Mathlib.Tactic.ByContra
import ScriptLens.Proofs.Worker.Dependence
import ScriptLens.Session.Basic

namespace ScriptLens

def Buffer.source (b : Buffer) : Source := ⟨b.text, b.version⟩

def Buffer.entered (b : Buffer) : Entered := .live b.source

theorem Table.map_entered (buffers : Table Buffer) :
    buffers.map Buffer.entered = (buffers.map Buffer.source).map .live := by
  apply Table.ext_get?
  · simp
  · intro file
    simp only [Table.get?_map, Option.map_map]
    rfl

namespace Session

variable {parser : Parser}

theorem pushSettings_cases (parser : Parser) (settings : Settings) (r : Running) :
    (r.revision = some settings.revision ∧ pushSettings parser settings r = (.ok (), r)) ∨
    (r.revision ≠ some settings.revision ∧ ∃ catalog,
      (r.worker.catalog.setOptions settings.compiler).setAuxiliary settings.libs = .ok catalog ∧
      pushSettings parser settings r =
        (.ok (), ⟨{ r.worker with catalog }, some settings.revision⟩)) ∨
    (r.revision ≠ some settings.revision ∧ ∃ e,
      (r.worker.catalog.setOptions settings.compiler).setAuxiliary settings.libs = .error e ∧
      pushSettings parser settings r = (.error (.worker e.message),
        ⟨{ r.worker with catalog := r.worker.catalog.setOptions settings.compiler },
          some settings.revision⟩)) := by
  by_cases hrev : r.revision = some settings.revision
  · exact .inl ⟨hrev, by rw [pushSettings, if_pos hrev]⟩
  · right
    rw [pushSettings, if_neg hrev]
    cases hlibs : (r.worker.catalog.setOptions settings.compiler).setAuxiliary settings.libs with
    | ok catalog => exact .inl ⟨hrev, catalog, rfl, by
        simp [Worker.respond, Worker.change, hlibs, answerOf, Except.map]⟩
    | error e => exact .inr ⟨hrev, e, rfl, by
        simp [Worker.respond, Worker.change, hlibs, answerOf, Except.map]⟩

@[simp] theorem settings_ensureRunning (s : Session) :
    s.ensureRunning.2.settings = s.settings := by
  unfold ensureRunning startWorker
  cases s.running <;> rfl

@[simp] theorem settings_refreshCache (s : Session) : s.refreshCache.settings = s.settings := by
  unfold refreshCache
  split <;> rfl

@[simp] theorem buffers_refreshCache (s : Session) : s.refreshCache.buffers = s.buffers := by
  unfold refreshCache
  split <;> rfl

@[simp] theorem cacheRevision_refreshCache (s : Session) :
    s.refreshCache.cacheRevision = s.settings.revision := by
  unfold refreshCache
  split
  · assumption
  · rfl

theorem settle_eq (s : Session) :
    s.settle parser =
      ((pushSettings parser s.settings s.ensureRunning.1).1.map
        fun _ => (pushSettings parser s.settings s.ensureRunning.1).2,
      { s.ensureRunning.2.refreshCache with
        running := some (pushSettings parser s.settings s.ensureRunning.1).2 }) := by
  simp [settle]

/-- The worker's stamp is that of the settings, however it took them. -/
theorem pushSettings_revision (parser : Parser) (settings : Settings) (r : Running) :
    (pushSettings parser settings r).2.revision = some settings.revision := by
  obtain ⟨hrev, h⟩ | ⟨-, _, -, h⟩ | ⟨-, _, -, h⟩ := pushSettings_cases parser settings r
  · rw [h, hrev]
  · rw [h]
  · rw [h]

section pushBuffers

variable {file : String} {rest : List String} {w : Worker} {buffers : Table Buffer} {b : Buffer}

theorem pushBuffers_absent (hb : buffers.get? file = none) :
    pushBuffers parser (file :: rest) w buffers = pushBuffers parser rest w buffers := by
  rw [pushBuffers, hb]

theorem pushBuffers_accepted {catalog : Catalog} (hb : buffers.get? file = some b)
    (hsync : w.catalog.sync file b.version b.text = .ok catalog) :
    pushBuffers parser (file :: rest) w buffers =
      pushBuffers parser rest { w with catalog }
        (buffers.insert file { b with synced := true }) := by
  simp [pushBuffers, hb, Worker.respond, Worker.change, hsync]

theorem pushBuffers_rejected {e : CatalogError} (hb : buffers.get? file = some b)
    (hsync : w.catalog.sync file b.version b.text = .error e) :
    pushBuffers parser (file :: rest) w buffers =
      (.error (.worker e.message), w, buffers.erase file) := by
  simp [pushBuffers, hb, Worker.respond, Worker.change, hsync]

end pushBuffers

theorem pushBuffers_ok {names : List String} {w w' : Worker} {buffers buffers' : Table Buffer}
    (h : pushBuffers parser names w buffers = (.ok (), w', buffers')) :
    buffers'.map Buffer.source = buffers.map Buffer.source ∧
    ∀ file b, buffers'.get? file = some b →
      b.synced = true ∨ (file ∉ names ∧ buffers.get? file = some b) := by
  induction names generalizing w buffers with
  | nil =>
      cases h
      exact ⟨rfl, fun file b hb => .inr ⟨List.not_mem_nil, hb⟩⟩
  | cons name rest ih =>
      cases hb : buffers.get? name with
      | none =>
          rw [pushBuffers_absent hb] at h
          obtain ⟨hsource, hsynced⟩ := ih h
          refine ⟨hsource, fun file b hfile => ?_⟩
          rcases hsynced file b hfile with hs | ⟨hrest, hget⟩
          · exact .inl hs
          · refine .inr ⟨?_, hget⟩
            rintro (_ | ⟨_, hmem⟩)
            · rw [hb] at hget
              cases hget
            · exact hrest hmem
      | some b =>
          cases hsync : w.catalog.sync name b.version b.text with
          | error e =>
              rw [pushBuffers_rejected hb hsync] at h
              cases h
          | ok catalog =>
              rw [pushBuffers_accepted hb hsync] at h
              obtain ⟨hsource, hsynced⟩ := ih h
              constructor
              · have hname : (buffers.map Buffer.source).get? name = some b.source := by
                  rw [Table.get?_map, hb, Option.map_some]
                rw [hsource, Table.map_insert]
                exact Table.insert_of_get? hname
              · intro file b' hfile
                rcases hsynced file b' hfile with hs | ⟨hrest, hget⟩
                · exact .inl hs
                · rw [Table.get?_insert] at hget
                  by_cases heq : file = name
                  · rw [if_pos heq] at hget
                    cases hget
                    exact .inl rfl
                  · rw [if_neg heq] at hget
                    exact .inr ⟨by simp [heq, hrest], hget⟩

theorem mem_pending_iff (buffers : Table Buffer) (file : String) :
    file ∈ pending buffers ↔ ∃ b, buffers.get? file = some b ∧ b.synced = false := by
  simp only [pending, List.mem_map, List.mem_filter, Bool.not_eq_true', Prod.exists]
  constructor
  · rintro ⟨name, b, ⟨hmem, hb⟩, rfl⟩
    exact ⟨b, (Table.mem_entries_iff _ _ _).1 hmem, hb⟩
  · rintro ⟨b, hget, hb⟩
    exact ⟨file, b, ⟨(Table.mem_entries_iff _ _ _).2 hget, hb⟩, rfl⟩

theorem nodup_pending (buffers : Table Buffer) : (pending buffers).Nodup :=
  buffers.distinct.sublist (List.filter_sublist.map _)

/-- If a buffer is rejected, it alone is dropped, and those that came before it are held. -/
theorem pushBuffers_eq_error {names : List String} (hnames : names.Nodup) {w w' : Worker}
    {buffers buffers' : Table Buffer} {e : SessionError}
    (h : pushBuffers parser names w buffers = (.error e, w', buffers')) :
    ∃ file b e', file ∈ names ∧ buffers.get? file = some b ∧
      w'.catalog.sync file b.version b.text = .error e' ∧ e = .worker e'.message ∧
      buffers'.map Buffer.source = (buffers.map Buffer.source).erase file ∧
      ∀ name b', buffers'.get? name = some b' → b'.synced = false →
        name ≠ file ∧ buffers.get? name = some b' := by
  induction names generalizing w buffers with
  | nil => cases h
  | cons name rest ih =>
      obtain ⟨hname, hrest⟩ := List.nodup_cons.1 hnames
      cases hb : buffers.get? name with
      | none =>
          rw [pushBuffers_absent hb] at h
          obtain ⟨file, b, e', hfile, hrejected⟩ := ih hrest h
          exact ⟨file, b, e', List.mem_cons_of_mem _ hfile, hrejected⟩
      | some b =>
          cases hsync : w.catalog.sync name b.version b.text with
          | error e' =>
              rw [pushBuffers_rejected hb hsync] at h
              cases h
              refine ⟨name, b, e', List.mem_cons_self, hb, hsync, rfl, Table.map_erase _ _ _, ?_⟩
              intro other b' hb' _
              exact Table.get?_of_erase hb'
          | ok catalog =>
              rw [pushBuffers_accepted hb hsync] at h
              obtain ⟨file, b', e', hfile, hb', hsync', he, hsources, hunsynced⟩ := ih hrest h
              have hne : file ≠ name := fun heq => hname (heq ▸ hfile)
              rw [Table.get?_insert, if_neg hne] at hb'
              refine ⟨file, b', e', List.mem_cons_of_mem _ hfile, hb', hsync', he, ?_, ?_⟩
              · have hsame : (buffers.map Buffer.source).get? name = some b.source := by
                  rw [Table.get?_map, hb, Option.map_some]
                rw [hsources, Table.map_insert]
                exact congrArg (Table.erase · file) (Table.insert_of_get? hsame)
              · intro other b'' hb'' hsynced
                obtain ⟨hother, hget⟩ := hunsynced other b'' hb'' hsynced
                rw [Table.get?_insert] at hget
                by_cases heq : other = name
                · rw [if_pos heq] at hget
                  cases hget
                  cases hsynced
                · rw [if_neg heq] at hget
                  exact ⟨hother, hget⟩

theorem settle_eq_ok {s s' : Session} {r : Running} (h : s.settle parser = (.ok r, s')) :
    pushSettings parser s.settings s.ensureRunning.1 = (.ok (), r) ∧
    s' = { s.ensureRunning.2.refreshCache with running := some r } := by
  rw [settle_eq] at h
  cases hpush : pushSettings parser s.settings s.ensureRunning.1 with
  | mk result r' =>
      cases result with
      | error e => simp [hpush, Except.map] at h
      | ok u =>
          simp only [hpush, Except.map, Prod.mk.injEq, Except.ok.injEq] at h
          obtain ⟨rfl, rfl⟩ := h
          exact ⟨rfl, rfl⟩

/-- A session whose worker is up to date, `s'`, against the one before, `s`. -/
structure Ready (s : Session) (r : Running) (s' : Session) : Prop where
  running : s'.running = some r
  revision : r.revision = some s.settings.revision
  settings : s'.settings = s.settings
  cacheRevision : s'.cacheRevision = s.settings.revision
  sources : s'.buffers.map Buffer.source = s.buffers.map Buffer.source
  synced : ∀ file b, s'.buffers.get? file = some b → b.synced = true

@[simp] theorem sources_ensureRunning (s : Session) :
    s.ensureRunning.2.buffers.map Buffer.source = s.buffers.map Buffer.source := by
  unfold ensureRunning
  cases s.running with
  | some r => rfl
  | none =>
      apply Table.ext_get?
      · simp [startWorker]
      · intro k
        cases hk : s.buffers.get? k <;> simp [startWorker, hk, Buffer.source]

theorem sources_settle (s : Session) :
    (s.settle parser).2.buffers.map Buffer.source = s.buffers.map Buffer.source := by
  simp [settle_eq]

theorem prepare_eq_ok {s s' : Session} {r : Running} (h : s.prepare parser = (.ok r, s')) :
    ∃ r₀ s₀, s.settle parser = (.ok r₀, s₀) ∧
      pushBuffers parser (pending s₀.buffers) r₀.worker s₀.buffers = (.ok (), r.worker, s'.buffers) ∧
      r = { r₀ with worker := r.worker } ∧
      s' = { s₀ with running := some r, buffers := s'.buffers } := by
  unfold prepare at h
  cases hsettle : s.settle parser with
  | mk result s₀ =>
      cases result with
      | error e => simp [hsettle] at h
      | ok r₀ =>
          simp only [hsettle] at h
          cases hpush : pushBuffers parser (pending s₀.buffers) r₀.worker s₀.buffers with
          | mk result rest =>
              obtain ⟨w, buffers⟩ := rest
              cases result with
              | error e => simp [hpush, Except.map] at h
              | ok u =>
                  simp only [hpush, Except.map, Prod.mk.injEq, Except.ok.injEq] at h
                  obtain ⟨rfl, rfl⟩ := h
                  exact ⟨r₀, s₀, rfl, hpush, rfl, rfl⟩

theorem ready_of_prepare {s s' : Session} {r : Running} (h : s.prepare parser = (.ok r, s')) :
    Ready s r s' := by
  obtain ⟨r₀, s₀, hsettle, hpush, hr, hs'⟩ := prepare_eq_ok h
  obtain ⟨hsent, hs₀⟩ := settle_eq_ok hsettle
  obtain ⟨hsources, hsynced⟩ := pushBuffers_ok hpush
  constructor
  · rw [hs']
  · have hstamp := pushSettings_revision parser s.settings s.ensureRunning.1
    rw [hsent] at hstamp
    rw [hr]
    exact hstamp
  · rw [hs', hs₀]
    simp
  · rw [hs', hs₀]
    simp
  · rw [hsources, hs₀]
    simp
  · intro file b hb
    rcases hsynced file b hb with hs | ⟨hrest, hget⟩
    · exact hs
    · by_contra hb'
      exact hrest ((mem_pending_iff _ _).2 ⟨b, hget, Bool.eq_false_iff.2 hb'⟩)

theorem settle_eq_error {s s' : Session} {e : SessionError}
    (h : s.settle parser = (.error e, s')) :
    s.ensureRunning.1.revision ≠ some s.settings.revision ∧ ∃ r e',
      (s.ensureRunning.1.worker.catalog.setOptions s.settings.compiler).setAuxiliary
        s.settings.libs = .error e' ∧
      r.worker.catalog = s.ensureRunning.1.worker.catalog.setOptions s.settings.compiler ∧
      r.revision = some s.settings.revision ∧ e = .worker e'.message ∧
      s' = { s.ensureRunning.2.refreshCache with running := some r } := by
  rw [settle_eq] at h
  obtain ⟨-, hsent⟩ | ⟨-, catalog, -, hsent⟩ | ⟨hrev, e', hset, hsent⟩ :=
    pushSettings_cases parser s.settings s.ensureRunning.1
  · rw [hsent] at h
    cases congrArg Prod.fst h
  · rw [hsent] at h
    cases congrArg Prod.fst h
  · rw [hsent] at h
    cases h
    exact ⟨hrev, _, e', hset, rfl, rfl, rfl, rfl⟩

theorem prepare_eq_error {s s' : Session} {e : SessionError}
    (h : s.prepare parser = (.error e, s')) :
    s.settle parser = (.error e, s') ∨ ∃ r₀ s₀ w buffers, s.settle parser = (.ok r₀, s₀) ∧
      pushBuffers parser (pending s₀.buffers) r₀.worker s₀.buffers = (.error e, w, buffers) ∧
      s' = { s₀ with running := some { r₀ with worker := w }, buffers } := by
  unfold prepare at h
  cases hsettle : s.settle parser with
  | mk result s₀ =>
      rw [hsettle] at h
      cases result with
      | error e' => exact .inl h
      | ok r₀ =>
          cases hpush : pushBuffers parser (pending s₀.buffers) r₀.worker s₀.buffers with
          | mk result rest =>
              obtain ⟨w, buffers⟩ := rest
              simp only [hpush] at h
              cases result with
              | ok u => cases congrArg Prod.fst h
              | error e' =>
                  cases h
                  exact .inr ⟨r₀, s₀, w, buffers, rfl, hpush, rfl⟩

theorem prepare_error {s s' : Session} {e : SessionError} (h : s.prepare parser = (.error e, s')) :
    ∃ m, e = .worker m := by
  obtain hsettle | ⟨r₀, s₀, w, buffers, -, hpush, -⟩ := prepare_eq_error h
  · obtain ⟨-, -, e', -, -, -, he, -⟩ := settle_eq_error hsettle
    exact ⟨e'.message, he⟩
  · obtain ⟨-, -, e', -, -, -, he, -⟩ := pushBuffers_eq_error (nodup_pending _) hpush
    exact ⟨e'.message, he⟩

theorem Ready.get? {s s' : Session} {r : Running} (hready : Ready s r s') {file : String} {b : Buffer}
    (hb : s.buffers.get? file = some b) :
    ∃ b', s'.buffers.get? file = some b' ∧ b'.source = b.source := by
  have hsource : (s'.buffers.get? file).map Buffer.source = some b.source := by
    rw [← Table.get?_map, hready.sources, Table.get?_map, hb, Option.map_some]
  exact Option.map_eq_some_iff.1 hsource

theorem Ready.self {s s' : Session} {r : Running} (h : Ready s r s') : Ready s' r s' := by
  refine ⟨h.running, ?_, rfl, ?_, rfl, h.synced⟩
  · rw [h.settings, h.revision]
  · rw [h.settings, h.cacheRevision]

theorem prepare_of_ready {s : Session} {r : Running} (h : Ready s r s) :
    s.prepare parser = (.ok r, s) := by
  have hensure : s.ensureRunning = (r, s) := by rw [ensureRunning, h.running]
  have hsettle : s.settle parser = (.ok r, s) := by
    rw [settle_eq, hensure, pushSettings, if_pos h.revision, refreshCache, if_pos h.cacheRevision]
    cases s
    cases h.running
    rfl
  have hpending : pending s.buffers = [] := by
    rw [List.eq_nil_iff_forall_not_mem]
    intro file hfile
    obtain ⟨b, hb, hsynced⟩ := (mem_pending_iff _ _).1 hfile
    rw [h.synced file b hb] at hsynced
    cases hsynced
  rw [prepare, hsettle]
  simp only [hpending, pushBuffers]
  cases s
  cases h.running
  rfl

/-- If all buffers have gone through before, nothing about them changes. -/
theorem Ready.buffers_eq {s s' : Session} {r : Running} (h : Ready s r s')
    (hsynced : ∀ file b, s.buffers.get? file = some b → b.synced = true) :
    s'.buffers = s.buffers := by
  have hkeys := congrArg Table.keys h.sources
  rw [Table.keys_map, Table.keys_map] at hkeys
  apply Table.ext_get? hkeys
  intro file
  cases hb : s.buffers.get? file with
  | none =>
      have habsent : file ∉ s'.buffers.keys := by
        rw [hkeys, Table.mem_keys_iff, hb]
        simp
      simpa [Table.mem_keys_iff] using habsent
  | some b =>
      obtain ⟨b', hb', hsource⟩ := h.get? hb
      have hb'synced := h.synced file b' hb'
      have hbsynced := hsynced file b hb
      rw [hb']
      cases b
      cases b'
      cases hsource
      cases hb'synced
      cases hbsynced
      rfl

theorem deliver_eq {s : Session} {r : Running} (hr : s.running = some r) {request : Request}
    (hread : (r.worker.respond parser request).2 = r.worker) :
    s.deliver parser r request = (answerOf (r.worker.respond parser request).1, s) := by
  cases s
  cases hr
  simp [deliver, hread]

theorem respond_question (w : Worker) (q : Question) (file : String) :
    (w.respond parser (q.request file)).2 = w := by
  cases q <;> rfl

theorem ask_of_ready {s s' : Session} {r : Running} (h : s.prepare parser = (.ok r, s'))
    {request : Request} (hread : (r.worker.respond parser request).2 = r.worker) :
    s.ask parser request = (answerOf (r.worker.respond parser request).1, s') := by
  rw [ask, h]
  exact deliver_eq (ready_of_prepare h).running hread

/-- Whatever is asked, the worker is brought up to date first, and then stays as it is. -/
theorem ask_snd (s : Session) {request : Request}
    (hread : ∀ w : Worker, (w.respond parser request).2 = w) :
    (s.ask parser request).2 = (s.prepare parser).2 := by
  cases h : s.prepare parser with
  | mk result s' =>
      cases result with
      | error e => rw [ask, h]
      | ok r => rw [ask_of_ready h (hread r.worker)]

theorem askCached_of_closed {s s' : Session} {r : Running} (h : s.prepare parser = (.ok r, s'))
    {file : String} (hb : s'.buffers.get? file = none) (q : Question) :
    s.askCached parser file q.query (q.request file) =
      (answerOf (r.worker.respond parser (q.request file)).1, s') := by
  simp only [askCached, h, hb]
  exact deliver_eq (ready_of_prepare h).running (respond_question r.worker q file)

theorem askCached_of_kept {s s' : Session} {r : Running} (h : s.prepare parser = (.ok r, s'))
    {file : String} {b : Buffer} (hb : s'.buffers.get? file = some b) {q : Question}
    {payload : Payload} (hkey : s'.cache.get? ⟨file, b.version, q.query⟩ = some payload) :
    s.askCached parser file q.query (q.request file) = (.ok payload, s') := by
  simp only [askCached, h, hb, hkey]

theorem askCached_of_new {s s' : Session} {r : Running} (h : s.prepare parser = (.ok r, s'))
    {file : String} {b : Buffer} (hb : s'.buffers.get? file = some b) {q : Question}
    (hkey : s'.cache.get? ⟨file, b.version, q.query⟩ = none) {payload : Payload}
    (hanswer : (r.worker.respond parser (q.request file)).1 = .ok payload) :
    s.askCached parser file q.query (q.request file) = (.ok payload,
      { s' with cache := s'.cache.insert ⟨file, b.version, q.query⟩ payload }) := by
  simp only [askCached, h, hb, hkey,
    deliver_eq (ready_of_prepare h).running (respond_question r.worker q file), hanswer, answerOf]

theorem respond_question_ok (w : Worker) (q : Question) (file : String) :
    ∃ payload, (w.respond parser (q.request file)).1 = .ok payload := by
  cases q <;> exact ⟨_, rfl⟩

theorem askCached_snd (s : Session) (file : String) (q : Question) :
    ∃ cache, (s.askCached parser file q.query (q.request file)).2 =
      { (s.prepare parser).2 with cache } := by
  cases h : s.prepare parser with
  | mk result s' =>
      cases result with
      | error e => exact ⟨s'.cache, by rw [askCached, h]⟩
      | ok r =>
          cases hb : s'.buffers.get? file with
          | none => exact ⟨s'.cache, by rw [askCached_of_closed h hb]⟩
          | some b =>
              cases hkey : s'.cache.get? ⟨file, b.version, q.query⟩ with
              | some payload => exact ⟨s'.cache, by rw [askCached_of_kept h hb hkey]⟩
              | none =>
                  obtain ⟨payload, hanswer⟩ := @respond_question_ok parser r.worker q file
                  exact ⟨_, by rw [askCached_of_new h hb hkey hanswer]⟩

/-- Where what is kept is what the worker would answer, a question gets the worker's answer. -/
theorem askCached_fst {s s' : Session} {r : Running} (h : s.prepare parser = (.ok r, s'))
    {file : String} {q : Question}
    (hkept : ∀ b payload, s'.buffers.get? file = some b →
      s'.cache.get? ⟨file, b.version, q.query⟩ = some payload →
      (r.worker.respond parser (q.request file)).1 = .ok payload) :
    (s.askCached parser file q.query (q.request file)).1 =
      answerOf (r.worker.respond parser (q.request file)).1 := by
  cases hb : s'.buffers.get? file with
  | none => rw [askCached_of_closed h hb]
  | some b =>
      cases hkey : s'.cache.get? ⟨file, b.version, q.query⟩ with
      | some payload =>
          rw [askCached_of_kept h hb hkey, hkept b payload hb hkey]
          rfl
      | none =>
          obtain ⟨payload, hanswer⟩ := @respond_question_ok parser r.worker q file
          rw [askCached_of_new h hb hkey hanswer, hanswer]
          rfl

theorem ask_eq_ok {s s' : Session} {request : Request}
    (hread : ∀ w : Worker, (w.respond parser request).2 = w) {payload : Payload}
    (h : s.ask parser request = (.ok payload, s')) :
    ∃ r, s.prepare parser = (.ok r, s') ∧
      answerOf (r.worker.respond parser request).1 = .ok payload := by
  cases hprepare : s.prepare parser with
  | mk result s'' =>
      cases result with
      | error e =>
          rw [ask, hprepare] at h
          cases h
      | ok r =>
          rw [ask_of_ready hprepare (hread r.worker), Prod.mk.injEq] at h
          obtain ⟨hanswer, rfl⟩ := h
          exact ⟨r, rfl, hanswer⟩

theorem prepare_of_askCached {s : Session} {file : String} {query : Query} {request : Request}
    {payload : Payload} (h : (s.askCached parser file query request).1 = .ok payload) :
    ∃ r s', s.prepare parser = (.ok r, s') := by
  cases hprepare : s.prepare parser with
  | mk result s' =>
      cases result with
      | error e =>
          rw [askCached, hprepare] at h
          cases h
      | ok r => exact ⟨r, s', rfl⟩

theorem partOf_eq_ok {α : Type} {method : String} {part? : Payload → Option α}
    {answer : Except SessionError Payload} {a : α} (h : partOf method part? answer = .ok a) :
    ∃ payload, answer = .ok payload ∧ part? payload = some a := by
  cases answer with
  | error e => cases h
  | ok payload =>
      refine ⟨payload, rfl, ?_⟩
      simp only [partOf] at h
      cases hpart : part? payload with
      | none => simp [hpart] at h
      | some a' =>
          simp only [hpart, Except.ok.injEq] at h
          rw [h]

theorem partOf_ask_eq_ok {s s' : Session} {α : Type} {method : String}
    {part? : Payload → Option α} {request : Request}
    (hread : ∀ w : Worker, (w.respond parser request).2 = w) {a : α}
    (h : (partOf method part? (s.ask parser request).1, (s.ask parser request).2) = (.ok a, s')) :
    ∃ r payload, s.prepare parser = (.ok r, s') ∧
      answerOf (r.worker.respond parser request).1 = .ok payload ∧ part? payload = some a := by
  rw [Prod.mk.injEq] at h
  obtain ⟨hanswer, rfl⟩ := h
  obtain ⟨payload, hask, hpart⟩ := partOf_eq_ok hanswer
  obtain ⟨r, hprepare, hrespond⟩ := ask_eq_ok hread (Prod.ext hask rfl)
  exact ⟨r, payload, hprepare, hrespond, hpart⟩

theorem files_of_prepare {s s' : Session} {r : Running} (h : s.prepare parser = (.ok r, s')) :
    s.files parser = (.ok r.worker.catalog.files, s') := by
  rw [files, ask_of_ready h rfl]
  rfl

theorem files_eq_ok {s s' : Session} {names : List String}
    (h : s.files parser = (.ok names, s')) :
    ∃ r, s.prepare parser = (.ok r, s') ∧ names = r.worker.catalog.files := by
  obtain ⟨r, payload, hprepare, ⟨⟩, ⟨⟩⟩ := partOf_ask_eq_ok (fun _ => rfl) h
  exact ⟨r, hprepare, rfl⟩

theorem version_eq_ok {s s' : Session} {file : String} {version : Option Version}
    (h : s.version parser file = (.ok version, s')) :
    ∃ r, s.prepare parser = (.ok r, s') ∧ version = r.worker.catalog.version? file := by
  obtain ⟨r, payload, hprepare, ⟨⟩, ⟨⟩⟩ := partOf_ask_eq_ok (fun _ => rfl) h
  exact ⟨r, hprepare, rfl⟩

theorem text_eq_ok {s s' : Session} {file : String} {text : Option String}
    (h : s.text parser file = (.ok text, s')) :
    ∃ r, s.prepare parser = (.ok r, s') ∧ text = r.worker.catalog.text? file := by
  obtain ⟨r, payload, hprepare, ⟨⟩, ⟨⟩⟩ := partOf_ask_eq_ok (fun _ => rfl) h
  exact ⟨r, hprepare, rfl⟩

end Session

end ScriptLens
