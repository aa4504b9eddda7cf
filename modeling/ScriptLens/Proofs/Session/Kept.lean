import ScriptLens.Proofs.Session.Consistency

namespace ScriptLens

namespace Cache

theorem lookup_filter_by (p : CacheKey → Bool) (entries : List (CacheKey × Payload))
    (key : CacheKey) :
    (entries.filter fun e => p e.1).lookup key = if p key then entries.lookup key else none := by
  induction entries with
  | nil => simp
  | cons e rest ih =>
      obtain ⟨k, payload⟩ := e
      by_cases hk : key = k
      · subst hk
        cases hp : p key <;> simp [hp, ih]
      · have hbeq : (key == k) = false := beq_eq_false_iff_ne.2 hk
        cases hp : p k <;> simp [hp, ih, List.lookup_cons, hbeq]

theorem get?_of_forget {c : Cache} {file : String} {key : CacheKey} {payload : Payload}
    (h : (c.forget file).get? key = some payload) :
    key.file ≠ file ∧ c.get? key = some payload := by
  have hlookup := lookup_filter_by (fun k => decide (k.file ≠ file)) c.entries key
  rw [get?, forget, hlookup] at h
  by_cases hfile : key.file = file
  · simp [hfile] at h
  · exact ⟨hfile, by simpa [get?, hfile] using h⟩

theorem get?_of_insert {c : Cache} {key key' : CacheKey} {payload payload' : Payload}
    (h : (c.insert key payload).get? key' = some payload') :
    (key' = key ∧ payload' = payload) ∨ c.get? key' = some payload' := by
  by_cases hkey : key' = key
  · subst hkey
    left
    simpa [insert, get?, eq_comm] using h
  · right
    have hlookup := lookup_filter_by (fun k => decide (k ≠ key)) c.entries key'
    have hbeq : (key' == key) = false := beq_eq_false_iff_ne.2 hkey
    rw [get?, insert, List.lookup_cons, hbeq, hlookup] at h
    simpa [get?, hkey] using h

end Cache

def Settings.basis (settings : Settings) : Query → Basis
  | .outline => .tree
  | .references _ => .libs (settings.libs.map .declaration)
  | .diagnostics => .validation settings.diagnostics

namespace Session

variable {parser : Parser} {op : Operation} {s s' : Session}

/-- What an answer rests on if it is given now: a worker that is yet to be started will go with the
settings. -/
def basis (s : Session) (query : Query) : Basis :=
  match s.running with
  | some r => r.worker.basis query
  | none => s.settings.basis query

theorem basis_of_running {r : Running} (hr : s.running = some r) (query : Query) :
    s.basis query = r.worker.basis query := by
  rw [basis, hr]

structure Maker (parser : Parser) (settings : Settings) (source : Source) (key : CacheKey)
    (payload : Payload) (w : Worker) : Prop where
  apart : w.catalog.Apart
  options : w.catalog.options = settings.compiler
  holds : w.catalog.buffers.get? key.file = some (.live source)
  version : key.version = source.version
  answer : ∃ q : Question, q.query = key.query ∧
    (w.respond parser (q.request key.file)).1 = .ok payload

/-- Each answer that may be given again was made by a worker that agrees with the session on what
the answer rests on, but for those that are `excused`. -/
def Vouched (parser : Parser) (excused : CacheKey → Payload → Prop) (s : Session) : Prop :=
  s.cacheRevision = s.settings.revision → ∀ key payload b,
    s.cache.get? key = some payload → s.buffers.get? key.file = some b →
      ∃ w, Maker parser s.settings b.source key payload w ∧
        (excused key payload ∨ w.basis key.query = s.basis key.query)

variable {excused : CacheKey → Payload → Prop}

theorem vouched_start (config : Configuration) : Vouched parser excused (start config) := by
  intro _ key payload b hkey
  cases hkey

theorem Vouched.change (h : s.Consistent) {settings : Settings}
    (hrev : s.settings.revision < settings.revision) :
    Vouched parser excused (s.withSettings settings) := by
  intro heq
  change s.cacheRevision = settings.revision at heq
  have hlt : s.cacheRevision < settings.revision := UInt64.lt_of_le_of_lt h.dated hrev
  exact absurd (heq ▸ hlt) (UInt64.lt_irrefl _)

/-- The worker that is running has taken the settings as they are now, but does not go with them. -/
def Differs (s : Session) (query : Query) : Prop :=
  ∃ r, s.running = some r ∧ r.revision = some s.settings.revision ∧
    r.worker.basis query ≠ s.settings.basis query

/-- Where a worker is retired that does not go with the settings, the answers kept until then are no
longer those that the next one will give. -/
theorem Vouched.retire (hs : s.Consistent) (h : Vouched parser excused s) :
    Vouched parser (fun key payload => excused key payload ∨
      (s.cache.get? key = some payload ∧ s.Differs key.query)) s.retire := by
  intro heq key payload b hkey hb
  obtain ⟨w, hmaker, hbasis⟩ := h heq key payload b hkey hb
  refine ⟨w, hmaker, ?_⟩
  rcases hbasis with hexcused | hbasis
  · exact .inl (.inl hexcused)
  · cases hr : s.running with
    | none =>
        right
        rw [hbasis, basis, hr]
        rfl
    | some r =>
        by_cases hdiffers : r.worker.basis key.query = s.settings.basis key.query
        · right
          rw [hbasis, basis_of_running hr]
          exact hdiffers
        · have heq' : s.cacheRevision = s.settings.revision := heq
          exact .inl (.inr ⟨hkey, r, hr, heq' ▸ hs.sent r hr, hdiffers⟩)

theorem Vouched.mono {excused' : CacheKey → Payload → Prop} (h : Vouched parser excused s)
    (hmono : ∀ key payload, excused key payload → excused' key payload) :
    Vouched parser excused' s := by
  intro heq key payload b hkey hb
  obtain ⟨w, hmaker, hbasis⟩ := h heq key payload b hkey hb
  exact ⟨w, hmaker, hbasis.imp_left (hmono key payload)⟩

theorem Vouched.enter (h : Vouched parser excused s) (file : String) (version : Version)
    (text : String) : Vouched parser excused (s.openBuffer file version text) := by
  intro heq key payload b hkey hb
  obtain ⟨hfile, hkey'⟩ := Cache.get?_of_forget hkey
  rw [get?_openBuffer, if_neg hfile] at hb
  exact h heq key payload b hkey' hb

theorem basis_close (s : Session) (file : String) (query : Query) :
    (s.close parser file).2.basis query = s.basis query := by
  obtain ⟨-, hs⟩ | ⟨b, -, ⟨r, hr, -, hs⟩ | ⟨-, hs⟩⟩ := close_cases parser s file
  · rw [hs]
  · rw [hs, basis_of_running hr]
    cases query <;> rfl
  · rw [hs]
    rfl

theorem Vouched.close (h : Vouched parser excused s) (file : String) :
    Vouched parser excused (s.close parser file).2 := by
  intro heq key payload b hkey hb
  rw [settings_close, basis_close]
  obtain ⟨-, hs⟩ | ⟨b', -, ⟨r, hr, -, hs⟩ | ⟨-, hs⟩⟩ := close_cases parser s file
  · rw [hs] at heq hkey hb
    exact h heq key payload b hkey hb
  · rw [hs] at heq hkey hb
    exact h heq key payload b (Cache.get?_of_forget hkey).2 (Table.get?_of_erase hb).2
  · rw [hs] at heq hkey hb
    exact h heq key payload b (Cache.get?_of_forget hkey).2 (Table.get?_of_erase hb).2

/-- A new worker goes with the settings, as far as a worker before it did. -/
theorem pushSettings_basis_start {settings : Settings} {w : Worker} (hw : w.catalog.Apart)
    {query : Query} (hbasis : w.basis query = settings.basis query) :
    (pushSettings parser settings ⟨.start settings.toConfiguration, none⟩).2.worker.basis query =
      settings.basis query := by
  cases query with
  | outline => rfl
  | diagnostics =>
      simp only [Worker.basis, pushSettings_diagnostics]
      rfl
  | references roots =>
      have hlibs : w.catalog.auxiliary = settings.libs.map .declaration := Basis.libs.inj hbasis
      obtain ⟨hrev, -⟩ | ⟨-, catalog, hset, hs⟩ | ⟨-, e, hset, -⟩ :=
        pushSettings_cases parser settings ⟨.start settings.toConfiguration, none⟩
      · cases hrev
      · rw [hs, (Catalog.setAuxiliary_eq_ok_iff.1 hset).2]
        rfl
      · have hfree : ∀ file ∈ settings.libs.keys,
            file ∉ (Table.empty : Table Entered).keys ∧ Catalog.isBuiltin file = false := by
          intro file hfile
          refine ⟨List.not_mem_nil, hw.auxiliary file ?_⟩
          rw [hlibs, Dict.keys_map]
          exact hfile
        rw [Catalog.setAuxiliary_eq_ok_iff.2 ⟨hfree, rfl⟩] at hset
        cases hset

theorem get?_refreshCache {key : CacheKey} {payload : Payload}
    (h : s.refreshCache.cache.get? key = some payload) :
    s.cacheRevision = s.settings.revision ∧ s.cache.get? key = some payload := by
  unfold refreshCache at h
  split at h
  · next heq => exact ⟨heq, h⟩
  · cases h

theorem Vouched.settle (hs : s.Consistent) (h : Vouched parser excused s) :
    Vouched parser excused (s.settle parser).2 := by
  rw [settle_eq]
  intro _ key payload b hkey hb
  obtain ⟨heq, hkey'⟩ := get?_refreshCache hkey
  simp only [buffers_refreshCache] at hb
  simp only [settings_refreshCache, settings_ensureRunning]
  cases hr : s.running with
  | none =>
      simp only [ensureRunning, hr, startWorker, Table.get?_map] at heq hkey' hb ⊢
      obtain ⟨b', hb', rfl⟩ := Option.map_eq_some_iff.1 hb
      -- until now the answer was held against the settings, from now on against the new worker
      obtain ⟨w, hmaker, hbasis⟩ := h heq key payload b' hkey' hb'
      refine ⟨w, hmaker, hbasis.imp_right ?_⟩
      intro hw
      rw [basis, hr] at hw
      rw [hw]
      exact (pushSettings_basis_start hmaker.apart hw).symm
  | some r =>
      simp only [ensureRunning, hr] at heq hkey' hb ⊢
      obtain ⟨w, hmaker, hbasis⟩ := h heq key payload b hkey' hb
      refine ⟨w, hmaker, hbasis.imp_right ?_⟩
      intro hw
      have hrev : r.revision = some s.settings.revision := heq ▸ hs.sent r hr
      rw [hw, basis_of_running hr, pushSettings, if_pos hrev]
      rfl

theorem Vouched.push (h : Vouched parser excused s) {r : Running} (hr : s.running = some r)
    {file : String} {b : Buffer} {catalog : Catalog} (hb : s.buffers.get? file = some b)
    (hsync : r.worker.catalog.sync file b.version b.text = .ok catalog) :
    Vouched parser excused (s.pushed r file b catalog) := by
  obtain ⟨-, -, rfl⟩ := Catalog.sync_eq_ok_iff.1 hsync
  intro heq key payload b' hkey hb'
  have hold : ∃ b₀, s.buffers.get? key.file = some b₀ ∧ b₀.source = b'.source := by
    rw [get?_pushed] at hb'
    by_cases hfile : key.file = file
    · rw [if_pos hfile] at hb'
      cases hb'
      exact ⟨b, hfile ▸ hb, rfl⟩
    · rw [if_neg hfile] at hb'
      exact ⟨b', hb', rfl⟩
  obtain ⟨b₀, hb₀, hsource⟩ := hold
  obtain ⟨w, hmaker, hbasis⟩ := h heq key payload b₀ hkey hb₀
  refine ⟨w, hsource ▸ hmaker, hbasis.imp_right ?_⟩
  intro hw
  rw [hw, basis_of_running hr]
  cases key.query <;> rfl

theorem Vouched.keep (hs : s.Consistent) (h : Vouched parser excused s) {r : Running}
    (hr : s.running = some r) {file : String} {b : Buffer} {q : Question} {payload : Payload}
    (hb : s.buffers.get? file = some b) (hsynced : b.synced = true)
    (hpayload : (r.worker.respond parser (q.request file)).1 = .ok payload) :
    Vouched parser excused
      { s with cache := s.cache.insert ⟨file, b.version, q.query⟩ payload } := by
  intro heq key payload' b' hkey hb'
  rcases Cache.get?_of_insert hkey with ⟨rfl, rfl⟩ | hkey'
  · have hbb : b' = b := Option.some.inj (hb'.symm.trans hb)
    subst hbb
    refine ⟨r.worker, ?_, .inr (basis_of_running hr q.query).symm⟩
    exact ⟨hs.apart r hr, hs.options r hr heq, hs.held r hr file b' hb hsynced, rfl, q, rfl, hpayload⟩
  · exact h heq key payload' b' hkey' hb'

/-- Only the retirement of a worker can part an answer from the worker that would give it again. -/
theorem Vouched.move (hs : s.Consistent) (h : Vouched parser excused s) (hop : op ≠ .retire)
    (hmove : Move parser op s s') : Vouched parser excused s' := by
  cases hmove with
  | change settings _ hrev => exact .change hs hrev
  | retire hretire => exact absurd hretire hop
  | enter file version text => exact h.enter file version text
  | close file => exact h.close file
  | settle => exact h.settle hs
  | push r file b catalog hr hb _ hsync => exact h.push hr hb hsync
  | drop r file b e =>
      intro heq key payload b' hkey hb'
      exact h heq key payload b' hkey (Table.get?_of_erase hb').2
  | keep r file b q payload hr _ hb hsynced hpayload => exact h.keep hs hr hb hsynced hpayload

theorem Moves.vouched (hs : s.Consistent) (h : Vouched parser excused s) (hop : op ≠ .retire)
    (hmoves : Moves parser op s s') : s'.Consistent ∧ Vouched parser excused s' := by
  refine hmoves.keep (P := fun s => s.Consistent ∧ Vouched parser excused s) ?_ ⟨hs, h⟩
  intro s s' hmove h
  exact ⟨h.1.move hmove, h.2.move h.1 hop hmove⟩

/-- A kept answer is the one that the worker which is up to date would give, if its maker agrees
with that worker on what the answer rests on. -/
theorem Maker.respond_eq {r : Running} (hs : s'.Consistent) (hready : Ready s r s') {file : String}
    {b : Buffer} (hb : s'.buffers.get? file = some b) {q : Question} {payload : Payload} {w : Worker}
    (hmaker : Maker parser s'.settings b.source ⟨file, b.version, q.query⟩ payload w)
    (hbasis : w.basis q.query = r.worker.basis q.query) :
    (r.worker.respond parser (q.request file)).1 = .ok payload := by
  obtain ⟨q', hquery, hanswer⟩ := hmaker.answer
  have hoptions : w.catalog.options = r.worker.catalog.options := by
    rw [hmaker.options, hs.options r hready.running]
    rw [hready.cacheRevision, hready.settings]
  have hheld := hs.held r hready.running file b hb (hready.synced file b hb)
  rw [← hanswer]
  refine (Worker.respond_congr hmaker.apart (hs.apart r hready.running) hoptions hmaker.holds hheld
    hquery ?_).symm
  rw [hquery]
  exact hbasis

theorem Vouched.respond_eq {r : Running} (h : Vouched parser excused s') (hs : s'.Consistent)
    (hready : Ready s r s') {file : String} {b : Buffer} (hb : s'.buffers.get? file = some b)
    {q : Question} {payload : Payload}
    (hkey : s'.cache.get? ⟨file, b.version, q.query⟩ = some payload)
    (hnot : ¬ excused ⟨file, b.version, q.query⟩ payload) :
    (r.worker.respond parser (q.request file)).1 = .ok payload := by
  have hrev : s'.cacheRevision = s'.settings.revision := by
    rw [hready.cacheRevision, hready.settings]
  obtain ⟨w, hmaker, hbasis⟩ := h hrev _ payload b hkey hb
  rw [basis_of_running hready.running] at hbasis
  exact hmaker.respond_eq hs hready hb (hbasis.resolve_left hnot)

end Session

end ScriptLens
