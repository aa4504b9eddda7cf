import ScriptLens.Proofs.Session.Closing

namespace ScriptLens.Session

variable {parser : Parser} {op : Operation} {s s' : Session} {file : String}

def Unregistered (s : Session) (file : String) : Prop :=
  Catalog.isBuiltin file = false ∧ ∀ r ∈ s.running, file ∉ r.worker.catalog.auxiliary.keys

instance (s : Session) (file : String) : Decidable (s.Unregistered file) :=
  inferInstanceAs (Decidable (_ ∧ ∀ r ∈ s.running, file ∉ r.worker.catalog.auxiliary.keys))

structure Acceptable (s : Session) (file : String) (b : Buffer) : Prop where
  opened : s.buffers.get? file = some b
  unregistered : s.Unregistered file
  held : b.synced = true → ∀ r, s.running = some r →
    r.worker.catalog.buffers.get? file = some b.entered
  newer : b.synced = false → ∀ source, s.heldSource file = some source → source.version < b.version

theorem Unregistered.settle (h : s.Unregistered file) (hlibs : file ∉ s.settings.libs.keys) :
    (s.settle parser).2.Unregistered file := by
  refine ⟨h.1, ?_⟩
  have hold : file ∉ s.ensureRunning.1.worker.catalog.auxiliary.keys := by
    unfold ensureRunning
    cases hr : s.running with
    | none => exact List.not_mem_nil
    | some r => exact h.2 r hr
  rw [settle_eq]
  rintro _ ⟨⟩
  obtain ⟨-, hs⟩ | ⟨-, catalog, hset, hs⟩ | ⟨-, e, -, hs⟩ :=
    pushSettings_cases parser s.settings s.ensureRunning.1
  · rw [hs]
    exact hold
  · rw [hs, (Catalog.setAuxiliary_eq_ok_iff.1 hset).2]
    change file ∉ (s.settings.libs.map _).keys
    rw [Dict.keys_map]
    exact hlibs
  · rw [hs]
    exact hold

theorem Acceptable.settle {b : Buffer} (h : s.Acceptable file b)
    (hlibs : file ∉ s.settings.libs.keys) :
    ∃ b', b'.source = b.source ∧ (s.settle parser).2.Acceptable file b' := by
  have hunregistered := @Unregistered.settle parser s file h.unregistered hlibs
  have hheld := @heldSource_settle parser s file
  cases hr : s.running with
  | none =>
      -- a new worker holds nothing, so anything is newer
      refine ⟨{ b with synced := false }, rfl, ?_, hunregistered, by simp, ?_⟩
      · simp [settle_eq, ensureRunning, hr, startWorker, h.opened]
      · intro _ source hsource
        rw [hheld, heldSource, hr] at hsource
        cases hsource
  | some r =>
      refine ⟨b, rfl, ?_, hunregistered, ?_, ?_⟩
      · simp [settle_eq, ensureRunning, hr, h.opened]
      · intro hsynced r' hr'
        rw [← heldSource_of_running hr', hheld, heldSource_of_running hr]
        exact h.held hsynced r hr
      · intro hsynced source hsource
        rw [hheld] at hsource
        exact h.newer hsynced source hsource

theorem Acceptable.close {b : Buffer} (h : s.Acceptable file b) {name : String}
    (hne : file ≠ name) : (s.close parser name).2.Acceptable file b := by
  have hopened : (s.close parser name).2.buffers.get? file = some b := by
    rw [get?_close, if_neg hne]
    exact h.opened
  have hheld : (s.close parser name).2.heldSource file = s.heldSource file :=
    heldSource_close_of_ne s hne
  refine ⟨hopened, ⟨h.unregistered.1, ?_⟩, ?_, ?_⟩
  · intro r' hr'
    obtain ⟨r, hr, haux, -⟩ := running_close hr'
    rw [haux]
    exact h.unregistered.2 r hr
  · intro hsynced r' hr'
    obtain ⟨r, hr, -⟩ := running_close hr'
    rw [← heldSource_of_running hr', hheld, heldSource_of_running hr]
    exact h.held hsynced r hr
  · intro hsynced source hsource
    rw [hheld] at hsource
    exact h.newer hsynced source hsource

theorem Acceptable.push {b : Buffer} (h : s.Acceptable file b) {r : Running}
    (hr : s.running = some r) {name : String} {b' : Buffer} {catalog : Catalog}
    (hb' : s.buffers.get? name = some b')
    (hcatalog : r.worker.catalog.sync name b'.version b'.text = .ok catalog) :
    ∃ b'', b''.source = b.source ∧ (s.pushed r name b' catalog).Acceptable file b'' := by
  obtain ⟨-, -, heq⟩ := Catalog.sync_eq_ok_iff.1 hcatalog
  have hunregistered : (s.pushed r name b' catalog).Unregistered file := by
    refine ⟨h.unregistered.1, ?_⟩
    rintro _ ⟨⟩
    rw [heq]
    exact h.unregistered.2 r hr
  subst heq
  by_cases hne : file = name
  · subst hne
    have hbb : b' = b := Option.some.inj (hb'.symm.trans h.opened)
    subst hbb
    refine ⟨{ b' with synced := true }, rfl, ?_, hunregistered, ?_, by simp⟩
    · simp [pushed]
    · rintro - _ ⟨⟩
      simp [Buffer.entered, Buffer.source]
  · refine ⟨b, rfl, ?_, hunregistered, ?_, ?_⟩
    · simp [pushed, hne, h.opened]
    · rintro hsynced _ ⟨⟩
      simp [hne, h.held hsynced r hr]
    · intro hsynced source hsource
      apply h.newer hsynced source
      simpa [heldSource, pushed, hr, hne] using hsource

theorem Acceptable.sync_ok {b : Buffer} (h : s.Acceptable file b) (hsynced : b.synced = false)
    {r : Running} (hr : s.running = some r) :
    ∃ catalog, r.worker.catalog.sync file b.version b.text = .ok catalog := by
  refine ⟨_, Catalog.sync_eq_ok_iff.2 ⟨⟨h.unregistered.2 r hr, h.unregistered.1⟩, ?_, rfl⟩⟩
  intro source hsource
  exact h.newer hsynced source (heldSource_of_running hr file ▸ hsource)

/-- As long as the buffer is not closed or replaced it stays, for the worker takes it if it comes to
that. -/
theorem Acceptable.move {b : Buffer} (h : s.Acceptable file b) (hmove : Move parser op s s')
    (hchange : op.changesSettings = false) (hsync : ∀ version text, op ≠ .sync file version text)
    (hclose : op ≠ .close file) (hlibs : file ∉ s.settings.libs.keys) :
    ∃ b', b'.source = b.source ∧ s'.Acceptable file b' := by
  cases hmove with
  | change settings hop => simp [hchange] at hop
  | retire =>
      refine ⟨b, rfl, h.opened, ⟨h.unregistered.1, ?_⟩, ?_, ?_⟩
      · intro r hr
        cases hr
      · intro _ r hr
        cases hr
      · intro _ source hsource
        cases hsource
  | enter name version text hop =>
      have hne : file ≠ name := fun heq => hsync version text (heq ▸ hop)
      refine ⟨b, rfl, ?_, h.unregistered, h.held, h.newer⟩
      rw [get?_openBuffer, if_neg hne]
      exact h.opened
  | close name hop => exact ⟨b, rfl, h.close fun heq => hclose (heq ▸ hop)⟩
  | settle => exact h.settle hlibs
  | push r name b' catalog hr hb' _ hcatalog => exact h.push hr hb' hcatalog
  | drop r name b' e hr hb' hsynced herror =>
      -- a buffer that is dropped is one that the worker rejects
      have hne : file ≠ name := by
        rintro rfl
        cases hb'.symm.trans h.opened
        obtain ⟨catalog, hok⟩ := h.sync_ok hsynced hr
        rw [herror] at hok
        cases hok
      refine ⟨b, rfl, ?_, h.unregistered, h.held, h.newer⟩
      change (s.buffers.erase name).get? file = some b
      rw [Table.get?_erase, if_neg hne]
      exact h.opened
  | keep => exact ⟨b, rfl, h.opened, h.unregistered, h.held, h.newer⟩

theorem Acceptable.moves {b : Buffer} (h : s.Acceptable file b) (hmoves : Moves parser op s s')
    (hchange : op.changesSettings = false) (hsync : ∀ version text, op ≠ .sync file version text)
    (hclose : op ≠ .close file) (hlibs : file ∉ s.settings.libs.keys) :
    ∃ b', b'.source = b.source ∧ s'.Acceptable file b' := by
  induction hmoves with
  | refl => exact ⟨b, rfl, h⟩
  | tail hmoves hmove ih =>
      obtain ⟨b', hb', h'⟩ := ih
      have hlibs' := (Moves.settings_eq hmoves hchange).symm ▸ hlibs
      obtain ⟨b'', hb'', h''⟩ := h'.move hmove hchange hsync hclose hlibs'
      exact ⟨b'', hb''.trans hb', h''⟩

theorem Acceptable.step {b : Buffer} (h : s.Acceptable file b)
    (hsync : ∀ version text, op ≠ .sync file version text) (hclose : op ≠ .close file)
    (hlibs : file ∉ s.settings.libs.keys) :
    ∃ b', b'.source = b.source ∧ (s.step parser op).2.Acceptable file b' := by
  cases hchange : op.changesSettings with
  | true =>
      obtain ⟨settings, hs, -⟩ := @step_changesSettings parser op s hchange
      rw [hs]
      exact ⟨b, rfl, h.opened, h.unregistered, h.held, h.newer⟩
  | false => exact h.moves (step_moves_of_same hchange s) hchange hsync hclose hlibs

theorem Acceptable.run {b : Buffer} (h : s.Acceptable file b) {ops : List Operation}
    (hsync : ∀ version text, .sync file version text ∉ ops) (hclose : .close file ∉ ops)
    (hlibs : ∀ begun, begun <+: ops → file ∉ (s.run parser begun).settings.libs.keys) :
    ∃ b', b'.source = b.source ∧ (s.run parser ops).Acceptable file b' := by
  induction ops generalizing s b with
  | nil => exact ⟨b, rfl, h⟩
  | cons op ops ih =>
      have hop : ∀ version text, op ≠ .sync file version text := by
        rintro version text rfl
        exact hsync version text List.mem_cons_self
      have hop' : op ≠ .close file := by
        rintro rfl
        exact hclose List.mem_cons_self
      obtain ⟨b', hb', h'⟩ := @Acceptable.step parser op s file b h hop hop'
        (hlibs [] List.nil_prefix)
      obtain ⟨b'', hb'', h''⟩ := ih h'
        (fun version text hmem => hsync version text (List.mem_cons_of_mem _ hmem))
        (fun hmem => hclose (List.mem_cons_of_mem _ hmem))
        (fun begun hbegun => hlibs (op :: begun) (List.cons_prefix_cons.2 ⟨rfl, hbegun⟩))
      exact ⟨b'', hb''.trans hb', h''⟩

theorem Acceptable.prepare {b : Buffer} (h : s.Acceptable file b)
    (hlibs : file ∉ s.settings.libs.keys) {r : Running} (hprepare : s.prepare parser = (.ok r, s')) :
    r.worker.catalog.buffers.get? file = some b.entered := by
  obtain ⟨b', hb', h'⟩ := h.moves (Moves.of_prepare .files hprepare) rfl (by simp) (by simp) hlibs
  have hready := ready_of_prepare hprepare
  rw [Buffer.entered, ← hb']
  exact h'.held (hready.synced file b' h'.opened) r hready.running

theorem acceptable_openBuffer (hunregistered : s.Unregistered file) {version : Version}
    (text : String) (hnewer : ∀ source, s.heldSource file = some source → source.version < version) :
    (s.openBuffer file version text).Acceptable file ⟨version, text, false⟩ := by
  refine ⟨?_, hunregistered, ?_, ?_⟩
  · rw [get?_openBuffer, if_pos rfl]
  · intro hsynced
    cases hsynced
  · intro _ source hsource
    exact hnewer source hsource

theorem sync_acceptable (hclosed : s.buffers.get? file = none) (hunregistered : s.Unregistered file)
    (hlibs : file ∉ s.settings.libs.keys) {version : Version} {text : String}
    (hnewer : ∀ source, s.heldSource file = some source → source.version < version) :
    ∃ b, b.source = ⟨text, version⟩ ∧
      (s.step parser (.sync file version text)).2.Acceptable file b := by
  have hopened := acceptable_openBuffer hunregistered text hnewer
  change ∃ b, _ ∧ (s.sync parser file version text).2.Acceptable file b
  obtain ⟨b, hb, -⟩ | ⟨-, ⟨-, hs⟩ | ⟨-, hs⟩⟩ := sync_cases parser s file version text
  · rw [hclosed] at hb
    cases hb
  · rw [hs]
    exact hopened.moves (@prepare_moves parser .files _) rfl (by simp) (by simp) hlibs
  · rw [hs]
    exact ⟨_, rfl, hopened⟩

structure Outdone (s : Session) (file : String) (source : Entered) : Prop where
  held : s.heldSource file = some source
  older : ∀ b, s.buffers.get? file = some b → b.synced = false ∧ b.version ≤ source.version

theorem Outdone.move {source : Entered} (h : s.Outdone file source) (hmove : Move parser .files s s') :
    s'.Outdone file source := by
  cases hmove with
  | change | retire | enter | close => contradiction
  | settle =>
      refine ⟨by rw [heldSource_settle, h.held], ?_⟩
      intro b hb
      cases hr : s.running with
      | none =>
          have hheld := h.held
          rw [heldSource, hr] at hheld
          cases hheld
      | some r =>
          simp only [settle_eq, ensureRunning, hr, buffers_refreshCache] at hb
          exact h.older b hb
  | push r name b catalog hr hb _ hsync =>
      obtain ⟨-, hnewer, rfl⟩ := Catalog.sync_eq_ok_iff.1 hsync
      have hheld := heldSource_of_running hr file ▸ h.held
      have hne : file ≠ name := by
        rintro rfl
        exact Version.not_le.2 (hnewer source hheld) (h.older b hb).2
      constructor
      · change (r.worker.catalog.buffers.insert name _).get? file = some source
        rw [Table.get?_insert, if_neg hne]
        exact hheld
      · intro b' hb'
        rw [get?_pushed, if_neg hne] at hb'
        exact h.older b' hb'
  | drop => exact ⟨h.held, fun b hb => h.older b (Table.get?_of_erase hb).2⟩
  | keep => exact ⟨h.held, h.older⟩

theorem outdone_openBuffer {source : Entered} (hheld : s.heldSource file = some source)
    {version : Version} (hle : version ≤ source.version) (text : String) :
    (s.openBuffer file version text).Outdone file source := by
  refine ⟨hheld, ?_⟩
  intro b hb
  rw [get?_openBuffer, if_pos rfl] at hb
  cases hb
  exact ⟨rfl, hle⟩

theorem Outdone.prepare_ne_ok {source : Entered} (h : s.Outdone file source)
    (hopen : s.buffers.get? file ≠ none) (r : Running) (s' : Session) :
    s.prepare parser ≠ (.ok r, s') := by
  intro hprepare
  have h' := (Moves.of_prepare .files hprepare).keep (P := fun s => s.Outdone file source)
    (fun _ _ hmove h => h.move hmove) h
  have hready := ready_of_prepare hprepare
  obtain ⟨b, hb⟩ := Option.ne_none_iff_exists'.1 hopen
  obtain ⟨b', hb', -⟩ := hready.get? hb
  have hsynced := hready.synced file b' hb'
  rw [(h'.older b' hb').1] at hsynced
  cases hsynced

end ScriptLens.Session
