import ScriptLens.Proofs.Session.Closing

namespace ScriptLens.Session

variable {parser : Parser} {s s' : Session}

theorem pushBuffers_fixed (names : List String) (w : Worker) (buffers : Table Buffer) :
    (pushBuffers parser names w buffers).2.1.catalog.auxiliary = w.catalog.auxiliary ∧
      (pushBuffers parser names w buffers).2.1.diagnostics = w.diagnostics := by
  induction names generalizing w buffers with
  | nil => exact ⟨rfl, rfl⟩
  | cons file rest ih =>
      cases hb : buffers.get? file with
      | none =>
          rw [pushBuffers_absent hb]
          exact ih w buffers
      | some b =>
          cases hsync : w.catalog.sync file b.version b.text with
          | error e =>
              rw [pushBuffers_rejected hb hsync]
              exact ⟨rfl, rfl⟩
          | ok catalog =>
              rw [pushBuffers_accepted hb hsync]
              obtain ⟨-, -, rfl⟩ := Catalog.sync_eq_ok_iff.1 hsync
              exact ih _ _

theorem keys_insert_append {held : Table Entered} {file : String} {rest : List String}
    (hfile : file ∉ rest) (source : Entered) :
    (held.insert file source).keys ++ rest.filter (· ∉ (held.insert file source).keys) =
      held.keys ++ (file :: rest).filter (· ∉ held.keys) := by
  rw [Table.keys_insert]
  by_cases hheld : file ∈ held.keys
  · rw [if_pos hheld, List.filter_cons_of_neg (by simpa using hheld)]
  · rw [if_neg hheld, List.filter_cons_of_pos (by simpa using hheld), List.append_assoc,
      List.singleton_append]
    congr 2
    apply List.filter_congr
    intro name hname
    have hne : name ≠ file := fun heq => hfile (heq ▸ hname)
    simp [hne]

/-- What is new to the worker comes after what it has, in the order it is sent. -/
theorem keys_pushBuffers {names : List String} (hnames : names.Nodup) {w w' : Worker}
    {buffers buffers' : Table Buffer} (hopen : ∀ file ∈ names, file ∈ buffers.keys)
    (h : pushBuffers parser names w buffers = (.ok (), w', buffers')) :
    w'.catalog.buffers.keys =
      w.catalog.buffers.keys ++ names.filter (· ∉ w.catalog.buffers.keys) := by
  induction names generalizing w buffers with
  | nil =>
      cases h
      simp
  | cons file rest ih =>
      obtain ⟨hfile, hrest⟩ := List.nodup_cons.1 hnames
      have hmem := (Table.mem_keys_iff _ _).1 (hopen file List.mem_cons_self)
      obtain ⟨b, hb⟩ := Option.isSome_iff_exists.1 hmem
      cases hsync : w.catalog.sync file b.version b.text with
      | error e =>
          rw [pushBuffers_rejected hb hsync] at h
          cases h
      | ok catalog =>
          rw [pushBuffers_accepted hb hsync] at h
          obtain ⟨-, -, rfl⟩ := Catalog.sync_eq_ok_iff.1 hsync
          have hopen' : ∀ name ∈ rest,
              name ∈ (buffers.insert file { b with synced := true }).keys := by
            intro name hname
            have hname' := hopen name (List.mem_cons_of_mem _ hname)
            rw [Table.keys_insert, if_pos (Table.mem_keys_of_get? hb)]
            exact hname'
          rw [ih hrest hopen' h]
          exact keys_insert_append hfile _

theorem pending_eq (buffers : Table Buffer) :
    pending buffers = buffers.keys.filter fun file => (buffers.get? file).any (!·.synced) := by
  rw [pending, Table.keys, List.filter_map]
  congr 1
  apply List.filter_congr
  intro e he
  have hget := (Table.mem_entries_iff _ _ _).1 he
  simp [hget]

theorem order_settle {r₀ : Running} {s₀ : Session}
    (horder : ∀ r, s.running = some r → r.worker.catalog.buffers.keys <+: s.buffers.keys)
    (h : s.settle parser = (.ok r₀, s₀)) :
    r₀.worker.catalog.buffers.keys <+: s₀.buffers.keys := by
  obtain ⟨hpush, rfl⟩ := settle_eq_ok h
  have hbuffers := pushSettings_buffers parser s.settings s.ensureRunning.1
  rw [hpush] at hbuffers
  rw [hbuffers]
  change _ <+: s.ensureRunning.2.refreshCache.buffers.keys
  rw [buffers_refreshCache]
  unfold ensureRunning
  cases hr : s.running with
  | none => exact List.nil_prefix
  | some r => exact horder r hr

/-- What the worker does not hold is yet to be sent. -/
theorem filter_pending (hs : s.Consistent) {r : Running} (hr : s.running = some r) :
    (pending s.buffers).filter (· ∉ r.worker.catalog.buffers.keys) =
      s.buffers.keys.filter (· ∉ r.worker.catalog.buffers.keys) := by
  rw [pending_eq, List.filter_filter]
  apply List.filter_congr
  intro file hfile
  by_cases hheld : file ∈ r.worker.catalog.buffers.keys
  · simp [hheld]
  · obtain ⟨b, hb⟩ := Option.isSome_iff_exists.1 ((Table.mem_keys_iff _ _).1 hfile)
    have hsynced : b.synced = false := by
      by_contra hne
      exact hheld (Table.mem_keys_of_get? (hs.held r hr file b hb (by simpa using hne)))
    simp [hheld, hb, hsynced]

theorem append_filter_of_prefix {held names : List String} (h : held <+: names)
    (hnames : names.Nodup) : held ++ names.filter (· ∉ held) = names := by
  obtain ⟨rest, rfl⟩ := h
  have hnew : ∀ file ∈ rest, file ∉ held :=
    fun file hfile hheld => (List.nodup_append.1 hnames).2.2 file hheld file hfile rfl
  rw [List.filter_append, List.filter_eq_nil_iff.2 (by simp), List.nil_append,
    List.filter_eq_self.2 (by simpa using hnew)]

/-- The worker holds the first of the open buffers, and gets the others in their order. -/
theorem keys_prepare (hs : s.Consistent)
    (horder : ∀ r, s.running = some r → r.worker.catalog.buffers.keys <+: s.buffers.keys)
    {r : Running} (h : s.prepare parser = (.ok r, s')) :
    r.worker.catalog.buffers.keys = s'.buffers.keys := by
  obtain ⟨r₀, s₀, hsettle, hpush, -, -⟩ := prepare_eq_ok h
  have hs₀ : s₀.Consistent := by
    have hs' := @Consistent.settle parser s hs
    rwa [hsettle] at hs'
  have hr₀ : s₀.running = some r₀ := by rw [(settle_eq_ok hsettle).2]
  have hopen : ∀ file ∈ pending s₀.buffers, file ∈ s₀.buffers.keys := by
    intro file hfile
    rw [pending_eq] at hfile
    exact (List.mem_filter.1 hfile).1
  have hsources := congrArg Table.keys (pushBuffers_ok hpush).1
  rw [Table.keys_map, Table.keys_map] at hsources
  rw [keys_pushBuffers (nodup_pending _) hopen hpush, filter_pending hs₀ hr₀, hsources]
  exact append_filter_of_prefix (order_settle horder hsettle) s₀.buffers.distinct

theorem buffers_prepare (hs : s.Consistent)
    (horder : ∀ r, s.running = some r → r.worker.catalog.buffers.keys <+: s.buffers.keys)
    {r : Running} (h : s.prepare parser = (.ok r, s')) :
    r.worker.catalog.buffers = s.buffers.map Buffer.entered := by
  have hready := ready_of_prepare h
  have hkeys := keys_prepare hs horder h
  rw [Table.map_entered, ← hready.sources, ← Table.map_entered]
  apply Table.ext_get?
  · rw [hkeys, Table.keys_map]
  · intro file
    rw [Table.get?_map]
    cases hb : s'.buffers.get? file with
    | some b =>
        have hsynced := hready.synced file b hb
        exact (hs.prepare h).held r hready.running file b hb hsynced
    | none =>
        have habsent : file ∉ r.worker.catalog.buffers.keys := by
          rw [hkeys, Table.mem_keys_iff, hb]
          simp
        simpa [Table.mem_keys_iff] using habsent

theorem order_enter
    (horder : ∀ r, s.running = some r → r.worker.catalog.buffers.keys <+: s.buffers.keys)
    (file : String) (version : Version) (text : String) {r : Running} (hr : s.running = some r) :
    r.worker.catalog.buffers.keys <+: (s.openBuffer file version text).buffers.keys := by
  change _ <+: (s.buffers.insert file _).keys
  rw [Table.keys_insert]
  split
  · exact horder r hr
  · exact (horder r hr).trans (List.prefix_append _ _)

/-- The worker holds an older version of the file than the one that is open. -/
def Owed (s : Session) (file : String) : Prop :=
  ∃ b, s.buffers.get? file = some b ∧ b.synced = false ∧ s.heldSource file ≠ none

/-- The worker loses the file with the session, or has not got it. -/
theorem order_close
    (horder : ∀ r, s.running = some r → r.worker.catalog.buffers.keys <+: s.buffers.keys)
    {file : String} (howed : ¬ s.Owed file) {r' : Running}
    (hr' : (s.close parser file).2.running = some r') :
    r'.worker.catalog.buffers.keys <+: (s.buffers.erase file).keys := by
  rw [Table.keys_erase]
  obtain ⟨hb, hs⟩ | ⟨b, hb, ⟨r, hr, -, hs⟩ | ⟨hidle, hs⟩⟩ := close_cases parser s file
  · rw [hs] at hr'
    rw [← Table.keys_erase, Table.erase_of_get? hb]
    exact horder r' hr'
  · rw [hs] at hr'
    cases hr'
    change (r.worker.catalog.buffers.erase file).keys <+: _
    rw [Table.keys_erase]
    exact (horder r hr).filter _
  · rw [hs] at hr'
    have hr : s.running = some r' := hr'
    -- the worker is not told of the close, so it must not hold the file
    have hsynced : b.synced = false := hidle.resolve_left (by simp [hr])
    have hheld : r'.worker.catalog.buffers.get? file = none := by
      rw [← heldSource_of_running hr]
      by_contra hne
      exact howed ⟨b, hb, hsynced, hne⟩
    rw [← Table.erase_of_get? hheld, Table.keys_erase]
    exact (horder r' hr).filter _

end ScriptLens.Session
