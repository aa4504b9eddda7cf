import ScriptLens.Proofs.Session.Recovery

namespace ScriptLens.Session

variable {parser : Parser} {s s' : Session} {file : String} {version : Version} {text : String}

def recorded (s : Session) (file : String) (version : Version) (text : String) : Table Source :=
  (s.buffers.map Buffer.source).insert file ⟨text, version⟩

theorem sources_openBuffer (s : Session) (file : String) (version : Version) (text : String) :
    (s.openBuffer file version text).buffers.map Buffer.source = s.recorded file version text :=
  Table.map_insert _ _ _ _

/-- A sync fails if its version is not new, and then at once, or if the worker cannot be brought up
to date with the text in place. -/
theorem sync_eq_error {e : SessionError} (h : s.sync parser file version text = (.error e, s')) :
    (∃ b, s.buffers.get? file = some b ∧ version ≤ b.version ∧
      e = .staleVersion file b.version version ∧ s' = s) ∨
    (s.settings.eagerSync = true ∧ (∀ b, s.buffers.get? file = some b → b.version < version) ∧
      (s.openBuffer file version text).prepare parser = (.error e, s')) := by
  obtain ⟨b, hb, hle, hs⟩ | ⟨hnew, ⟨heager, hs⟩ | ⟨-, hs⟩⟩ := sync_cases parser s file version text
  · rw [hs] at h
    cases h
    exact .inl ⟨b, hb, hle, rfl, rfl⟩
  · rw [hs] at h
    refine .inr ⟨heager, hnew, ?_⟩
    cases hprepare : (s.openBuffer file version text).prepare parser with
    | mk result s₁ =>
        rw [hprepare] at h
        cases result with
        | ok r => cases congrArg Prod.fst h
        | error e' =>
            cases h
            rfl
  · rw [hs] at h
    cases congrArg Prod.fst h

theorem informed_of_outstanding (h : s.outstanding = 0) :
    ∃ r, s.running = some r ∧ r.revision = some s.settings.revision := by
  have hinformed : s.informed = true := by
    by_contra hnot
    simp [outstanding, hnot] at h
  simpa [informed, Option.any_eq_true] using hinformed

theorem synced_of_outstanding (h : s.outstanding = 0) {b : Buffer}
    (hb : s.buffers.get? file = some b) : b.synced = true := by
  obtain ⟨r, hr, hrev⟩ := informed_of_outstanding h
  rw [outstanding_of_informed hr hrev, List.length_eq_zero_iff] at h
  by_contra hsynced
  have hmem := (mem_pending_iff s.buffers file).2 ⟨b, hb, Bool.eq_false_iff.2 hsynced⟩
  rw [h] at hmem
  cases hmem

theorem pending_openBuffer (h : s.outstanding = 0) :
    pending (s.openBuffer file version text).buffers = [file] := by
  have hmem (name : String) :
      name ∈ pending (s.openBuffer file version text).buffers ↔ name = file := by
    rw [mem_pending_iff, get?_openBuffer]
    by_cases hname : name = file
    · simp [hname]
    · rw [if_neg hname]
      simp only [hname, iff_false, not_exists, not_and]
      intro b hb hsynced
      rw [synced_of_outstanding h hb] at hsynced
      cases hsynced
  apply List.perm_singleton.1
  apply (List.perm_ext_iff_of_nodup (nodup_pending _) (by simp)).2
  intro name
  rw [hmem, List.mem_singleton]

theorem sync_newer_ok (hs : s.Consistent) (h : s.outstanding = 0) {r : Running}
    (hr : s.running = some r) {b : Buffer} (hb : s.buffers.get? file = some b)
    (hnew : b.version < version) (text : String) :
    ∃ catalog, r.worker.catalog.sync file version text = .ok catalog := by
  have hheld := hs.held r hr file b hb (synced_of_outstanding h hb)
  refine ⟨_, Catalog.sync_eq_ok_iff.2 ⟨?_, ?_, rfl⟩⟩
  · exact (hs.apart r hr).buffers file (Table.mem_keys_of_get? hheld)
  · intro source hsource
    cases hheld.symm.trans hsource
    exact hnew

/-- If nothing else is due, only a file that was not open can be rejected, and it is dropped. -/
theorem sources_of_outstanding (hs : s.Consistent) (h : s.outstanding = 0)
    (hnew : ∀ b, s.buffers.get? file = some b → b.version < version) {e : SessionError}
    (hprepare : (s.openBuffer file version text).prepare parser = (.error e, s')) :
    s'.buffers.map Buffer.source = s.buffers.map Buffer.source := by
  obtain ⟨r, hr, hrev⟩ := informed_of_outstanding h
  have hrunning : (s.openBuffer file version text).ensureRunning =
      (r, s.openBuffer file version text) := by
    have hr' : (s.openBuffer file version text).running = some r := hr
    rw [ensureRunning, hr']
  obtain hsettle | ⟨r₀, s₀, w, buffers, hsettle, hpush, rfl⟩ := prepare_eq_error hprepare
  · obtain ⟨hne, -⟩ := settle_eq_error hsettle
    rw [hrunning] at hne
    exact absurd hrev hne
  · obtain ⟨hsent, rfl⟩ := settle_eq_ok hsettle
    have hidle : pushSettings parser s.settings r = (.ok (), r) := by rw [pushSettings, if_pos hrev]
    rw [hrunning] at hsent
    cases hidle.symm.trans hsent
    simp only [hrunning, buffers_refreshCache, pending_openBuffer h] at hpush
    have hopened : (s.openBuffer file version text).buffers.get? file =
        some ⟨version, text, false⟩ := by rw [get?_openBuffer, if_pos rfl]
    cases hsync : r.worker.catalog.sync file version text with
    | ok catalog =>
        rw [pushBuffers_accepted hopened hsync] at hpush
        cases hpush
    | error e' =>
        have hclosed : s.buffers.get? file = none := by
          rw [Option.eq_none_iff_forall_ne_some]
          intro b hb
          obtain ⟨catalog, hok⟩ := sync_newer_ok hs h hr hb (hnew b hb) text
          rw [hsync] at hok
          cases hok
        rw [pushBuffers_rejected hopened hsync] at hpush
        cases hpush
        change ((s.openBuffer file version text).buffers.erase file).map Buffer.source = _
        rw [Table.map_erase, sources_openBuffer, recorded, Table.erase_insert]
        exact Table.erase_of_get? (by rw [Table.get?_map, hclosed, Option.map_none])

/-- A sync that fails has been refused for its version, and nothing has changed. Or it was eager,
its text has been recorded, and the worker has rejected something: the declaration files, and all
open buffers stay, or the buffer of a file, and it alone is dropped. If nothing else was due before,
the open buffers are as they were. -/
theorem failed_sync_records (parser : Parser) (config : Configuration) (ops : List Operation)
    (hops : changes ops < UInt64.size) {s s' : Session} (hrun : (start config).run parser ops = s)
    {file : String} {version : Version} {text : String} {e : SessionError}
    (h : s.sync parser file version text = (.error e, s')) :
    (∃ b, s.buffers.get? file = some b ∧ version ≤ b.version ∧
      e = .staleVersion file b.version version ∧ s' = s) ∨
    (s.settings.eagerSync = true ∧ ∃ m r, e = .worker m ∧ s'.running = some r ∧
      ((s.informed = false ∧ (r.worker.respond parser (.syncLibs s.settings.libs)).1 = .error m ∧
        s'.buffers.map Buffer.source = s.recorded file version text) ∨
      (∃ name source, (s.recorded file version text).get? name = some source ∧
        (r.worker.respond parser (.syncBuffer name source.version source.text)).1 = .error m ∧
        (∀ b, name ≠ file → s.buffers.get? name = some b → s.running = none ∨ b.synced = false) ∧
        s'.buffers.map Buffer.source = (s.recorded file version text).erase name)) ∧
      (s.outstanding = 0 → s'.buffers.map Buffer.source = s.buffers.map Buffer.source)) := by
  have hs : s.Consistent := hrun ▸ (consistent_start config).run (room_start config hops)
  obtain hstale | ⟨heager, hnew, hprepare⟩ := sync_eq_error h
  · exact .inl hstale
  · obtain ⟨m, rfl, hrejected, -⟩ := rejected_of_prepare hprepare
    refine .inr ⟨heager, m, ?_⟩
    have hkept (hdue : s.outstanding = 0) :
        s'.buffers.map Buffer.source = s.buffers.map Buffer.source :=
      sources_of_outstanding hs hdue hnew hprepare
    cases hrejected with
    | libs r huninformed _ hr _ hsources hreply =>
        rw [sources_openBuffer] at hsources
        exact ⟨r, rfl, hr, .inl ⟨huninformed, hreply, hsources⟩, hkept⟩
    | buffer r name b hb hunsent _ hr _ hsources hreply =>
        rw [sources_openBuffer] at hsources
        have hsource : (s.recorded file version text).get? name = some b.source := by
          rw [← sources_openBuffer, Table.get?_map, hb, Option.map_some]
        refine ⟨r, rfl, hr, .inr ⟨name, b.source, hsource, hreply, ?_, hsources⟩, hkept⟩
        intro b' hname hb'
        rw [get?_openBuffer, if_neg hname, hb'] at hb
        cases hb
        exact hunsent

/-- A builtin name is rejected when nothing else is due, and leaves no trace. -/
theorem failed_sync_records_builtin :
    let parser := ParseTable.parser ⟨[]⟩
    let ops : List Operation := [.sync "a.ts" ⟨1⟩ "", .setLibs [("lib.d.ts", "")], .files]
    let s := (start { eagerSync := true }).run parser ops
    let s' := (s.sync parser "defaultLib:lib.d.ts" ⟨1⟩ "").2
    (s.sync parser "defaultLib:lib.d.ts" ⟨1⟩ "").1 =
      .error (.worker "Source already registered: defaultLib:lib.d.ts") ∧
    s.buffers.keys = ["a.ts"] ∧ s'.buffers.map Buffer.source = s.buffers.map Buffer.source := by
  intro parser ops s s'
  have hops : changes ops < UInt64.size := by decide
  have herror : (s.sync parser "defaultLib:lib.d.ts" ⟨1⟩ "").1 =
      .error (.worker "Source already registered: defaultLib:lib.d.ts") := by decide +kernel
  have hkeys : s.buffers.keys = ["a.ts"] := by decide +kernel
  have hdue : s.outstanding = 0 := by decide +kernel
  have hrun : (start { eagerSync := true }).run parser ops = s := rfl
  have hs' : (s.sync parser "defaultLib:lib.d.ts" ⟨1⟩ "").2 = s' := rfl
  refine ⟨herror, hkeys, ?_⟩
  clear_value s' s parser
  obtain ⟨b, -, -, heq, -⟩ | ⟨-, m, r, -, -, -, hkept⟩ :=
    failed_sync_records parser { eagerSync := true } ops hops hrun (Prod.ext herror hs')
  · cases heq
  · exact hkept hdue

/-- An eager sync that fails, and does not leave the open buffers as they were. Declaration files
are set of which one has the name of an open buffer. Then a newer text of that buffer, or the text
of another file, is recorded although the worker rejects the declaration files; and a new worker
takes these first and rejects the buffer, which is dropped on account of the other file. -/
theorem failed_sync_keeps_text :
    let parser := ParseTable.parser ⟨[]⟩
    let s := (start { eagerSync := true }).run parser
      [.sync "a.ts" ⟨1⟩ "one", .setLibs [("a.ts", "")]]
    let t := s.run parser [.files, .retire]
    let clash : SessionError := .worker "Source already registered: a.ts"
    s.buffers.map Buffer.source = Table.empty.insert "a.ts" ⟨"one", ⟨1⟩⟩ ∧
    (s.sync parser "a.ts" ⟨2⟩ "two").1 = .error clash ∧
    (s.sync parser "a.ts" ⟨2⟩ "two").2.buffers.map Buffer.source =
      Table.empty.insert "a.ts" ⟨"two", ⟨2⟩⟩ ∧
    (s.sync parser "b.ts" ⟨1⟩ "").1 = .error clash ∧
    (s.sync parser "b.ts" ⟨1⟩ "").2.buffers.keys = ["a.ts", "b.ts"] ∧
    t.buffers.map Buffer.source = s.buffers.map Buffer.source ∧
    (t.sync parser "b.ts" ⟨1⟩ "").1 = .error clash ∧
    (t.sync parser "b.ts" ⟨1⟩ "").2.buffers.keys = ["b.ts"] := by
  decide +kernel

end ScriptLens.Session
