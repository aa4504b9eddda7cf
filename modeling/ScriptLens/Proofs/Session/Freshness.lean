import ScriptLens.Proofs.Session.Coherence

namespace ScriptLens.Session

variable {parser : Parser} {s s' : Session} {r : Running}

/-- An outline rests on the tree alone, so the kept one is the worker's. -/
theorem outline_fst (hs : s.Consistent) (hv : Vouched parser (fun _ _ => True) s)
    (h : s.prepare parser = (.ok r, s')) (file : String) :
    (s.outline parser file).1 = .ok (r.worker.outline parser file) := by
  have hready := ready_of_prepare h
  obtain ⟨hs', hv'⟩ := (Moves.of_prepare .files h).vouched hs hv (by simp)
  have hkept : ∀ b payload, s'.buffers.get? file = some b →
      s'.cache.get? ⟨file, b.version, Question.outline.query⟩ = some payload →
      (r.worker.respond parser (Question.outline.request file)).1 = .ok payload := by
    intro b payload hb hkey
    have hrev : s'.cacheRevision = s'.settings.revision := by
      rw [hready.cacheRevision, hready.settings]
    obtain ⟨w, hmaker, -⟩ := hv' hrev _ payload b hkey hb
    exact hmaker.respond_eq hs' hready hb rfl
  have hask := askCached_fst h hkept
  change partOf _ _ (s.askCached parser file Question.outline.query
    (Question.outline.request file)).1 = _
  rw [hask]
  rfl

/-- Outline, version and text of an open buffer are those of the source it has in the session. -/
theorem open_buffer_fresh (parser : Parser) (config : Configuration) (ops : List Operation)
    (hops : changes ops < UInt64.size) {s : Session} (hrun : (start config).run parser ops = s)
    {file : String} {b : Buffer} (hb : s.buffers.get? file = some b) :
    (∀ entries, (s.outline parser file).1 = .ok entries →
      entries = Outline.ofSource (.parse parser file (some b.version)
        (.ofFileName file s.settings.compiler.allowJs) b.text)) ∧
    (∀ version, (s.version parser file).1 = .ok version → version = some b.version) ∧
    ∀ text, (s.text parser file).1 = .ok text → text = some b.text := by
  have hroom := room_start config hops
  obtain ⟨hs, hv⟩ := vouched_run (consistent_start config) (@vouched_start parser _ config) hroom
  rw [hrun] at hs hv
  have hholds {r : Running} {s' : Session} (h : s.prepare parser = (.ok r, s')) :
      r.worker.catalog.buffers.get? file = some b.entered :=
    (hs.prepare h).holds (ready_of_prepare h) hb
  refine ⟨?_, ?_, ?_⟩
  · intro entries hentries
    obtain ⟨payload, hask, -⟩ := partOf_eq_ok hentries
    obtain ⟨r, s', h⟩ := prepare_of_askCached hask
    have hready := ready_of_prepare h
    have hoptions : r.worker.catalog.options = s.settings.compiler := by
      rw [(hs.prepare h).options r hready.running, hready.settings]
      rw [hready.cacheRevision, hready.settings]
    rw [outline_fst hs (hv.mono fun _ _ _ => trivial) h, Worker.outline_of_buffer (hholds h),
      hoptions] at hentries
    exact (Except.ok.inj hentries).symm
  · intro version hversion
    obtain ⟨r, h, rfl⟩ := version_eq_ok (Prod.ext hversion rfl)
    exact Catalog.version?_of_buffer (hholds h)
  · intro text htext
    obtain ⟨r, h, rfl⟩ := text_eq_ok (Prod.ext htext rfl)
    exact Catalog.text?_of_buffer (hholds h)

/-- A file that is opened again under a lower version, with a kept outline, a rejected file of
declarations and a retired worker on the way. -/
theorem open_buffer_fresh_reopened :
    let parser := ParseTable.parser ⟨[]⟩
    let ops : List Operation := [.sync "a.ts" ⟨5⟩ "old", .files, .close "a.ts",
      .sync "a.ts" ⟨2⟩ "new", .outline "a.ts", .addLib 0 "" (some "a.ts"), .files,
      .setLibs [], .outline "a.ts", .retire]
    let s := (start {}).run parser ops
    changes ops < UInt64.size ∧ s.buffers.get? "a.ts" = some ⟨⟨2⟩, "new", true⟩ ∧
    ∃ entries version text, (s.outline parser "a.ts").1 = .ok entries ∧
      entries = Outline.ofSource (.parse parser "a.ts" (some ⟨2⟩)
        (.ofFileName "a.ts" s.settings.compiler.allowJs) "new") ∧
      (s.version parser "a.ts").1 = .ok version ∧ version = some ⟨2⟩ ∧
      (s.text parser "a.ts").1 = .ok text ∧ text = some "new" := by
  intro parser ops s
  have hops : changes ops < UInt64.size := by decide
  have hb : s.buffers.get? "a.ts" = some ⟨⟨2⟩, "new", true⟩ := by decide +kernel
  have houtline : (s.outline parser "a.ts").1 = .ok [] := by decide +kernel
  have hversion : (s.version parser "a.ts").1 = .ok (some ⟨2⟩) := by decide +kernel
  have htext : (s.text parser "a.ts").1 = .ok (some "new") := by decide +kernel
  have hrun : (start {}).run parser ops = s := rfl
  clear_value s
  obtain ⟨hentries, hversion', htext'⟩ := open_buffer_fresh parser {} ops hops hrun hb
  exact ⟨hops, hb, _, _, _, houtline, hentries _ houtline, hversion, hversion' _ hversion, htext,
    htext' _ htext⟩

end ScriptLens.Session
