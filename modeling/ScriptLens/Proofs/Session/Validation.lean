import ScriptLens.Proofs.Session.Coherence
import ScriptLens.Proofs.Session.Snapshot

namespace ScriptLens.Session

variable {parser : Parser} {s s' : Session} {file : String} {b : Buffer}

theorem Maker.syntaxErrors_eq {settings : Settings} {source : Source} {version : Version}
    {payload : Payload} {w : Worker}
    (h : Maker parser settings source ⟨file, version, .diagnostics⟩ payload w) :
    payload = .diagnostics (w.syntaxErrors parser file) := by
  obtain ⟨q, hquery, hanswer⟩ := h.answer
  cases q with
  | diagnostics =>
      cases hanswer
      rfl
  | outline | references => cases hquery

theorem askCached_of_diagnostics (hon : s.settings.diagnostics.noSyntaxValidation = false)
    {found : List Diagnostic} (h : (s.diagnostics parser file).1 = .ok found) :
    (s.askCached parser file Question.diagnostics.query (Question.diagnostics.request file)).1 =
      .ok (.diagnostics found) := by
  rw [diagnostics, hon] at h
  obtain ⟨payload, hask, hpart⟩ := partOf_eq_ok h
  cases payload with
  | diagnostics ds =>
      cases hpart
      exact hask
  | ack | files | version | text | outline | references => cases hpart

/-- The worker that made an answer, now or when it was kept. -/
theorem diagnostics_made {excused : CacheKey → Payload → Prop} (hs : s.Consistent)
    (hv : Vouched parser excused s) (hb : s.buffers.get? file = some b)
    (hon : s.settings.diagnostics.noSyntaxValidation = false) {found : List Diagnostic}
    (h : (s.diagnostics parser file).1 = .ok found) :
    ∃ w : Worker, w.catalog.options = s.settings.compiler ∧
      w.catalog.buffers.get? file = some b.entered ∧ w.syntaxErrors parser file = found ∧
      (excused ⟨file, b.version, .diagnostics⟩ (.diagnostics found) ∨
        w.diagnostics = s.validation) := by
  have hask := askCached_of_diagnostics hon h
  obtain ⟨r, s', hprepare⟩ := prepare_of_askCached hask
  have hready := ready_of_prepare hprepare
  obtain ⟨hs', hv'⟩ := (Moves.of_prepare .files hprepare).vouched hs hv (by simp)
  obtain ⟨b', hb', hsource⟩ := hready.get? hb
  have hversion : b'.version = b.version := congrArg Source.version hsource
  have hentered : b'.entered = b.entered := congrArg Entered.live hsource
  have hrev : s'.cacheRevision = s'.settings.revision := by
    rw [hready.cacheRevision, hready.settings]
  cases hkey : s'.cache.get? ⟨file, b'.version, Question.diagnostics.query⟩ with
  | some kept =>
      rw [askCached_of_kept hprepare hb' hkey] at hask
      cases hask
      obtain ⟨w, hmaker, hbasis⟩ := hv' hrev _ _ b' hkey hb'
      refine ⟨w, hmaker.options.trans (by rw [hready.settings]), hentered ▸ hmaker.holds, ?_, ?_⟩
      · exact (Payload.diagnostics.inj hmaker.syntaxErrors_eq).symm
      · rw [basis_of_running hready.running] at hbasis
        refine hbasis.imp (fun hexcused => hversion ▸ hexcused) ?_
        intro hw
        exact (Basis.validation.inj hw).trans (diagnostics_prepare hprepare)
  | none =>
      have hnew : (r.worker.respond parser (Question.diagnostics.request file)).1 =
          .ok (.diagnostics (r.worker.syntaxErrors parser file)) := rfl
      rw [askCached_of_new hprepare hb' hkey hnew] at hask
      cases hask
      refine ⟨r.worker, ?_, hs'.holds hready hb, rfl, .inr (diagnostics_prepare hprepare)⟩
      rw [hs'.options r hready.running hrev, hready.settings]

/-- Where validation is off no syntax errors are reported. Where it is on, those of the open buffer's
latest text are reported or none: all of them, if the worker was started with validation, and the
answer is not one that was kept from a worker without. -/
theorem diagnostics_follow_worker (parser : Parser) (config : Configuration) (ops : List Operation)
    (hops : changes ops < UInt64.size) {s : Session} (hrun : (start config).run parser ops = s)
    {file : String} {b : Buffer} (hb : s.buffers.get? file = some b) {found : List Diagnostic}
    (h : (s.diagnostics parser file).1 = .ok found) :
    (s.settings.diagnostics.noSyntaxValidation = true → found = []) ∧
    (s.settings.diagnostics.noSyntaxValidation = false →
      found = [] ∨ found = Diagnostic.ofSource (.parse parser file (some b.version)
        (.ofFileName file s.settings.compiler.allowJs) b.text)) ∧
    (s.settings.diagnostics.noSyntaxValidation = false →
      s.validation.noSyntaxValidation = false →
      ¬ (start config).Parted parser ops ⟨file, b.version, .diagnostics⟩ (.diagnostics found) →
      found = Diagnostic.ofSource (.parse parser file (some b.version)
        (.ofFileName file s.settings.compiler.allowJs) b.text)) := by
  obtain ⟨hs, hv⟩ := vouched_run (consistent_start config) (@vouched_start parser _ config)
    (room_start config hops)
  rw [hrun] at hs hv
  refine ⟨?_, ?_, ?_⟩
  · intro hoff
    unfold diagnostics at h
    rw [hoff] at h
    exact (Except.ok.inj h).symm
  · intro hon
    obtain ⟨w, hoptions, hheld, hfound, -⟩ := diagnostics_made hs hv hb hon h
    rw [Worker.syntaxErrors_of_buffer hheld, hoptions] at hfound
    cases hw : w.diagnostics.noSyntaxValidation with
    | true =>
        rw [hw] at hfound
        exact .inl hfound.symm
    | false =>
        rw [hw] at hfound
        exact .inr hfound.symm
  · intro hon hvalid hkept
    obtain ⟨w, hoptions, hheld, hfound, hw⟩ := diagnostics_made hs hv hb hon h
    rw [Worker.syntaxErrors_of_buffer hheld, hoptions, hw.resolve_left hkept, hvalid] at hfound
    exact hfound.symm

/-- A worker without validation is retired before it is asked, and one with validation after. What
the second has reported is given again. -/
theorem diagnostics_follow_worker_restarted :
    let parser := ParseTable.parser
      ⟨[(.typescript, "(", .mk ⟨"ERROR", 0, 1, 0, 0, true, true, false, true, []⟩ [])]⟩
    let config : Configuration := { diagnostics := { noSyntaxValidation := true } }
    let ops : List Operation := [.sync "a.ts" ⟨1⟩ "(", .files, .retire, .setDiagnostics {},
      .diagnostics "a.ts", .retire]
    let s := (start config).run parser ops
    ∃ found, (s.diagnostics parser "a.ts").1 = .ok found ∧ found ≠ [] ∧
      s.settings.diagnostics.noSyntaxValidation = false ∧
      s.validation.noSyntaxValidation = false ∧
      ¬ (start config).Parted parser ops ⟨"a.ts", ⟨1⟩, .diagnostics⟩ (.diagnostics found) ∧
      found = Diagnostic.ofSource (.parse parser "a.ts" (some ⟨1⟩)
        (.ofFileName "a.ts" s.settings.compiler.allowJs) "(") := by
  intro parser config ops s
  have hops : changes ops < UInt64.size := by decide
  have hb : s.buffers.get? "a.ts" = some ⟨⟨1⟩, "(", true⟩ := by decide +kernel
  have hfound : (s.diagnostics parser "a.ts").1 = .ok [⟨"Syntax error.", .error, 0, 1, 0, 0⟩] := by
    decide +kernel
  have hon : s.settings.diagnostics.noSyntaxValidation = false := by decide +kernel
  have hvalid : s.validation.noSyntaxValidation = false := by decide +kernel
  have hsplit : ∀ before ∈ ops.inits, before ++ [.retire] ∈ ops.inits →
      before = ops.take 2 ∨ before = ops.take 5 := by decide +kernel
  have hnone : ((start config).run parser (ops.take 2)).cache = .empty := by decide +kernel
  have hagree : ∀ r ∈ ((start config).run parser (ops.take 5)).running,
      r.worker.basis .diagnostics =
        ((start config).run parser (ops.take 5)).settings.basis .diagnostics := by decide +kernel
  have hkept : ∀ payload,
      ¬ (start config).Parted parser ops ⟨"a.ts", ⟨1⟩, .diagnostics⟩ payload := by
    rintro payload ⟨before, after, heq, -, hkey, r, hr, -, hdiffers⟩
    rcases hsplit before ((List.mem_inits _ _).2 ⟨_, heq.symm⟩)
      ((List.mem_inits _ _).2 ⟨after, by simp [heq]⟩) with rfl | rfl
    · rw [hnone] at hkey
      cases hkey
    · exact hdiffers (hagree r hr)
  have hrun : (start config).run parser ops = s := rfl
  clear_value s
  obtain ⟨-, -, hreported⟩ := diagnostics_follow_worker parser config ops hops hrun hb hfound
  exact ⟨_, hfound, by simp, hon, hvalid, hkept _, hreported hon hvalid (hkept _)⟩

/-- Validation is turned on while a worker is running that was started without. The syntax error of
the open buffer is not reported. -/
theorem diagnostics_missed :
    let parser := ParseTable.parser
      ⟨[(.typescript, "(", .mk ⟨"ERROR", 0, 1, 0, 0, true, true, false, true, []⟩ [])]⟩
    let s := (start { diagnostics := { noSyntaxValidation := true } }).run parser
      [.sync "a.ts" ⟨1⟩ "(", .files, .setDiagnostics {}]
    s.settings.diagnostics.noSyntaxValidation = false ∧
    s.buffers.get? "a.ts" = some ⟨⟨1⟩, "(", true⟩ ∧
    (s.diagnostics parser "a.ts").1 = .ok [] ∧
    Diagnostic.ofSource (.parse parser "a.ts" (some ⟨1⟩)
      (.ofFileName "a.ts" s.settings.compiler.allowJs) "(") ≠ [] := by
  decide +kernel

end ScriptLens.Session
