import ScriptLens.Proofs.Session.Agreement
import ScriptLens.Proofs.Session.Coherence

namespace ScriptLens.Session

variable {parser : Parser} {s : Session} {p : PlainSession} {op : Operation}

/-- Of an operation: the reply is that of the plain session, and the worker comes to hold an older
version of a file only by a sync that is not sent at once. -/
structure Matched (parser : Parser) (s : Session) (op : Operation) (p : PlainSession) : Prop where
  reply : (s.step parser op).1 = (p.step parser op).1
  agreed : Agreed parser (s.step parser op).2 (p.step parser op).2
  owed : ∀ file, (s.step parser op).2.Owed file →
    (s.settings.eagerSync = false ∧ ∃ version text, op = .sync file version text ∧
      (s.step parser op).1 = .ok .done) ∨
    (s.Owed file ∧ op ≠ .close file ∧ (op.asksWorker && (s.step parser op).1.isOk) = false)

theorem not_owed_of_synced (h : ∀ file b, s.buffers.get? file = some b → b.synced = true)
    (file : String) : ¬ s.Owed file := by
  rintro ⟨b, hb, hsynced, -⟩
  rw [h file b hb] at hsynced
  cases hsynced

/-- All requests are alike: `asked` is the session's answer, of which the operation takes a part. -/
theorem matched_request {asked : Except SessionError Payload × Session} {request : Request}
    {payload : Payload} {α : Type} {method : String} {part? : Payload → Option α} {f : α → Reply}
    (hs : s.step parser op = ((partOf method part? asked.1).map f, asked.2))
    (hp : p.step parser op = (.ok (.answer payload), p))
    (hpayload : p.worker.catalog.Apart → (p.worker.respond parser request).1 = .ok payload)
    (hpart : (partOf method part? (.ok payload)).map f = .ok (.answer payload))
    (hasked : (∀ m, asked.1 ≠ .error (.worker m)) → Answered parser p request asked)
    (hworker : ∀ m, (s.step parser op).1 ≠ .error (.worker m)) : Matched parser s op p := by
  have hworker' : ∀ m, asked.1 ≠ .error (.worker m) := by
    intro m hm
    apply hworker m
    rw [hs, hm]
    rfl
  have hanswered := hasked hworker'
  constructor
  · rw [hs, hp, ← hpart, hanswered.answer, hpayload hanswered.apart]
    rfl
  · rw [hs, hp]
    exact hanswered.agreed
  · intro file howed
    rw [hs] at howed
    exact absurd howed (not_owed_of_synced hanswered.synced file)

theorem Agreed.matched_diagnostics (h : Agreed parser s p) {file : String}
    (hworker : ∀ m, (s.step parser (.diagnostics file)).1 ≠ .error (.worker m)) :
    Matched parser s (.diagnostics file) p := by
  cases hoff : s.settings.diagnostics.noSyntaxValidation with
  | false =>
      apply matched_request
      case hs =>
        simp only [Session.step, Session.diagnostics, hoff]
        rfl
      case hp => rfl
      case hpayload => exact fun _ => p.respond_diagnostics parser file
      case hpart => rfl
      case hasked => exact h.askCached file .diagnostics
      case hworker => exact hworker
  | true =>
      have hs : s.step parser (.diagnostics file) = (.ok (.answer (.diagnostics [])), s) := by
        simp only [Session.step, Session.diagnostics, hoff]
        rfl
      constructor
      · rw [hs]
        simp only [PlainSession.step, PlainSession.syntaxErrors, ← h.settings, hoff]
      · rw [hs]
        exact h
      · intro name howed
        rw [hs] at howed
        exact .inr ⟨howed, by simp, rfl⟩

theorem Agreed.matched_retire (h : Agreed parser s p) : Matched parser s .retire p := by
  refine ⟨rfl, h.retire, ?_⟩
  rintro file ⟨b, -, -, hheld⟩
  exact absurd rfl hheld

theorem Agreed.matched_close (h : Agreed parser s p) {file : String} (howed : ¬ s.Owed file) :
    Matched parser s (.close file) p := by
  refine ⟨?_, h.close howed, ?_⟩
  · change Except.ok (Reply.flag (s.close parser file).1) = _
    rw [h.close_fst]
    rfl
  · intro name howed'
    by_cases hname : name = file
    · obtain ⟨b, hb, -⟩ := howed'
      change (s.close parser file).2.buffers.get? name = some b at hb
      rw [get?_close, if_pos hname] at hb
      cases hb
    · right
      obtain ⟨b, hb, hsynced, hheld⟩ := howed'
      change (s.close parser file).2.buffers.get? name = some b at hb
      change (s.close parser file).2.heldSource name ≠ none at hheld
      rw [get?_close, if_neg hname] at hb
      rw [heldSource_close_of_ne s hname] at hheld
      exact ⟨⟨b, hb, hsynced, hheld⟩, by simpa using Ne.symm hname, rfl⟩

theorem Agreed.get? (h : Agreed parser s p) (file : String) :
    p.buffers.get? file = (s.buffers.get? file).map Buffer.source := by
  rw [← h.sources, Table.get?_map]

theorem Agreed.sync_of_new (h : Agreed parser s p) {file : String} {version : Version}
    (hnew : ∀ b, s.buffers.get? file = some b → b.version < version) (text : String) :
    p.sync file version text = (.ok .done, p.openBuffer file version text) := by
  have hget := h.get? file
  cases hb : s.buffers.get? file with
  | none =>
      rw [hb] at hget
      simp only [PlainSession.sync, hget, Option.map_none]
  | some b =>
      rw [hb] at hget
      have hlt : ¬ version ≤ b.source.version := Version.not_le.2 (hnew b hb)
      simp only [PlainSession.sync, hget, Option.map_some, if_neg hlt]

section sync

variable {file : String} {version : Version} {text : String}

theorem Agreed.matched_stale (h : Agreed parser s p) {b : Buffer}
    (hb : s.buffers.get? file = some b) (hle : version ≤ b.version)
    (hs : s.sync parser file version text = (.error (.staleVersion file b.version version), s)) :
    Matched parser s (.sync file version text) p := by
  have hstep : s.step parser (.sync file version text) =
      (.error (.staleVersion file b.version version), s) := by
    rw [Session.step, hs]
    rfl
  have hplain : p.step parser (.sync file version text) =
      (.error (.staleVersion file b.version version), p) := by
    have hle' : version ≤ b.source.version := hle
    simp only [PlainSession.step, PlainSession.sync, h.get?, hb, Option.map_some, if_pos hle']
    rfl
  constructor
  · rw [hstep, hplain]
  · rw [hstep, hplain]
    exact h
  · intro name howed
    rw [hstep] at howed
    exact .inr ⟨howed, by simp, rfl⟩

/-- With eager sync the worker is brought up to date at once. -/
theorem Agreed.matched_sent (h : Agreed parser s p)
    (hnew : ∀ b, s.buffers.get? file = some b → b.version < version)
    (hs : s.sync parser file version text =
      (((s.openBuffer file version text).prepare parser).1.map fun _ => (),
        ((s.openBuffer file version text).prepare parser).2))
    (hworker : ∀ m, (s.step parser (.sync file version text)).1 ≠ .error (.worker m)) :
    Matched parser s (.sync file version text) p := by
  have hplain : p.step parser (.sync file version text) =
      (.ok .done, p.openBuffer file version text) := h.sync_of_new hnew text
  cases hprepare : (s.openBuffer file version text).prepare parser with
  | mk result s' =>
      rw [hprepare] at hs
      cases result with
      | error e =>
          obtain ⟨m, rfl⟩ := prepare_error hprepare
          rw [Session.step, hs] at hworker
          exact absurd rfl (hworker m)
      | ok r =>
          have hstep : s.step parser (.sync file version text) = (.ok .done, s') := by
            rw [Session.step, hs]
            rfl
          constructor
          · rw [hstep, hplain]
          · rw [hstep, hplain]
            exact (h.enter file version text).prepare hprepare
          · intro name howed
            rw [hstep] at howed
            exact absurd howed (not_owed_of_synced (ready_of_prepare hprepare).synced name)

theorem Agreed.matched_unsent (h : Agreed parser s p)
    (hnew : ∀ b, s.buffers.get? file = some b → b.version < version)
    (heager : s.settings.eagerSync = false)
    (hs : s.sync parser file version text = (.ok (), s.openBuffer file version text)) :
    Matched parser s (.sync file version text) p := by
  have hstep : s.step parser (.sync file version text) =
      (.ok .done, s.openBuffer file version text) := by
    rw [Session.step, hs]
    rfl
  have hplain : p.step parser (.sync file version text) =
      (.ok .done, p.openBuffer file version text) := h.sync_of_new hnew text
  constructor
  · rw [hstep, hplain]
  · rw [hstep, hplain]
    exact h.enter file version text
  · intro name howed
    by_cases hname : name = file
    · subst hname
      exact .inl ⟨heager, version, text, rfl, congrArg Prod.fst hstep⟩
    · right
      rw [hstep] at howed
      obtain ⟨b, hb, hsynced, hheld⟩ := howed
      rw [get?_openBuffer, if_neg hname] at hb
      exact ⟨⟨b, hb, hsynced, hheld⟩, by simp, rfl⟩

theorem Agreed.matched_sync (h : Agreed parser s p)
    (hworker : ∀ m, (s.step parser (.sync file version text)).1 ≠ .error (.worker m)) :
    Matched parser s (.sync file version text) p := by
  obtain ⟨b, hb, hle, hs⟩ | ⟨hnew, ⟨-, hs⟩ | ⟨heager, hs⟩⟩ := sync_cases parser s file version text
  · exact h.matched_stale hb hle hs
  · exact h.matched_sent hnew hs hworker
  · exact h.matched_unsent hnew heager hs

end sync

theorem step_plain (hsettings : s.settings = p.settings) (hop : op.changesSettings = true) :
    p.step parser op =
      ((s.step parser op).1, p.withSettings (s.step parser op).2.settings) := by
  cases op with
  | setCompiler | setDiagnostics | setLibs | dispose =>
      simp only [PlainSession.step, ← hsettings]
      rfl
  | addLib clock content path =>
      cases hadd : s.settings.addLib clock content path with
      | error e =>
          simp only [PlainSession.step, Session.step, ← hsettings, hadd]
          rw [hsettings]
          rfl
      | ok added =>
          simp only [PlainSession.step, Session.step, ← hsettings, hadd]
          rfl
  | sync | close | files | version | text | outline | references | diagnostics | retire => cases hop

theorem eagerSync_step (s : Session) (op : Operation) :
    (s.step parser op).2.settings.eagerSync = s.settings.eagerSync := by
  cases hop : op.changesSettings with
  | true =>
      obtain hs | ⟨libs, compiler, diagnostics, hs, -⟩ := @step_settings parser op s hop
      · rw [hs]
      · rw [hs]
        rfl
  | false => rw [(step_moves_of_same hop s).settings_eq hop]

theorem Agreed.matched_change (h : Agreed parser s p) (hroom : s.Room [op])
    (hop : op.changesSettings = true) (hdiag : ∀ options, op ≠ .setDiagnostics options) :
    Matched parser s op p := by
  have hplain := @step_plain parser s p op h.settings hop
  refine ⟨by rw [hplain], ?_, ?_⟩
  · rw [hplain]
    obtain hs | ⟨libs, compiler, diagnostics, hs, hsame⟩ := @step_settings parser op s hop
    · rw [hs]
      change Agreed parser s { p with settings := s.settings }
      rw [h.settings]
      exact h
    · rw [hs]
      have hlt := hroom.lt_succ hop
      exact h.change hlt (hsame.resolve_right (hdiag diagnostics))
  · intro file howed
    have howed' : s.Owed file := by
      obtain ⟨settings, hs, -⟩ := @step_changesSettings parser op s hop
      rw [hs] at howed
      exact howed
    refine .inr ⟨howed', ?_, ?_⟩
    · rintro rfl
      cases hop
    · cases op with
      | setCompiler | setDiagnostics | setLibs | dispose | addLib => rfl
      | sync | close | files | version | text | outline | references | diagnostics | retire =>
          cases hop

theorem Agreed.step (h : Agreed parser s p) (hroom : s.Room [op])
    (hdiag : ∀ options, op ≠ .setDiagnostics options)
    (howed : ∀ file, op = .close file → ¬ s.Owed file)
    (hworker : ∀ m, (s.step parser op).1 ≠ .error (.worker m)) : Matched parser s op p := by
  cases hop : op.changesSettings with
  | true => exact h.matched_change hroom hop hdiag
  | false =>
      cases op with
      | sync => exact h.matched_sync hworker
      | close file => exact h.matched_close (howed file rfl)
      | files =>
          have hpayload := p.respond_files parser
          exact matched_request rfl rfl (fun _ => hpayload) rfl (h.ask fun _ => rfl) hworker
      | version file =>
          have hpayload := p.respond_version parser file
          exact matched_request rfl rfl (fun _ => hpayload) rfl (h.ask fun _ => rfl) hworker
      | text file =>
          have hpayload := p.respond_text parser file
          exact matched_request rfl rfl (fun _ => hpayload) rfl (h.ask fun _ => rfl) hworker
      | outline file =>
          have hpayload := p.respond_outline parser file
          exact matched_request rfl rfl (fun _ => hpayload) rfl (h.askCached file .outline) hworker
      | references file roots =>
          have hpayload (hapart : p.worker.catalog.Apart) :=
            p.respond_references parser file hapart roots
          exact matched_request rfl rfl hpayload rfl (h.askCached file (.references roots)) hworker
      | diagnostics => exact h.matched_diagnostics hworker
      | retire => exact h.matched_retire
      | setCompiler | setDiagnostics | addLib | dispose | setLibs => cases hop

/-- A session and a plain one that agree reply alike to a run of operations, if the worker rejects
nothing, and every version it does not have yet gets to it before the file is closed. -/
theorem Agreed.trace_eq (h : Agreed parser s p) {ops : List Operation} (hroom : s.Room ops)
    (hworker : ∀ op m, (op, .error (.worker m)) ∉ trace (Session.step parser) s ops)
    (hdiag : ∀ options, .setDiagnostics options ∉ ops)
    (hattended : s.settings.eagerSync = true ∨ attended (trace (Session.step parser) s ops) = true)
    (howed : ∀ file, s.Owed file →
      askedBeforeClose file (trace (Session.step parser) s ops) = true) :
    trace (Session.step parser) s ops = trace (PlainSession.step parser) p ops := by
  induction ops generalizing s p with
  | nil => rfl
  | cons op ops ih =>
      have hone : s.Room ([op] ++ ops) := hroom
      simp only [trace, List.mem_cons, not_or] at hworker hdiag hattended howed ⊢
      have hmatched : Matched parser s op p := by
        refine h.step hone.left (fun options heq => (hdiag options).1 heq.symm) ?_ ?_
        · rintro file rfl hfile
          have hasked := howed file hfile
          simp [askedBeforeClose] at hasked
        · intro m hm
          exact (hworker op m).1 (by rw [hm])
      have hrest : trace (Session.step parser) (s.step parser op).2 ops =
          trace (PlainSession.step parser) (p.step parser op).2 ops := by
        refine ih hmatched.agreed hone.run (fun op m => (hworker op m).2)
          (fun options => (hdiag options).2) ?_ ?_
        · rw [eagerSync_step]
          exact hattended.imp_right attended_tail
        · intro file hfile
          -- what is owed now is owed since this operation, or was owed before it
          rcases hmatched.owed file hfile with ⟨heager, version, text, rfl, hreply⟩ | ⟨ho, hne, hask⟩
          · have hasked := hattended.resolve_left (by simp [heager])
            rw [hreply, attended, Bool.and_eq_true] at hasked
            exact hasked.1
          · have hasked := howed file ho
            simpa [askedBeforeClose, hne, hask] using hasked
      rw [hmatched.reply, hrest]

theorem not_owed_start (config : Configuration) (file : String) : ¬ (start config).Owed file := by
  rintro ⟨b, hb, -⟩
  cases hb

/-- No reply tells a session from a plain one, in a run where the worker rejects nothing, the
diagnostics options stay, and some request is answered between a sync of a file and its close. -/
theorem trace_eq_plain (parser : Parser) (config : Configuration) (ops : List Operation)
    (hops : changes ops < UInt64.size)
    (hworker : ∀ op m, (op, .error (.worker m)) ∉ trace (Session.step parser) (start config) ops)
    (hdiag : ∀ options, .setDiagnostics options ∉ ops)
    (hattended : config.eagerSync = true ∨
      attended (trace (Session.step parser) (start config) ops) = true) :
    trace (Session.step parser) (start config) ops =
      trace (PlainSession.step parser) (.start config) ops :=
  (agreed_start config).trace_eq (room_start config hops) hworker hdiag hattended
    fun file howed => absurd howed (not_owed_start config file)

/-- Buffers that are replaced, closed and opened again under a lower version, with a stale version,
kept answers, a retired worker and new options on the way. -/
theorem trace_eq_plain_reopened :
    let node (type : String) (start stop : UInt64) (fields : List Field) (below : List Node) : Node :=
      .mk ⟨type, start, stop, 0, start, true, type = "ERROR", false, true, fields⟩ below
    let text := "function f() \x7b Things.x \x7d )"
    let tree := node "program" 0 27 []
      [node "function_declaration" 0 25 []
        [node "identifier" 9 10 [.name] [],
         node "statement_block" 13 25 [.body]
          [node "member_expression" 15 23 []
            [node "identifier" 15 21 [.object] [], node "property_identifier" 22 23 [.property] []]]],
       node "ERROR" 26 27 [] []]
    let parser := ParseTable.parser ⟨[(.typescript, text, tree)]⟩
    let ops : List Operation := [.addLib 0 "" (some "lib.d.ts"), .sync "a.ts" ⟨1⟩ "", .outline "a.ts",
      .sync "b.ts" ⟨7⟩ "", .sync "a.ts" ⟨2⟩ text, .outline "a.ts", .retire, .outline "a.ts",
      .close "b.ts", .sync "b.ts" ⟨1⟩ "", .sync "a.ts" ⟨2⟩ "", .setCompiler .plainScript,
      .references "a.ts" ["Things"], .version "a.ts", .text "a.ts", .diagnostics "a.ts",
      .close "a.ts", .sync "a.ts" ⟨1⟩ "", .files, .diagnostics "b.ts"]
    let events := trace (Session.step parser) (start {}) ops
    changes ops < UInt64.size ∧
    (∀ op m, (op, .error (.worker m)) ∉ events) ∧
    (∀ options, .setDiagnostics options ∉ ops) ∧
    attended events = true ∧
    events = trace (PlainSession.step parser) (.start {}) ops ∧
    (.outline "a.ts", .ok (.answer (.outline [⟨"f", .function, 1, 0, 0⟩]))) ∈ events ∧
    (.references "a.ts" ["Things"],
      .ok (.answer (.references ((References.ofRoots ["Things"]).record "Things" "x")))) ∈ events ∧
    (.version "a.ts", .ok (.answer (.version (some ⟨2⟩)))) ∈ events ∧
    (.text "a.ts", .ok (.answer (.text (some text)))) ∈ events ∧
    (.diagnostics "a.ts",
      .ok (.answer (.diagnostics [⟨"Syntax error.", .error, 26, 1, 0, 26⟩]))) ∈ events ∧
    (.files, .ok (.answer (.files ["b.ts", "a.ts", "lib.d.ts", "defaultLib:lib.es6.d.ts"]))) ∈
      events := by
  intro node text tree parser ops events
  have hops : changes ops < UInt64.size := by decide
  have haccepted : ∀ e ∈ events,
      (match e.2 with | .error (.worker _) => false | _ => true) = true := by decide +kernel
  have hworker : ∀ op m, (op, .error (.worker m)) ∉ events := by
    intro op m hmem
    cases haccepted _ hmem
  have hdiag : ∀ options, .setDiagnostics options ∉ ops := by simp [ops]
  have hattended : attended events = true := by decide +kernel
  refine ⟨hops, hworker, hdiag, hattended,
    trace_eq_plain parser {} ops hops hworker hdiag (.inr hattended), ?_⟩
  decide +kernel

end ScriptLens.Session
