import Mathlib.Data.List.Infix
import ScriptLens.Proofs.Session.Snapshot
import ScriptLens.Proofs.Session.Trailing
import ScriptLens.Source.ParseTable

namespace ScriptLens.Session

variable {parser : Parser} {op : Operation} {s s' : Session}

def reachesWorker (s : Session) : Operation → Bool
  | .files | .version _ | .text _ | .outline _ | .references .. => true
  | .diagnostics _ => !s.settings.diagnostics.noSyntaxValidation
  | .sync .. => s.settings.eagerSync
  | _ => false

theorem ready_of_ask {request : Request} (hread : ∀ w : Worker, (w.respond parser request).2 = w)
    {payload : Payload} (h : s.ask parser request = (.ok payload, s')) : ∃ r, Ready s' r s' := by
  obtain ⟨r, hprepare, -⟩ := ask_eq_ok hread h
  exact ⟨r, (ready_of_prepare hprepare).self⟩

theorem ready_of_askCached {file : String} {q : Question} {payload : Payload}
    (h : s.askCached parser file q.query (q.request file) = (.ok payload, s')) :
    ∃ r, Ready s' r s' := by
  obtain ⟨r, s₁, hprepare⟩ := prepare_of_askCached (congrArg Prod.fst h)
  obtain ⟨cache, heq⟩ := @askCached_snd parser s file q
  rw [h, hprepare] at heq
  obtain rfl : s' = { s₁ with cache } := heq
  have hready := (ready_of_prepare hprepare).self
  exact ⟨r, hready.running, hready.revision, rfl, hready.cacheRevision, rfl, hready.synced⟩

/-- All requests are alike: `asked` is the answer, of which the operation takes a part. -/
theorem ready_of_request {asked : Except SessionError Payload × Session} {α : Type}
    {method : String} {part? : Payload → Option α} {f : α → Reply} {reply : Reply}
    (hasked : ∀ payload, asked = (.ok payload, s') → ∃ r, Ready s' r s')
    (h : ((partOf method part? asked.1).map f, asked.2) = (.ok reply, s')) :
    ∃ r, Ready s' r s' := by
  obtain ⟨answer, s₁⟩ := asked
  cases answer with
  | error e => cases congrArg Prod.fst h
  | ok payload =>
      cases congrArg Prod.snd h
      exact hasked payload rfl

theorem ready_of_step (hop : s.reachesWorker op = true) {reply : Reply}
    (h : s.step parser op = (.ok reply, s')) : ∃ r, Ready s' r s' := by
  cases op with
  | sync file version text =>
      change ((s.sync parser file version text).1.map _, (s.sync parser file version text).2) = _ at h
      obtain ⟨b, -, -, heq⟩ | ⟨-, ⟨-, heq⟩ | ⟨heager, -⟩⟩ := sync_cases parser s file version text
      · rw [heq] at h
        cases congrArg Prod.fst h
      · rw [heq] at h
        cases hprepare : (s.openBuffer file version text).prepare parser with
        | mk result s₁ =>
            rw [hprepare] at h
            cases result with
            | error e => cases congrArg Prod.fst h
            | ok r =>
                cases congrArg Prod.snd h
                exact ⟨r, (ready_of_prepare hprepare).self⟩
      · rw [reachesWorker, heager] at hop
        cases hop
  | files => exact ready_of_request (fun _ => ready_of_ask fun _ => rfl) h
  | version file => exact ready_of_request (fun _ => ready_of_ask fun _ => rfl) h
  | text file => exact ready_of_request (fun _ => ready_of_ask fun _ => rfl) h
  | outline file => exact ready_of_request (fun _ => @ready_of_askCached _ _ _ file .outline _) h
  | references file roots =>
      exact ready_of_request (fun _ => @ready_of_askCached _ _ _ file (.references roots) _) h
  | diagnostics file =>
      have hon : s.settings.diagnostics.noSyntaxValidation = false := by
        simpa [reachesWorker] using hop
      simp only [Session.step, Session.diagnostics, hon, Bool.false_eq_true, if_false] at h
      exact ready_of_request (fun _ => @ready_of_askCached _ _ _ file .diagnostics _) h
  | close | setCompiler | setDiagnostics | addLib | dispose | setLibs | retire => cases hop

theorem Trailing.catalog_eq (h : s.Trailing) (hs : s.Consistent) {r : Running}
    (hprepare : s.prepare parser = (.ok r, s))
    (hlibs : r.worker.catalog.auxiliary = s.settings.libs.map .declaration) :
    r.worker.catalog = s.snapshot := by
  refine catalog_prepare hs (fun r hr => (h r hr).order) ?_ hprepare
  intro r' hr' _
  cases (ready_of_prepare hprepare).running.symm.trans hr'
  exact hlibs

theorem catalog_retire (hs : s.Consistent) {r : Running}
    (h : s.retire.prepare parser = (.ok r, s')) : r.worker.catalog = s.snapshot := by
  change r.worker.catalog = s.retire.snapshot
  refine catalog_prepare hs.retire ?_ ?_ h <;> intro r hr <;> cases hr

theorem files_retire_iff (hs : s.Consistent) :
    (∃ names s', s.retire.files parser = (.ok names, s')) ↔ s.snapshot.Apart := by
  have hnext : (∃ r s', s.retire.prepare parser = (.ok r, s')) ↔ s.snapshot.Apart :=
    prepare_idle_iff hs.retire rfl
  rw [← hnext]
  constructor
  · rintro ⟨names, s', hnames⟩
    obtain ⟨r, hprepare, -⟩ := files_eq_ok hnames
    exact ⟨r, s', hprepare⟩
  · rintro ⟨r, s', hprepare⟩
    exact ⟨_, s', files_of_prepare hprepare⟩

/-- What a request finds after the worker was retired: the next worker has the snapshot, if no name
is in two sections of it, and the open buffers stay. Where the worker that was retired had taken the
declaration files and heard of every close, its catalog was the snapshot, so the names listed are the
same. -/
theorem files_retire (parser : Parser) (config : Configuration) (ops : List Operation)
    (op : Operation) (hops : changes (ops ++ [op]) < UInt64.size) {s₀ s : Session}
    (hrun : (start config).run parser ops = s₀) (hop : s₀.reachesWorker op = true) {reply : Reply}
    (hstep : s₀.step parser op = (.ok reply, s)) :
    ∃ r, s.running = some r ∧ s.files parser = (.ok r.worker.catalog.files, s) ∧
      ((∃ names s', s.retire.files parser = (.ok names, s')) ↔ s.snapshot.Apart) ∧
      (∀ names s', s.retire.files parser = (.ok names, s') →
        names = s.snapshot.files ∧ s'.buffers = s.buffers ∧
        ∃ r', s'.running = some r' ∧ r'.worker.catalog = s.snapshot) ∧
      ((start config).Heard parser ops →
        r.worker.catalog.auxiliary = s.settings.libs.map .declaration →
        r.worker.catalog = s.snapshot ∧
        ∃ s', s.retire.files parser = (.ok r.worker.catalog.files, s')) := by
  obtain ⟨r, hready⟩ := ready_of_step hop hstep
  have hroom := room_start config hops
  have hs₀ : s₀.Consistent := hrun ▸ (consistent_start config).run hroom.left
  have hs : s.Consistent := by
    have hlast : ((start config).run parser (ops ++ [op])).Consistent :=
      (consistent_start config).run hroom
    rwa [run_concat, hrun, hstep] at hlast
  have hprepare : s.prepare parser = (.ok r, s) := prepare_of_ready hready
  have hnext : ∀ names s', s.retire.files parser = (.ok names, s') →
      names = s.snapshot.files ∧ s'.buffers = s.buffers ∧
      ∃ r', s'.running = some r' ∧ r'.worker.catalog = s.snapshot := by
    intro names s' hnames
    obtain ⟨r', hprepare', rfl⟩ := files_eq_ok hnames
    have hready' := ready_of_prepare hprepare'
    have hcatalog := catalog_retire hs hprepare'
    exact ⟨by rw [hcatalog], hready'.buffers_eq hready.synced, r', hready'.running, hcatalog⟩
  refine ⟨r, hready.running, files_of_prepare hprepare, files_retire_iff hs, hnext, ?_⟩
  intro hheard hlibs
  have htrailing : s.Trailing := by
    have hbefore : s₀.Trailing :=
      hrun ▸ (trailing_start config).run (consistent_start config) hroom.left hheard
    have hafter : (s₀.step parser op).2.Trailing := by
      apply hbefore.step hs₀
      rintro file rfl
      cases hop
    rwa [hstep] at hafter
  have hcatalog := htrailing.catalog_eq hs hprepare hlibs
  have hapart : s.snapshot.Apart := hcatalog ▸ hs.apart r hready.running
  obtain ⟨names, s', hnames⟩ := (@files_retire_iff parser s hs).2 hapart
  obtain ⟨rfl, -, -⟩ := hnext names s' hnames
  exact ⟨hcatalog, s', by rw [hnames, hcatalog]⟩

/-- Declaration files, buffers that are replaced and closed, and a worker that is retired twice. -/
theorem files_retire_reopened :
    let parser := ParseTable.parser ⟨[]⟩
    let ops : List Operation := [.addLib 0 "" (some "lib.d.ts"), .sync "a.ts" ⟨1⟩ "",
      .sync "b.ts" ⟨1⟩ "", .files, .close "a.ts", .retire, .sync "a.ts" ⟨1⟩ "", .files,
      .sync "b.ts" ⟨2⟩ ""]
    let s₀ := (start {}).run parser ops
    let s := (s₀.step parser (.outline "b.ts")).2
    ∃ s', s.retire.files parser = (.ok ["b.ts", "a.ts", "lib.d.ts", "defaultLib:lib.es6.d.ts"], s') ∧
      s'.buffers = s.buffers := by
  intro parser ops s₀ s
  have hops : changes (ops ++ [.outline "b.ts"]) < UInt64.size := by decide
  have hstep : (s₀.step parser (.outline "b.ts")).1 = .ok (.answer (.outline [])) := by
    decide +kernel
  have hlibs : ∀ r ∈ s.running, r.worker.catalog.auxiliary = s.settings.libs.map .declaration := by
    decide +kernel
  have hfiles : ∀ r ∈ s.running, r.worker.catalog.files =
      ["b.ts", "a.ts", "lib.d.ts", "defaultLib:lib.es6.d.ts"] := by decide +kernel
  have hsplit : ∀ before ∈ ops.inits, before ++ [.close "a.ts"] ∈ ops.inits →
      before = ops.take 4 := by decide +kernel
  have hheld : ((start {}).run parser (ops.take 4)).buffers.get? "a.ts" =
      some ⟨⟨1⟩, "", true⟩ := by decide +kernel
  have hheard : (start {}).Heard parser ops := by
    rintro before file after heq - ⟨b, hb, hsynced, -⟩
    have hclose : .close file ∈ ops := by simp [heq]
    obtain rfl : file = "a.ts" := by simpa [ops] using hclose
    obtain rfl := hsplit before ((List.mem_inits _ _).2 ⟨_, heq.symm⟩)
      ((List.mem_inits _ _).2 ⟨after, by simp [heq]⟩)
    cases hheld.symm.trans hb
    cases hsynced
  have hrun : (start {}).run parser ops = s₀ := rfl
  have hs : (s₀.step parser (.outline "b.ts")).2 = s := rfl
  clear_value s s₀ parser
  obtain ⟨r, hr, -, -, hnext, hsame⟩ :=
    files_retire parser {} ops _ hops hrun rfl (Prod.ext hstep hs)
  obtain ⟨-, s', hnames⟩ := hsame hheard (hlibs r hr)
  rw [hfiles r hr] at hnames
  exact ⟨s', hnames, (hnext _ s' hnames).2.1⟩

/-- Declaration files are set of which one has the name of an open buffer. The worker rejects them
and goes on, but the next one takes them first and rejects the buffer, which is lost: from then on
its name stands for the declaration file. A closed buffer that the worker was left with is gone with
the worker. -/
theorem files_retire_ne :
    let parser := ParseTable.parser ⟨[]⟩
    let s := (start {}).run parser
      [.sync "b.ts" ⟨1⟩ "", .files, .setLibs [("b.ts", "")], .files, .files]
    let t := (start {}).run parser
      [.sync "a.ts" ⟨1⟩ "", .files, .sync "a.ts" ⟨2⟩ "", .close "a.ts", .files]
    (s.files parser).1 = .ok ["b.ts", "defaultLib:lib.es6.d.ts"] ∧
    (s.retire.files parser).1 = .error (.worker "Source already registered: b.ts") ∧
    s.buffers.contains "b.ts" = true ∧ (s.retire.files parser).2.buffers.contains "b.ts" = false ∧
    (s.retire.files parser).2.running.map (·.worker.catalog.origin? "b.ts") =
      some (some .auxiliaryDeclaration) ∧
    (t.files parser).1 = .ok ["a.ts", "defaultLib:lib.es6.d.ts"] ∧
    (t.retire.files parser).1 = .ok ["defaultLib:lib.es6.d.ts"] := by
  decide +kernel

end ScriptLens.Session
