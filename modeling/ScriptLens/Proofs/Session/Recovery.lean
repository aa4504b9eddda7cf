import Mathlib.Data.List.Perm.Subperm
import ScriptLens.Proofs.Session.Kept
import ScriptLens.Source.ParseTable

namespace ScriptLens

def Operation.isQuery : Operation → Bool
  | .files | .version _ | .text _ | .outline _ | .references .. | .diagnostics _ => true
  | _ => false

def Query.fits : Query → Payload → Bool
  | .outline, .outline _ | .references _, .references _ | .diagnostics, .diagnostics _ => true
  | _, _ => false

namespace Session

variable {parser : Parser} {op : Operation} {s s' : Session}

/-- The number of open buffers that the running worker has not been sent in their present version:
all of them, if none is running. -/
def unsent (s : Session) : Nat :=
  match s.running with
  | some _ => (pending s.buffers).length
  | none => s.buffers.size

def informed (s : Session) : Bool :=
  s.running.any (·.revision = some s.settings.revision)

def outstanding (s : Session) : Nat :=
  (if s.informed then 0 else 1) + s.unsent

theorem outstanding_le (s : Session) : s.outstanding ≤ 1 + s.unsent := by
  unfold outstanding
  split <;> omega

theorem outstanding_of_informed {r : Running} (hr : s.running = some r)
    (hrev : r.revision = some s.settings.revision) :
    s.outstanding = (pending s.buffers).length := by
  simp [outstanding, informed, unsent, hr, hrev]

theorem length_pending_ensureRunning (s : Session) :
    (pending s.ensureRunning.2.buffers).length = s.unsent := by
  unfold ensureRunning unsent
  cases s.running with
  | some r => rfl
  | none => simp [startWorker, pending, Table.map, Table.size, List.filter_map, Function.comp_def]

/-- What a rejection makes of a session. If it is of the declaration files, the worker counts as
informed of the settings from now on, and the buffers stay. Else it is of a buffer that the worker
has not been sent, which is dropped, and the others stay. -/
inductive Rejected (parser : Parser) (m : String) (s s' : Session) : Prop
  | libs (r : Running) (huninformed : s.informed = false)
      (hsettings : s'.settings = s.settings) (hr : s'.running = some r)
      (hrev : r.revision = some s.settings.revision)
      (hsources : s'.buffers.map Buffer.source = s.buffers.map Buffer.source)
      (hreply : (r.worker.respond parser (.syncLibs s.settings.libs)).1 = .error m)
  | buffer (r : Running) (file : String) (b : Buffer) (hb : s.buffers.get? file = some b)
      (hunsent : s.running = none ∨ b.synced = false)
      (hsettings : s'.settings = s.settings) (hr : s'.running = some r)
      (hrev : r.revision = some s.settings.revision)
      (hsources : s'.buffers.map Buffer.source = (s.buffers.map Buffer.source).erase file)
      (hreply : (r.worker.respond parser (.syncBuffer file b.version b.text)).1 = .error m)

theorem length_pending_lt {buffers buffers' : Table Buffer} {file : String}
    (hfile : file ∈ pending buffers)
    (h : ∀ name b', buffers'.get? name = some b' → b'.synced = false →
      name ≠ file ∧ buffers.get? name = some b') :
    (pending buffers').length < (pending buffers).length := by
  have hrest : ∀ name ∈ pending buffers', name ≠ file ∧ name ∈ pending buffers := by
    intro name hname
    obtain ⟨b, hb, hsynced⟩ := (mem_pending_iff _ _).1 hname
    obtain ⟨hne, hb'⟩ := h name b hb hsynced
    exact ⟨hne, (mem_pending_iff _ _).2 ⟨b, hb', hsynced⟩⟩
  have hnodup : (file :: pending buffers').Nodup :=
    List.nodup_cons.2 ⟨fun hmem => (hrest file hmem).1 rfl, nodup_pending _⟩
  have hsubset : file :: pending buffers' ⊆ pending buffers :=
    List.cons_subset.2 ⟨hfile, fun name hname => (hrest name hname).2⟩
  exact (List.subperm_of_subset hnodup hsubset).length_le

theorem rejected_of_settle {e : SessionError} (h : s.settle parser = (.error e, s')) :
    ∃ m, e = .worker m ∧ Rejected parser m s s' ∧ s'.outstanding < s.outstanding := by
  obtain ⟨hrev, r, e', hset, hcatalog, hr, rfl, rfl⟩ := settle_eq_error h
  have huninformed : s.informed = false := by
    cases hs : s.running with
    | none => simp [informed, hs]
    | some r =>
        rw [ensureRunning, hs] at hrev
        simpa [informed, hs] using hrev
  refine ⟨e'.message, rfl, .libs r huninformed (by simp) rfl hr (by simp) ?_, ?_⟩
  · simp [Worker.respond, Worker.change, hcatalog, hset]
  · rw [outstanding_of_informed rfl (by simpa using hr)]
    simp only [buffers_refreshCache, length_pending_ensureRunning, outstanding, huninformed]
    simp

theorem get?_ensureRunning {file : String} {b : Buffer}
    (h : s.ensureRunning.2.buffers.get? file = some b) (hsynced : b.synced = false) :
    ∃ b', s.buffers.get? file = some b' ∧ b'.source = b.source ∧
      (s.running = none ∨ b'.synced = false) := by
  cases hr : s.running with
  | some r =>
      rw [ensureRunning, hr] at h
      exact ⟨b, h, rfl, .inr hsynced⟩
  | none =>
      rw [ensureRunning, hr, startWorker, Table.get?_map] at h
      obtain ⟨b', hb', rfl⟩ := Option.map_eq_some_iff.1 h
      exact ⟨b', hb', rfl, .inl rfl⟩

/-- Whatever keeps a worker from being brought up to date is a rejection, after which there is less
to reject. -/
theorem rejected_of_prepare {e : SessionError} (h : s.prepare parser = (.error e, s')) :
    ∃ m, e = .worker m ∧ Rejected parser m s s' ∧ s'.outstanding < s.outstanding := by
  obtain hsettle | ⟨r₀, s₀, w, buffers, hsettle, hpush, rfl⟩ := prepare_eq_error h
  · exact rejected_of_settle hsettle
  · obtain ⟨hsent, rfl⟩ := settle_eq_ok hsettle
    have hrev := pushSettings_revision parser s.settings s.ensureRunning.1
    rw [hsent] at hrev
    obtain ⟨file, b, e', hfile, hb, hsync, rfl, hsources, hunsynced⟩ :=
      pushBuffers_eq_error (nodup_pending _) hpush
    have hless := length_pending_lt hfile hunsynced
    obtain ⟨b₀, hb₀, hsynced⟩ := (mem_pending_iff _ _).1 hfile
    cases hb.symm.trans hb₀
    simp only [buffers_refreshCache] at hb hsources hless
    obtain ⟨b', hb', hsource, hunsent⟩ := get?_ensureRunning hb hsynced
    refine ⟨e'.message, rfl, ?_, ?_⟩
    · refine .buffer _ file b' hb' hunsent (by simp) rfl hrev
        (by rw [hsources, sources_ensureRunning]) ?_
      obtain ⟨htext, hversion⟩ := Source.mk.inj hsource
      simp [Worker.respond, Worker.change, htext, hversion, hsync]
    · rw [outstanding_of_informed rfl (by simpa using hrev)]
      rw [length_pending_ensureRunning] at hless
      exact Nat.lt_of_lt_of_le hless (Nat.le_add_left _ _)

def Fitting (s : Session) : Prop :=
  ∀ key payload, s.cache.get? key = some payload → key.query.fits payload = true

theorem fitting_start (config : Configuration) : (start config).Fitting := by
  intro key payload hkey
  cases hkey

theorem fits_respond {w : Worker} {q : Question} {file : String} {payload : Payload}
    (h : (w.respond parser (q.request file)).1 = .ok payload) : q.query.fits payload = true := by
  cases q with
  | outline | references | diagnostics =>
      cases h
      rfl

theorem Fitting.move (h : s.Fitting) (hmove : Move parser op s s') : s'.Fitting := by
  intro key payload hkey
  cases hmove with
  | change | retire | push | drop => exact h key payload hkey
  | enter => exact h key payload (Cache.get?_of_forget hkey).2
  | close file =>
      obtain ⟨-, hs⟩ | ⟨b, -, ⟨r, -, -, hs⟩ | ⟨-, hs⟩⟩ := close_cases parser s file
      · rw [hs] at hkey
        exact h key payload hkey
      · rw [hs] at hkey
        exact h key payload (Cache.get?_of_forget hkey).2
      · rw [hs] at hkey
        exact h key payload (Cache.get?_of_forget hkey).2
  | settle =>
      rw [settle_eq] at hkey
      have hkey' := (get?_refreshCache hkey).2
      cases hr : s.running with
      | none =>
          rw [ensureRunning, hr] at hkey'
          exact h key payload hkey'
      | some r =>
          rw [ensureRunning, hr] at hkey'
          exact h key payload hkey'
  | keep r file b q payload' _ _ _ _ hpayload =>
      rcases Cache.get?_of_insert hkey with ⟨rfl, rfl⟩ | hkey'
      · exact fits_respond hpayload
      · exact h key payload hkey'

theorem Fitting.step (h : s.Fitting) (op : Operation) : (s.step parser op).2.Fitting := by
  -- the kind of an answer does not hang on the revision, so that may well come round
  cases hop : op.changesSettings with
  | true =>
      obtain ⟨settings, hs, -⟩ := @step_changesSettings parser op s hop
      rw [hs]
      exact h
  | false => exact (step_moves_of_same hop s).keep (fun _ _ hmove h => h.move hmove) h

theorem Fitting.run (h : s.Fitting) (ops : List Operation) : (s.run parser ops).Fitting := by
  induction ops generalizing s with
  | nil => exact h
  | cons op ops ih => exact ih (h.step op)

theorem Fitting.prepare (h : s.Fitting) {r : Running} (hprepare : s.prepare parser = (.ok r, s')) :
    s'.Fitting :=
  (Moves.of_prepare .files hprepare).keep (fun _ _ hmove h => h.move hmove) h

/-- A request is rejected, and there is less to reject, or it is answered, and made again has the
same answer and changes nothing. -/
inductive Attempt (parser : Parser) (query : Operation) (s : Session) : Prop
  | rejected (m : String) (s' : Session) (hstep : s.step parser query = (.error (.worker m), s'))
      (hrejected : Rejected parser m s s') (hless : s'.outstanding < s.outstanding)
  | answered (reply : Reply) (s' : Session) (hstep : s.step parser query = (.ok reply, s'))
      (hagain : s'.step parser query = (.ok reply, s'))

theorem ask_again {r : Running} (h : s.prepare parser = (.ok r, s')) {request : Request}
    (hread : (r.worker.respond parser request).2 = r.worker) {payload : Payload}
    (hpayload : (r.worker.respond parser request).1 = .ok payload) :
    s.ask parser request = (.ok payload, s') ∧ s'.ask parser request = (.ok payload, s') := by
  have hagain := @prepare_of_ready parser _ _ (ready_of_prepare h).self
  rw [ask_of_ready h hread, ask_of_ready hagain hread, hpayload]
  exact ⟨rfl, rfl⟩

theorem askCached_again (hs : s.Fitting) {r : Running} (h : s.prepare parser = (.ok r, s'))
    (file : String) (q : Question) :
    ∃ payload s'', q.query.fits payload = true ∧ s''.settings = s.settings ∧
      s.askCached parser file q.query (q.request file) = (.ok payload, s'') ∧
      s''.askCached parser file q.query (q.request file) = (.ok payload, s'') := by
  have hready := ready_of_prepare h
  have hagain := @prepare_of_ready parser _ _ hready.self
  obtain ⟨payload, hpayload⟩ := @respond_question_ok parser r.worker q file
  cases hb : s'.buffers.get? file with
  | none =>
      refine ⟨payload, s', fits_respond hpayload, hready.settings, ?_, ?_⟩
      · rw [askCached_of_closed h hb, hpayload]
        rfl
      · rw [askCached_of_closed hagain hb, hpayload]
        rfl
  | some b =>
      cases hkey : s'.cache.get? ⟨file, b.version, q.query⟩ with
      | some kept =>
          exact ⟨kept, s', hs.prepare h _ kept hkey, hready.settings, askCached_of_kept h hb hkey,
            askCached_of_kept hagain hb hkey⟩
      | none =>
          have hself := hready.self
          let cache := s'.cache.insert ⟨file, b.version, q.query⟩ payload
          have hkept : cache.get? ⟨file, b.version, q.query⟩ = some payload := by
            simp [cache, Cache.get?, Cache.insert]
          have hstill : Ready { s' with cache } r { s' with cache } :=
            ⟨hself.running, hself.revision, rfl, hself.cacheRevision, rfl, hself.synced⟩
          exact ⟨payload, { s' with cache }, fits_respond hpayload, hready.settings,
            askCached_of_new h hb hkey hpayload,
            askCached_of_kept (prepare_of_ready hstill) hb hkept⟩

/-- All requests are alike: `asked` gives the answer, of which the operation takes a part. -/
theorem attempt_of_asked {asked : Session → Except SessionError Payload × Session}
    {α : Type} {method : String} {part? : Payload → Option α} {f : α → Reply}
    (hstep : ∀ t : Session, t.settings = s.settings →
      t.step parser op = ((partOf method part? (asked t).1).map f, (asked t).2))
    (hrejected : ∀ e s', s.prepare parser = (.error e, s') → asked s = (.error e, s'))
    (hanswered : ∀ r s', s.prepare parser = (.ok r, s') → ∃ payload s'' a,
      part? payload = some a ∧ s''.settings = s.settings ∧
      asked s = (.ok payload, s'') ∧ asked s'' = (.ok payload, s'')) : Attempt parser op s := by
  cases hprepare : s.prepare parser with
  | mk result s' =>
      cases result with
      | error e =>
          obtain ⟨m, rfl, hrejection, hless⟩ := rejected_of_prepare hprepare
          refine .rejected m s' ?_ hrejection hless
          rw [hstep s rfl, hrejected _ _ hprepare]
          rfl
      | ok r =>
          obtain ⟨payload, s'', a, hpart, hsettings, hasked, hagain⟩ := hanswered r s' hprepare
          refine .answered (f a) s'' ?_ ?_
          · rw [hstep s rfl, hasked]
            simp [partOf, hpart, Except.map]
          · rw [hstep s'' hsettings, hagain]
            simp [partOf, hpart, Except.map]

theorem attempt_of_ask {request : Request} {α : Type} {method : String}
    {part? : Payload → Option α} {f : α → Reply}
    (hstep : ∀ t : Session, t.step parser op =
      ((partOf method part? (t.ask parser request).1).map f, (t.ask parser request).2))
    (hread : ∀ w : Worker, ∃ payload a, part? payload = some a ∧
      w.respond parser request = (.ok payload, w)) : Attempt parser op s := by
  refine attempt_of_asked (fun t _ => hstep t) ?_ ?_
  · intro e s' hprepare
    rw [ask, hprepare]
  · intro r s' hprepare
    obtain ⟨payload, a, hpart, hrespond⟩ := hread r.worker
    obtain ⟨hask, hagain⟩ := ask_again hprepare (by rw [hrespond]) (by rw [hrespond])
    exact ⟨payload, s', a, hpart, (ready_of_prepare hprepare).settings, hask, hagain⟩

theorem attempt_of_askCached (hs : s.Fitting) {file : String} {q : Question} {α : Type}
    {method : String} {part? : Payload → Option α} {f : α → Reply}
    (hstep : ∀ t : Session, t.settings = s.settings → t.step parser op =
      ((partOf method part? (t.askCached parser file q.query (q.request file)).1).map f,
        (t.askCached parser file q.query (q.request file)).2))
    (hpart : ∀ payload, q.query.fits payload = true → ∃ a, part? payload = some a) :
    Attempt parser op s := by
  refine attempt_of_asked hstep ?_ ?_
  · intro e s' hprepare
    rw [askCached, hprepare]
  · intro r s' hprepare
    obtain ⟨payload, s'', hfits, hsettings, hask, hagain⟩ := askCached_again hs hprepare file q
    obtain ⟨a, ha⟩ := hpart payload hfits
    exact ⟨payload, s'', a, ha, hsettings, hask, hagain⟩

theorem attempt_of_diagnostics (hs : s.Fitting) (file : String) :
    Attempt parser (.diagnostics file) s := by
  cases hoff : s.settings.diagnostics.noSyntaxValidation with
  | true =>
      have hstep : s.step parser (.diagnostics file) = (.ok (.answer (.diagnostics [])), s) := by
        simp only [Session.step, Session.diagnostics, hoff]
        rfl
      exact .answered _ s hstep hstep
  | false =>
      apply attempt_of_askCached (q := .diagnostics) hs
      case hstep =>
        intro t ht
        simp only [Session.step, Session.diagnostics, ht, hoff]
        rfl
      case hpart =>
        intro payload hfits
        cases payload with
        | diagnostics found => exact ⟨found, rfl⟩
        | ack | files | version | text | outline | references => cases hfits

theorem attempt_of_query (hs : s.Fitting) (hop : op.isQuery = true) : Attempt parser op s := by
  cases op with
  | files => exact attempt_of_ask (fun _ => rfl) fun w => ⟨_, _, rfl, rfl⟩
  | version file => exact attempt_of_ask (fun _ => rfl) fun w => ⟨_, _, rfl, rfl⟩
  | text file => exact attempt_of_ask (fun _ => rfl) fun w => ⟨_, _, rfl, rfl⟩
  | outline file =>
      refine attempt_of_askCached (q := .outline) hs (fun _ _ => rfl) ?_
      intro payload hfits
      cases payload with
      | outline entries => exact ⟨entries, rfl⟩
      | ack | files | version | text | references | diagnostics => cases hfits
  | references file roots =>
      refine attempt_of_askCached (q := .references roots) hs (fun _ _ => rfl) ?_
      intro payload hfits
      cases payload with
      | references refs => exact ⟨refs, rfl⟩
      | ack | files | version | text | outline | diagnostics => cases hfits
  | diagnostics file => exact attempt_of_diagnostics hs file
  | sync | close | setCompiler | setDiagnostics | addLib | dispose | setLibs | retire => cases hop

def afterAsking (parser : Parser) (s : Session) (query : Operation) (times : Nat) : Session :=
  s.run parser (.replicate times query)

theorem afterAsking_succ (s : Session) (query : Operation) (times : Nat) :
    s.afterAsking parser query (times + 1) =
      (s.step parser query).2.afterAsking parser query times := rfl

theorem afterAsking_of_answered {query : Operation} {reply : Reply}
    (h : s.step parser query = (.ok reply, s)) (times : Nat) :
    s.afterAsking parser query times = s := by
  induction times with
  | zero => rfl
  | succ times ih => rw [afterAsking_succ, h, ih]

theorem recovers (hs : s.Fitting) {query : Operation} (hquery : query.isQuery = true) :
    ∃ failures ≤ s.outstanding, ∃ reply,
      (∀ i < failures, ∃ m,
        ((s.afterAsking parser query i).step parser query).1 = .error (.worker m) ∧
        Rejected parser m (s.afterAsking parser query i) (s.afterAsking parser query (i + 1))) ∧
      ∀ i ≥ failures, ((s.afterAsking parser query i).step parser query).1 = .ok reply := by
  -- each rejection leaves less to reject, so their number is bounded by what there is
  induction hn : s.outstanding using Nat.strongRecOn generalizing s with
  | ind n ih =>
      cases @attempt_of_query parser query s hs hquery with
      | answered reply s' hstep hagain =>
          refine ⟨0, Nat.zero_le _, reply, fun i hi => absurd hi (Nat.not_lt_zero i), ?_⟩
          intro i _
          cases i with
          | zero =>
              change (s.step parser query).1 = _
              rw [hstep]
          | succ i => rw [afterAsking_succ, hstep, afterAsking_of_answered hagain, hagain]
      | rejected m s' hstep hrejected hless =>
          have hs' : s'.Fitting := by
            have hnext := @Fitting.step parser s hs query
            rwa [hstep] at hnext
          obtain ⟨failures, hle, reply, hfails, hanswers⟩ := ih _ (hn ▸ hless) hs' rfl
          refine ⟨failures + 1, by omega, reply, ?_, ?_⟩
          · intro i hi
            cases i with
            | zero =>
                refine ⟨m, ?_, ?_⟩
                · change (s.step parser query).1 = _
                  rw [hstep]
                · change Rejected parser m s (s.step parser query).2
                  rw [hstep]
                  exact hrejected
            | succ i =>
                rw [afterAsking_succ, afterAsking_succ, hstep]
                exact hfails i (by omega)
          · intro i hi
            cases i with
            | zero => exact absurd hi (Nat.not_succ_le_zero _)
            | succ i =>
                rw [afterAsking_succ, hstep]
                exact hanswers i (by omega)

/-- In every session, however it came about, a query that is made again and again is rejected at
most once for the settings and once for each buffer that the worker has not been sent. Each
rejection settles the matter it is about, and once there is an answer it stays. -/
theorem repeated_query_recovers (parser : Parser) (config : Configuration) (ops : List Operation)
    {s : Session} (hrun : (start config).run parser ops = s) {query : Operation}
    (hquery : query.isQuery = true) :
    ∃ failures ≤ 1 + s.unsent, ∃ reply,
      (∀ i < failures, ∃ m,
        ((s.afterAsking parser query i).step parser query).1 = .error (.worker m) ∧
        Rejected parser m (s.afterAsking parser query i) (s.afterAsking parser query (i + 1))) ∧
      ∀ i ≥ failures, ((s.afterAsking parser query i).step parser query).1 = .ok reply := by
  have hs : s.Fitting := hrun ▸ (fitting_start config).run ops
  obtain ⟨failures, hle, hrecovers⟩ := @recovers parser s hs query hquery
  exact ⟨failures, Nat.le_trans hle s.outstanding_le, hrecovers⟩

/-- The bound is reached: the declaration files and both buffers have names of builtin declarations,
and each is rejected in turn. -/
theorem repeated_query_recovers_builtin :
    let parser := ParseTable.parser ⟨[]⟩
    let ops : List Operation := [.sync "defaultLib:lib.d.ts" ⟨1⟩ "",
      .sync "defaultLib:lib.es6.d.ts" ⟨1⟩ "", .setLibs [("defaultLib:lib.d.ts", "")]]
    let s := (start {}).run parser ops
    s.unsent = 2 ∧
    ((s.afterAsking parser .files 0).step parser .files).1 =
      .error (.worker "Source already registered: defaultLib:lib.d.ts") ∧
    ((s.afterAsking parser .files 1).step parser .files).1 =
      .error (.worker "Source already registered: defaultLib:lib.d.ts") ∧
    ((s.afterAsking parser .files 2).step parser .files).1 =
      .error (.worker "Source already registered: defaultLib:lib.es6.d.ts") ∧
    ∃ reply, ∀ i ≥ 3, ((s.afterAsking parser .files i).step parser .files).1 = .ok reply := by
  intro parser ops s
  have hunsent : s.unsent = 2 := by decide +kernel
  refine ⟨hunsent, by decide +kernel, by decide +kernel, by decide +kernel, ?_⟩
  obtain ⟨failures, hle, reply, -, hanswers⟩ :=
    @repeated_query_recovers parser {} ops s rfl .files rfl
  rw [hunsent] at hle
  exact ⟨reply, fun i hi => hanswers i (by omega)⟩

end Session

end ScriptLens
