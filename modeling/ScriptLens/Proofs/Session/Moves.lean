import Mathlib.Logic.Relation
import ScriptLens.Proofs.Session.Prepare
import ScriptLens.Session.Operation

namespace ScriptLens

def Operation.changesSettings : Operation → Bool
  | .setCompiler _ | .setDiagnostics _ | .addLib .. | .dispose _ | .setLibs _ => true
  | _ => false

namespace Session

open Relation

def pushed (s : Session) (r : Running) (file : String) (b : Buffer) (catalog : Catalog) : Session :=
  { s with
    running := some { r with worker := { r.worker with catalog } }
    buffers := s.buffers.insert file { b with synced := true } }

@[simp] theorem get?_pushed (s : Session) (r : Running) (file : String) (b : Buffer)
    (catalog : Catalog) (name : String) :
    (s.pushed r file b catalog).buffers.get? name =
      if name = file then some { b with synced := true } else s.buffers.get? name :=
  Table.get?_insert _ _ _ _

@[simp] theorem get?_openBuffer (s : Session) (file : String) (version : Version) (text : String)
    (name : String) :
    (s.openBuffer file version text).buffers.get? name =
      if name = file then some ⟨version, text, false⟩ else s.buffers.get? name :=
  Table.get?_insert _ _ _ _

/-- One thing that can happen to a session in the course of an operation. -/
inductive Move (parser : Parser) (op : Operation) : Session → Session → Prop
  | change (s : Session) (settings : Settings) (hop : op.changesSettings = true)
      (hrev : s.settings.revision < settings.revision) : Move parser op s (s.withSettings settings)
  | retire (s : Session) (hop : op = .retire) : Move parser op s s.retire
  | enter (s : Session) (file : String) (version : Version) (text : String)
      (hop : op = .sync file version text)
      (hnew : ∀ b, s.buffers.get? file = some b → b.version < version) :
      Move parser op s (s.openBuffer file version text)
  | close (s : Session) (file : String) (hop : op = .close file) :
      Move parser op s (s.close parser file).2
  | settle (s : Session) : Move parser op s (s.settle parser).2
  | push (s : Session) (r : Running) (file : String) (b : Buffer) (catalog : Catalog)
      (hr : s.running = some r) (hb : s.buffers.get? file = some b) (hsynced : b.synced = false)
      (hsync : r.worker.catalog.sync file b.version b.text = .ok catalog) :
      Move parser op s (s.pushed r file b catalog)
  | drop (s : Session) (r : Running) (file : String) (b : Buffer) (e : CatalogError)
      (hr : s.running = some r) (hb : s.buffers.get? file = some b) (hsynced : b.synced = false)
      (hsync : r.worker.catalog.sync file b.version b.text = .error e) :
      Move parser op s { s with buffers := s.buffers.erase file }
  | keep (s : Session) (r : Running) (file : String) (b : Buffer) (q : Question) (payload : Payload)
      (hr : s.running = some r) (hcache : s.cacheRevision = s.settings.revision)
      (hb : s.buffers.get? file = some b) (hsynced : b.synced = true)
      (hpayload : (r.worker.respond parser (q.request file)).1 = .ok payload) :
      Move parser op s { s with cache := s.cache.insert ⟨file, b.version, q.query⟩ payload }

abbrev Moves (parser : Parser) (op : Operation) : Session → Session → Prop :=
  ReflTransGen (Move parser op)

variable {parser : Parser} {op : Operation}

theorem pushBuffers_moves {names : List String} (hnames : names.Nodup) {s : Session} {r : Running}
    (hr : s.running = some r)
    (hpending : ∀ file ∈ names, ∀ b, s.buffers.get? file = some b → b.synced = false) :
    Moves parser op s { s with
      running := some { r with worker := (pushBuffers parser names r.worker s.buffers).2.1 }
      buffers := (pushBuffers parser names r.worker s.buffers).2.2 } := by
  induction names generalizing s r with
  | nil =>
      cases s
      cases hr
      exact .refl
  | cons file rest ih =>
      obtain ⟨hfile, hrest⟩ := List.nodup_cons.1 hnames
      cases hb : s.buffers.get? file with
      | none =>
          rw [pushBuffers_absent hb]
          exact ih hrest hr fun name hname => hpending name (List.mem_cons_of_mem _ hname)
      | some b =>
          have hsynced := hpending file List.mem_cons_self b hb
          cases hsync : r.worker.catalog.sync file b.version b.text with
          | ok catalog =>
              rw [pushBuffers_accepted hb hsync]
              refine .head (.push s r file b catalog hr hb hsynced hsync)
                (@ih hrest (s.pushed r file b catalog)
                  { r with worker := { r.worker with catalog } } rfl ?_)
              intro name hname b' hb'
              have hne : name ≠ file := fun heq => hfile (heq ▸ hname)
              rw [get?_pushed, if_neg hne] at hb'
              exact hpending name (List.mem_cons_of_mem _ hname) b' hb'
          | error e =>
              rw [pushBuffers_rejected hb hsync]
              have hdrop : Move parser op s _ := .drop s r file b e hr hb hsynced hsync
              cases s
              cases hr
              exact .single hdrop

theorem prepare_moves (s : Session) : Moves parser op s (s.prepare parser).2 := by
  have hsettle : Moves parser op s (s.settle parser).2 := .single (.settle s)
  unfold prepare
  cases h : s.settle parser with
  | mk result s' =>
      rw [h] at hsettle
      cases result with
      | error e => exact hsettle
      | ok r =>
          have hr : s'.running = some r := by rw [(settle_eq_ok h).2]
          refine hsettle.trans (pushBuffers_moves (nodup_pending s'.buffers) hr ?_)
          intro file hfile b hb
          obtain ⟨b', hb', hsynced⟩ := (mem_pending_iff _ _).1 hfile
          rw [hb] at hb'
          cases hb'
          exact hsynced

theorem Moves.of_prepare (op : Operation) {s s' : Session} {r : Running}
    (h : s.prepare parser = (.ok r, s')) :
    Moves parser op s s' := by
  have hmoves := @prepare_moves parser op s
  rwa [h] at hmoves

theorem ask_moves (s : Session) {request : Request}
    (hread : ∀ w : Worker, (w.respond parser request).2 = w) :
    Moves parser op s (s.ask parser request).2 := by
  rw [ask_snd s hread]
  exact prepare_moves s

theorem askCached_moves (s : Session) (file : String) (q : Question) :
    Moves parser op s (s.askCached parser file q.query (q.request file)).2 := by
  have hprepare : Moves parser op s (s.prepare parser).2 := prepare_moves s
  cases h : s.prepare parser with
  | mk result s' =>
      rw [h] at hprepare
      cases result with
      | error e =>
          rw [askCached, h]
          exact hprepare
      | ok r =>
          have hready := ready_of_prepare h
          cases hb : s'.buffers.get? file with
          | none =>
              rw [askCached_of_closed h hb]
              exact hprepare
          | some b =>
              cases hkey : s'.cache.get? ⟨file, b.version, q.query⟩ with
              | some payload =>
                  rw [askCached_of_kept h hb hkey]
                  exact hprepare
              | none =>
                  obtain ⟨payload, hanswer⟩ := @respond_question_ok parser r.worker q file
                  rw [askCached_of_new h hb hkey hanswer]
                  refine hprepare.tail (.keep s' r file b q payload hready.running ?_ hb
                    (hready.synced file b hb) hanswer)
                  rw [hready.cacheRevision, hready.settings]

/-- The worker is told if the version that is closed has gone through. -/
theorem close_cases (parser : Parser) (s : Session) (file : String) :
    (s.buffers.get? file = none ∧ s.close parser file = (false, s)) ∨
    ∃ b, s.buffers.get? file = some b ∧
      ((∃ r, s.running = some r ∧ b.synced = true ∧
        s.close parser file = (true, { s with
          buffers := s.buffers.erase file
          cache := s.cache.forget file
          running := some { r with worker :=
            { r.worker with catalog := r.worker.catalog.close file } } })) ∨
      ((s.running = none ∨ b.synced = false) ∧
        s.close parser file =
          (true, { s with buffers := s.buffers.erase file, cache := s.cache.forget file }))) := by
  cases hb : s.buffers.get? file with
  | none => exact .inl ⟨rfl, by simp [Session.close, hb]⟩
  | some b =>
      refine .inr ⟨b, rfl, ?_⟩
      cases hr : s.running with
      | none => exact .inr ⟨.inl rfl, by simp [Session.close, hb, hr]⟩
      | some r =>
          cases hsynced : b.synced with
          | true => exact .inl ⟨r, rfl, rfl, by
              simp [Session.close, hb, hr, hsynced, Worker.respond, Worker.change]⟩
          | false => exact .inr ⟨.inr rfl, by simp [Session.close, hb, hr, hsynced]⟩

theorem step_settings (s : Session) (hop : op.changesSettings = true) :
    (s.step parser op).2 = s ∨ ∃ libs compiler diagnostics,
      (s.step parser op).2 =
        s.withSettings { s.settings.advance with libs, compiler, diagnostics } ∧
      (diagnostics = s.settings.diagnostics ∨ op = .setDiagnostics diagnostics) := by
  cases op with
  | setCompiler options => exact .inr ⟨_, _, _, rfl, .inl rfl⟩
  | setDiagnostics options => exact .inr ⟨_, _, _, rfl, .inr rfl⟩
  | setLibs libs => exact .inr ⟨_, _, _, rfl, .inl rfl⟩
  | dispose handle =>
      change s.withSettings (s.settings.dispose handle).2 = s ∨ ∃ libs compiler diagnostics,
        s.withSettings (s.settings.dispose handle).2 = _ ∧ _
      unfold Settings.dispose
      split
      · exact .inr ⟨_, _, _, rfl, .inl rfl⟩
      · exact .inl rfl
  | addLib clock content path =>
      cases hadd : s.settings.addLib clock content path with
      | error e => exact .inl (by simp only [step, hadd])
      | ok added =>
          obtain ⟨handle, settings⟩ := added
          refine .inr ⟨settings.libs, s.settings.compiler, s.settings.diagnostics, ?_, .inl rfl⟩
          simp only [step, hadd]
          simp only [Settings.addLib] at hadd
          split at hadd
          · cases hadd
          · cases hadd
            rfl
  | sync | close | files | version | text | outline | references | diagnostics | retire => cases hop

theorem step_changesSettings (s : Session) (hop : op.changesSettings = true) :
    ∃ settings, (s.step parser op).2 = s.withSettings settings ∧
      (settings = s.settings ∨ settings.revision = s.settings.revision + 1) := by
  obtain hs | ⟨libs, compiler, diagnostics, hs, -⟩ := @step_settings parser op s hop
  · exact ⟨s.settings, hs, .inl rfl⟩
  · exact ⟨_, hs, .inr rfl⟩

def changes (ops : List Operation) : Nat :=
  ops.countP (·.changesSettings)

def Room (s : Session) (ops : List Operation) : Prop :=
  s.settings.revision.toNat + changes ops < UInt64.size

theorem room_start (config : Configuration) {ops : List Operation} (h : changes ops < UInt64.size) :
    (start config).Room ops := by
  change 0 + changes ops < UInt64.size
  rwa [Nat.zero_add]

theorem Room.lt_succ {s : Session} (h : s.Room [op]) (hop : op.changesSettings = true) :
    s.settings.revision < s.settings.revision + 1 := by
  have hlt : s.settings.revision.toNat + 1 < UInt64.size := by simpa [Room, changes, hop] using h
  rw [UInt64.lt_iff_toNat_lt, UInt64.toNat_add]
  change _ < (s.settings.revision.toNat + 1) % UInt64.size
  rw [Nat.mod_eq_of_lt hlt]
  exact Nat.lt_succ_self _

theorem sync_of_new {s : Session} {file : String} {version : Version}
    (hnew : ∀ b, s.buffers.get? file = some b → b.version < version) (text : String) :
    s.sync parser file version text =
      if s.settings.eagerSync then
        (((s.openBuffer file version text).prepare parser).1.map fun _ => (),
          ((s.openBuffer file version text).prepare parser).2)
      else (.ok (), s.openBuffer file version text) := by
  cases hb : s.buffers.get? file with
  | none =>
      simp only [sync, hb]
      rfl
  | some b =>
      simp only [sync, hb, if_neg (Version.not_le.2 (hnew b hb))]
      rfl

theorem sync_cases (parser : Parser) (s : Session) (file : String) (version : Version)
    (text : String) :
    (∃ b, s.buffers.get? file = some b ∧ version ≤ b.version ∧
      s.sync parser file version text = (.error (.staleVersion file b.version version), s)) ∨
    ((∀ b, s.buffers.get? file = some b → b.version < version) ∧
      ((s.settings.eagerSync = true ∧ s.sync parser file version text =
        (((s.openBuffer file version text).prepare parser).1.map fun _ => (),
          ((s.openBuffer file version text).prepare parser).2)) ∨
      (s.settings.eagerSync = false ∧
        s.sync parser file version text = (.ok (), s.openBuffer file version text)))) := by
  by_cases hstale : ∃ b, s.buffers.get? file = some b ∧ version ≤ b.version
  · obtain ⟨b, hb, hle⟩ := hstale
    exact .inl ⟨b, hb, hle, by simp [sync, hb, hle]⟩
  · have hnew : ∀ b, s.buffers.get? file = some b → b.version < version := by
      intro b hb
      exact Version.not_le.1 fun hle => hstale ⟨b, hb, hle⟩
    have hs := @sync_of_new parser s file version hnew text
    cases heager : s.settings.eagerSync with
    | true =>
        rw [heager] at hs
        exact .inr ⟨hnew, .inl ⟨rfl, hs⟩⟩
    | false =>
        rw [heager] at hs
        exact .inr ⟨hnew, .inr ⟨rfl, hs⟩⟩

theorem sync_moves (s : Session) (file : String) (version : Version) (text : String) :
    Moves parser (.sync file version text) s (s.sync parser file version text).2 := by
  obtain ⟨b, -, -, hs⟩ | ⟨hnew, ⟨-, hs⟩ | ⟨-, hs⟩⟩ := sync_cases parser s file version text
  · rw [hs]
  · rw [hs]
    exact .head (.enter s file version text rfl hnew) (prepare_moves _)
  · rw [hs]
    exact .single (.enter s file version text rfl hnew)

theorem step_moves {s : Session} (hroom : s.Room [op]) : Moves parser op s (s.step parser op).2 := by
  cases hop : op.changesSettings with
  | true =>
      obtain ⟨settings, hs, rfl | hrev⟩ := @step_changesSettings parser op s hop
      · rw [hs]
        exact .refl
      · rw [hs]
        exact .single (.change s settings hop (hrev ▸ hroom.lt_succ hop))
  | false =>
      cases op with
      | sync file version text => exact sync_moves s file version text
      | close file => exact .single (.close s file rfl)
      | files => exact ask_moves s fun _ => rfl
      | version file => exact ask_moves s fun _ => rfl
      | text file => exact ask_moves s fun _ => rfl
      | outline file => exact askCached_moves s file .outline
      | references file roots => exact askCached_moves s file (.references roots)
      | diagnostics file =>
          change Moves parser _ s (s.diagnostics parser file).2
          unfold diagnostics
          split
          · exact .refl
          · exact askCached_moves s file .diagnostics
      | retire => exact .single (.retire s rfl)
      | setCompiler | setDiagnostics | addLib | dispose | setLibs => cases hop

theorem run_append (s : Session) (ops more : List Operation) :
    s.run parser (ops ++ more) = (s.run parser ops).run parser more :=
  List.foldl_append

theorem run_concat (s : Session) (ops : List Operation) (op : Operation) :
    s.run parser (ops ++ [op]) = ((s.run parser ops).step parser op).2 := by
  rw [run_append]
  rfl

@[simp] theorem settings_settle (s : Session) : (s.settle parser).2.settings = s.settings := by
  simp [settle_eq]

@[simp] theorem settings_close (s : Session) (file : String) :
    (s.close parser file).2.settings = s.settings := by
  obtain ⟨-, hs⟩ | ⟨b, -, ⟨r, -, -, hs⟩ | ⟨-, hs⟩⟩ := close_cases parser s file <;> rw [hs]

@[simp] theorem cacheRevision_close (s : Session) (file : String) :
    (s.close parser file).2.cacheRevision = s.cacheRevision := by
  obtain ⟨-, hs⟩ | ⟨b, -, ⟨r, -, -, hs⟩ | ⟨-, hs⟩⟩ := close_cases parser s file <;> rw [hs]

theorem Moves.settings_eq {s s' : Session} (h : Moves parser op s s')
    (hop : op.changesSettings = false) : s'.settings = s.settings := by
  induction h with
  | refl => rfl
  | tail _ hmove ih =>
      rw [← ih]
      cases hmove with
      | change settings hop' => simp [hop] at hop'
      | settle => exact settings_settle _
      | close file => exact settings_close _ file
      | retire | enter | push | drop | keep => rfl

theorem step_moves_of_same (hop : op.changesSettings = false) (s : Session) :
    Moves parser op s (s.step parser op).2 := by
  apply step_moves
  simpa [Room, changes, hop] using s.settings.revision.toNat_lt

theorem toNat_revision_step (s : Session) (op : Operation) :
    (s.step parser op).2.settings.revision.toNat ≤ s.settings.revision.toNat + changes [op] := by
  cases hop : op.changesSettings with
  | true =>
      have hone : changes [op] = 1 := by simp [changes, hop]
      rw [hone]
      obtain ⟨settings, hs, rfl | hrev⟩ := @step_changesSettings parser op s hop
      · rw [hs]
        exact Nat.le_succ _
      · rw [hs]
        change settings.revision.toNat ≤ _
        rw [hrev, UInt64.toNat_add]
        exact Nat.mod_le _ _
  | false =>
      rw [(step_moves_of_same hop s).settings_eq hop]
      exact Nat.le_add_right _ _

theorem Room.left {s : Session} {ops more : List Operation} (h : s.Room (ops ++ more)) :
    s.Room ops := by
  unfold Room changes at *
  rw [List.countP_append] at h
  omega

theorem Room.run {s : Session} {ops more : List Operation} (h : s.Room (ops ++ more)) :
    (s.run parser ops).Room more := by
  induction ops generalizing s with
  | nil => exact h
  | cons op ops ih =>
      apply ih
      have hstep := @toNat_revision_step parser s op
      unfold Room changes at *
      simp only [List.cons_append, List.countP_cons, List.countP_nil] at h hstep ⊢
      omega

theorem Moves.keep {P : Session → Prop} {s s' : Session} (h : Moves parser op s s')
    (hmove : ∀ s s', Move parser op s s' → P s → P s') (hs : P s) : P s' := by
  induction h with
  | refl => exact hs
  | tail _ hstep ih => exact hmove _ _ hstep ih

theorem run_induction {P : Session → Prop} (hmove : ∀ op s s', Move parser op s s' → P s → P s')
    {s : Session} {ops : List Operation} (hroom : s.Room ops) (hs : P s) :
    P (s.run parser ops) := by
  induction ops generalizing s with
  | nil => exact hs
  | cons op ops ih =>
      have hone : s.Room ([op] ++ ops) := hroom
      apply ih hone.run
      exact (step_moves hone.left).keep (hmove op) hs

end Session

end ScriptLens
