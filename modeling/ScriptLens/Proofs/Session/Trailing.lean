import Mathlib.Data.List.Induction
import ScriptLens.Proofs.Session.Order

namespace ScriptLens.Session

variable {parser : Parser} {op : Operation} {s : Session}

structure Trails (held : Table Entered) (buffers : Table Buffer) : Prop where
  order : held.keys <+: buffers.keys
  older : ∀ file b source, buffers.get? file = some b → b.synced = false →
    held.get? file = some source → source.version < b.version

def Trailing (s : Session) : Prop :=
  ∀ r, s.running = some r → Trails r.worker.catalog.buffers s.buffers

theorem Trails.empty (buffers : Table Buffer) : Trails .empty buffers := by
  refine ⟨List.nil_prefix, ?_⟩
  intro file b source _ _ hheld
  cases hheld

/-- The name of a buffer that is held is free, so only for its version could it be rejected. -/
theorem get?_of_rejected {w : Worker} (hw : w.catalog.Apart) {file : String} {b : Buffer}
    {e : CatalogError}
    (holder : ∀ source, w.catalog.buffers.get? file = some source → source.version < b.version)
    (hsync : w.catalog.sync file b.version b.text = .error e) :
    w.catalog.buffers.get? file = none := by
  by_contra hne
  obtain ⟨source, hheld⟩ := Option.ne_none_iff_exists'.1 hne
  have hfree := hw.buffers file (Table.mem_keys_of_get? hheld)
  rw [Catalog.sync_eq_ok_iff.2 ⟨hfree, holder, rfl⟩] at hsync
  cases hsync

theorem trails_pushBuffers {names : List String} (hnames : names.Nodup) {w : Worker}
    {buffers : Table Buffer} (hw : w.catalog.Apart)
    (hpending : ∀ file ∈ names, ∀ b, buffers.get? file = some b → b.synced = false)
    (horder : w.catalog.buffers.keys ++ names.filter (· ∉ w.catalog.buffers.keys) = buffers.keys)
    (holder : ∀ file b source, buffers.get? file = some b → b.synced = false →
      w.catalog.buffers.get? file = some source → source.version < b.version) :
    Trails (pushBuffers parser names w buffers).2.1.catalog.buffers
      (pushBuffers parser names w buffers).2.2 := by
  induction names generalizing w buffers with
  | nil =>
      rw [List.filter_nil, List.append_nil] at horder
      exact ⟨horder ▸ List.prefix_rfl, holder⟩
  | cons file rest ih =>
      obtain ⟨hfile, hrest⟩ := List.nodup_cons.1 hnames
      have hopen : file ∈ buffers.keys := by
        rw [← horder]
        by_cases hheld : file ∈ w.catalog.buffers.keys <;> simp [hheld]
      obtain ⟨b, hb⟩ := Option.isSome_iff_exists.1 ((Table.mem_keys_iff _ _).1 hopen)
      have hsynced := hpending file List.mem_cons_self b hb
      cases hsync : w.catalog.sync file b.version b.text with
      | ok catalog =>
          have hapart := hw.sync hsync
          rw [pushBuffers_accepted hb hsync]
          obtain ⟨-, -, rfl⟩ := Catalog.sync_eq_ok_iff.1 hsync
          refine ih hrest hapart ?_ ?_ ?_
          · intro name hname b' hb'
            have hne : name ≠ file := fun heq => hfile (heq ▸ hname)
            rw [Table.get?_insert, if_neg hne] at hb'
            exact hpending name (List.mem_cons_of_mem _ hname) b' hb'
          · have hkeys : (buffers.insert file { b with synced := true }).keys = buffers.keys := by
              rw [Table.keys_insert, if_pos hopen]
            rw [hkeys, ← horder]
            exact keys_insert_append hfile _
          · intro name b' source hb' hsynced' hheld
            by_cases hname : name = file
            · rw [Table.get?_insert, if_pos hname] at hb'
              cases hb'
              cases hsynced'
            · rw [Table.get?_insert, if_neg hname] at hb' hheld
              exact holder name b' source hb' hsynced' hheld
      | error e =>
          rw [pushBuffers_rejected hb hsync]
          have hnone := get?_of_rejected hw (fun source => holder file b source hb hsynced) hsync
          constructor
          · rw [← Table.erase_of_get? hnone, Table.keys_erase, Table.keys_erase]
            have hprefix : w.catalog.buffers.keys <+: buffers.keys :=
              horder ▸ List.prefix_append _ _
            exact hprefix.filter _
          · intro name b' source hb'
            exact holder name b' source (Table.get?_of_erase hb').2

theorem Trailing.settle (h : s.Trailing) : (s.settle parser).2.Trailing := by
  rw [settle_eq]
  rintro _ ⟨⟩
  simp only [buffers_refreshCache, pushSettings_buffers]
  cases hr : s.running with
  | none =>
      rw [ensureRunning, hr]
      exact .empty _
  | some r =>
      rw [ensureRunning, hr]
      exact h r hr

theorem Trailing.prepare (hs : s.Consistent) (h : s.Trailing) : (s.prepare parser).2.Trailing := by
  have hs₀ := @Consistent.settle parser s hs
  have h₀ := @Trailing.settle parser s h
  rw [Session.prepare]
  cases hsettle : s.settle parser with
  | mk result s₀ =>
      rw [hsettle] at hs₀ h₀
      cases result with
      | error e => exact h₀
      | ok r₀ =>
          have hr₀ : s₀.running = some r₀ := by rw [(settle_eq_ok hsettle).2]
          have htrails := h₀ r₀ hr₀
          rintro _ ⟨⟩
          refine trails_pushBuffers (nodup_pending _) (hs₀.apart r₀ hr₀) ?_ ?_ htrails.older
          · intro file hfile b hb
            obtain ⟨b', hb', hsynced⟩ := (mem_pending_iff _ _).1 hfile
            cases hb.symm.trans hb'
            exact hsynced
          · rw [filter_pending hs₀ hr₀]
            exact append_filter_of_prefix htrails.order s₀.buffers.distinct

theorem Trailing.enter (hs : s.Consistent) (h : s.Trailing) {file : String} {version : Version}
    (hnew : ∀ b, s.buffers.get? file = some b → b.version < version) (text : String) :
    (s.openBuffer file version text).Trailing := by
  intro r hr
  have htrails := h r hr
  refine ⟨order_enter (fun r hr => (h r hr).order) file version text hr, ?_⟩
  intro name b source hb hsynced hheld
  rw [get?_openBuffer] at hb
  by_cases hname : name = file
  · subst hname
    rw [if_pos rfl] at hb
    cases hb
    -- what the worker holds is open, in a version that is not below the one it holds
    have hopen := htrails.order.subset (Table.mem_keys_of_get? hheld)
    obtain ⟨b₀, hb₀⟩ := Option.isSome_iff_exists.1 ((Table.mem_keys_iff _ _).1 hopen)
    cases hsynced₀ : b₀.synced with
    | true =>
        cases hheld.symm.trans (hs.held r hr name b₀ hb₀ hsynced₀)
        exact hnew b₀ hb₀
    | false =>
        have hlt := htrails.older name b₀ source hb₀ hsynced₀ hheld
        exact UInt64.lt_trans hlt (hnew b₀ hb₀)
  · rw [if_neg hname] at hb
    exact htrails.older name b source hb hsynced hheld

theorem Trailing.close (h : s.Trailing) {file : String} (howed : ¬ s.Owed file) :
    (s.close parser file).2.Trailing := by
  intro r' hr'
  constructor
  · rw [buffers_close]
    exact order_close (fun r hr => (h r hr).order) howed hr'
  · intro name b source hb hsynced hheld
    obtain ⟨r, hr, -, -⟩ := running_close hr'
    rw [get?_close] at hb
    by_cases hname : name = file
    · rw [if_pos hname] at hb
      cases hb
    · rw [if_neg hname] at hb
      rw [← heldSource_of_running hr', heldSource_close_of_ne s hname, heldSource_of_running hr]
        at hheld
      exact (h r hr).older name b source hb hsynced hheld

theorem Trailing.ask (hs : s.Consistent) (h : s.Trailing) {request : Request}
    (hread : ∀ w : Worker, (w.respond parser request).2 = w) :
    (s.ask parser request).2.Trailing := by
  rw [ask_snd s hread]
  exact h.prepare hs

theorem Trailing.askCached (hs : s.Consistent) (h : s.Trailing) (file : String) (q : Question) :
    (s.askCached parser file q.query (q.request file)).2.Trailing := by
  obtain ⟨cache, heq⟩ := @askCached_snd parser s file q
  rw [heq]
  exact h.prepare hs

theorem Trailing.step (hs : s.Consistent) (h : s.Trailing)
    (howed : ∀ file, op = .close file → ¬ s.Owed file) : (s.step parser op).2.Trailing := by
  cases hop : op.changesSettings with
  | true =>
      obtain ⟨settings, heq, -⟩ := @step_changesSettings parser op s hop
      rw [heq]
      exact h
  | false =>
      cases op with
      | sync file version text =>
          change (s.sync parser file version text).2.Trailing
          obtain ⟨b, -, -, heq⟩ | ⟨hnew, ⟨-, heq⟩ | ⟨-, heq⟩⟩ := sync_cases parser s file version text
          · rw [heq]
            exact h
          · rw [heq]
            exact (h.enter hs hnew text).prepare (hs.enter file version text)
          · rw [heq]
            exact h.enter hs hnew text
      | close file =>
          change (s.close parser file).2.Trailing
          exact h.close (howed file rfl)
      | files => exact h.ask hs fun _ => rfl
      | version file => exact h.ask hs fun _ => rfl
      | text file => exact h.ask hs fun _ => rfl
      | outline file => exact h.askCached hs file .outline
      | references file roots => exact h.askCached hs file (.references roots)
      | diagnostics file =>
          change (s.diagnostics parser file).2.Trailing
          rw [Session.diagnostics]
          split
          · exact h
          · exact h.askCached hs file .diagnostics
      | retire =>
          intro r hr
          cases hr
      | setCompiler | setDiagnostics | addLib | dispose | setLibs => cases hop

/-- No file was closed of which the worker that is still running held an older version. -/
def Heard (parser : Parser) (s : Session) (ops : List Operation) : Prop :=
  ∀ before file after, ops = before ++ .close file :: after → .retire ∉ after →
    ¬ (s.run parser before).Owed file

theorem Heard.of_concat {ops : List Operation} (hop : op ≠ .retire)
    (h : s.Heard parser (ops ++ [op])) : s.Heard parser ops := by
  intro before file after heq hafter
  apply h before file (after ++ [op])
  · rw [heq, List.append_assoc, List.cons_append]
  · simpa [hop.symm] using hafter

theorem Trailing.run (hs : s.Consistent) (h : s.Trailing) {ops : List Operation}
    (hroom : s.Room ops) (hheard : s.Heard parser ops) : (s.run parser ops).Trailing := by
  induction ops using List.reverseRecOn with
  | nil => exact h
  | append_singleton ops op ih =>
      rw [run_concat]
      by_cases hop : op = .retire
      · subst hop
        intro r hr
        cases hr
      · have hbefore := ih hroom.left (hheard.of_concat hop)
        refine hbefore.step (hs.run hroom.left) ?_
        rintro file rfl
        exact hheard ops file [] rfl List.not_mem_nil

theorem trailing_start (config : Configuration) : (start config).Trailing := by
  intro r hr
  cases hr

end ScriptLens.Session
