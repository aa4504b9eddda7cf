import Mathlib.Data.List.Induction
import Mathlib.Data.List.Infix
import ScriptLens.Proofs.Session.Kept
import ScriptLens.Source.ParseTable

namespace ScriptLens.Session

variable {parser : Parser}

/-- While an answer was kept, and under the settings that are still in force, a worker was retired
that did not go with these settings. -/
def Parted (parser : Parser) (s : Session) (ops : List Operation) (key : CacheKey)
    (payload : Payload) : Prop :=
  ∃ before after, ops = before ++ .retire :: after ∧
    (s.run parser before).settings = (s.run parser ops).settings ∧
    (s.run parser before).cache.get? key = some payload ∧
    (s.run parser before).Differs key.query

theorem Parted.concat {s : Session} {ops : List Operation} {op : Operation} {key : CacheKey}
    {payload : Payload} (h : s.Parted parser ops key payload)
    (hsettings : ((s.run parser ops).step parser op).2.settings = (s.run parser ops).settings) :
    s.Parted parser (ops ++ [op]) key payload := by
  obtain ⟨before, after, rfl, hsame, hkey, hdiffers⟩ := h
  refine ⟨before, after ++ [op], by simp, ?_, hkey, hdiffers⟩
  rw [run_concat, hsettings, hsame]

theorem vouched_run {s : Session} (hs : s.Consistent)
    (hv : Vouched parser (fun _ _ => False) s) {ops : List Operation} (hroom : s.Room ops) :
    (s.run parser ops).Consistent ∧
      Vouched parser (s.Parted parser ops) (s.run parser ops) := by
  induction ops using List.reverseRecOn with
  | nil => exact ⟨hs, hv.mono fun _ _ h => h.elim⟩
  | append_singleton ops op ih =>
      obtain ⟨hc, hvouched⟩ := ih hroom.left
      have hmoves : Moves parser op (s.run parser ops) _ := step_moves hroom.run
      refine ⟨hs.run hroom, ?_⟩
      by_cases hop : op = .retire
      · subst hop
        have hretired := hvouched.retire hc
        rw [run_concat]
        refine hretired.mono ?_
        rintro key payload (hparted | ⟨hkey, hdiffers⟩)
        · exact hparted.concat rfl
        · exact ⟨ops, [], rfl, by rw [run_concat]; rfl, hkey, hdiffers⟩
      · cases hchange : op.changesSettings with
        | false =>
            rw [run_concat]
            refine (Moves.vouched hc hvouched hop hmoves).2.mono ?_
            intro key payload hparted
            exact hparted.concat (hmoves.settings_eq hchange)
        | true =>
            obtain ⟨settings, hstep, rfl | hrev⟩ :=
              @step_changesSettings parser op (s.run parser ops) hchange
            · rw [run_concat, hstep]
              refine hvouched.mono ?_
              intro key payload hparted
              exact hparted.concat (by rw [hstep]; rfl)
            · rw [run_concat, hstep]
              exact .change hc (hrev ▸ hroom.run.lt_succ hchange)

/-- A question that is answered from the cache gets what the worker would answer, unless the answer
has been parted from its worker. -/
theorem kept_answer_eq_respond (parser : Parser) (config : Configuration) (ops : List Operation)
    (hops : changes ops < UInt64.size) {s' : Session} {r : Running}
    (hprepare : ((start config).run parser ops).prepare parser = (.ok r, s'))
    {file : String} {b : Buffer} (hb : s'.buffers.get? file = some b)
    {q : Question} {payload : Payload}
    (hkey : s'.cache.get? ⟨file, b.version, q.query⟩ = some payload)
    (hkept : ¬ (start config).Parted parser ops ⟨file, b.version, q.query⟩ payload) :
    (r.worker.respond parser (q.request file)).1 = .ok payload := by
  obtain ⟨hc, hv⟩ := vouched_run (consistent_start config) (vouched_start config)
    (room_start config hops)
  obtain ⟨hc', hv'⟩ := (Moves.of_prepare .files hprepare).vouched hc hv (by simp)
  exact hv'.respond_eq hc' (ready_of_prepare hprepare) hb hkey hkept

/-- A worker that has taken the declaration files is retired, and its answer is still the one that
the next worker would give. -/
theorem kept_references_eq_respond :
    let parser := ParseTable.parser ⟨[]⟩
    let ops : List Operation := [.addLib 0 "" (some "lib.d.ts"), .sync "a.ts" ⟨1⟩ "",
      .references "a.ts" ["Things"], .retire]
    let key : CacheKey := ⟨"a.ts", ⟨1⟩, .ofRoots ["Things"]⟩
    ∃ r s' payload, ((start {}).run parser ops).prepare parser = (.ok r, s') ∧
      s'.cache.get? key = some payload ∧ ¬ (start {}).Parted parser ops key payload ∧
      (r.worker.respond parser (.references "a.ts" ["Things"])).1 = .ok payload := by
  intro parser ops key
  have hok : (((start {}).run parser ops).prepare parser).1.isOk = true := by decide +kernel
  have hb : (((start {}).run parser ops).prepare parser).2.buffers.get? "a.ts" =
      some ⟨⟨1⟩, "", true⟩ := by decide +kernel
  have hkey : ((((start {}).run parser ops).prepare parser).2.cache.get? key).isSome := by
    decide +kernel
  have hagree : ∀ r ∈ ((start {}).run parser (ops.take 3)).running, r.worker.basis key.query =
      ((start {}).run parser (ops.take 3)).settings.basis key.query := by decide +kernel
  have hsplit : ∀ before ∈ ops.inits, before ++ [.retire] ∈ ops.inits → before = ops.take 3 := by
    decide +kernel
  have hops : changes ops < UInt64.size := by decide
  cases hprepare : ((start {}).run parser ops).prepare parser with
  | mk result s' =>
      rw [hprepare] at hok hb hkey
      cases result with
      | error e => cases hok
      | ok r =>
          obtain ⟨payload, hpayload⟩ := Option.isSome_iff_exists.1 hkey
          have hkept : ¬ (start {}).Parted parser ops key payload := by
            rintro ⟨before, after, heq, -, -, r, hr, -, hdiffers⟩
            have hbefore := hsplit before ((List.mem_inits _ _).2 ⟨_, heq.symm⟩)
              ((List.mem_inits _ _).2 ⟨after, by simp [heq]⟩)
            rw [hbefore] at hr hdiffers
            exact hdiffers (hagree r hr)
          refine ⟨r, s', payload, rfl, hpayload, hkept, ?_⟩
          exact @kept_answer_eq_respond parser {} ops hops s' r hprepare "a.ts" _ hb
            (.references ["Things"]) payload hpayload hkept

/-- A worker that was started without validation answers so after validation has been turned on. Its
answer is kept, although the next worker would give another. -/
theorem kept_diagnostics_ne_respond :
    let parser := ParseTable.parser
      ⟨[(.typescript, "(", .mk ⟨"ERROR", 0, 1, 0, 0, true, true, false, true, []⟩ [])]⟩
    let s := (start { diagnostics := { noSyntaxValidation := true } }).run parser
      [.sync "a.ts" ⟨1⟩ "(", .files, .setDiagnostics {}, .diagnostics "a.ts", .retire]
    ∃ r s' payload, s.prepare parser = (.ok r, s') ∧
      s'.buffers.get? "a.ts" = some ⟨⟨1⟩, "(", true⟩ ∧
      s'.cache.get? ⟨"a.ts", ⟨1⟩, .diagnostics⟩ = some payload ∧
      (r.worker.respond parser (.diagnostics "a.ts")).1 ≠ .ok payload := by
  intro parser s
  have hok : (s.prepare parser).1.isOk = true := by decide +kernel
  have hb : (s.prepare parser).2.buffers.get? "a.ts" = some ⟨⟨1⟩, "(", true⟩ := by decide +kernel
  have hkey : (s.prepare parser).2.cache.get? ⟨"a.ts", ⟨1⟩, .diagnostics⟩ =
      some (.diagnostics []) := by decide +kernel
  have hanswer : ∀ r ∈ (s.prepare parser).1.toOption,
      (r.worker.respond parser (.diagnostics "a.ts")).1 ≠ .ok (.diagnostics []) := by decide +kernel
  cases hprepare : s.prepare parser with
  | mk result s' =>
      rw [hprepare] at hok hb hkey hanswer
      cases result with
      | error e => cases hok
      | ok r => exact ⟨r, s', _, rfl, hb, hkey, hanswer r rfl⟩

end ScriptLens.Session
