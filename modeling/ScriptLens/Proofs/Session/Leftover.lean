import Mathlib.Data.List.Infix
import ScriptLens.Proofs.Session.Reopening
import ScriptLens.Source.ParseTable

namespace ScriptLens.Session

variable {parser : Parser} {s s' : Session} {file : String}

/-- What the worker is left with after a buffer of `s` was closed: an older version of the file, if
that is the one it held, and as long as it is not retired. -/
def leftOf (s : Session) (file : String) (b : Buffer) (after : List Operation) : Option Entered :=
  if b.synced = true ∨ .retire ∈ after then none else s.heldSource file

theorem run_close {s₁ : Session} {b : Buffer} {after : List Operation}
    (hb : s.buffers.get? file = some b) (hclose : s.close parser file = (true, s₁))
    (hafter : ∀ version text, .sync file version text ∉ after) :
    (s₁.run parser after).buffers.get? file = none ∧
      (s₁.run parser after).heldSource file = s.leftOf file b after := by
  have hclosed : s₁.buffers.get? file = none := by
    have hget := @get?_close parser s file file
    rwa [hclose, if_pos rfl] at hget
  have hheld : s₁.heldSource file = if b.synced then none else s.heldSource file := by
    have hheld := @heldSource_close parser s file b hb
    rwa [hclose] at hheld
  obtain ⟨hrun, hheld'⟩ := @run_closed parser s₁ file after hafter hclosed
  refine ⟨hrun, ?_⟩
  rw [hheld', hheld, leftOf]
  by_cases hsynced : b.synced = true <;> by_cases hretire : .retire ∈ after <;> simp [hsynced, hretire]

theorem heldSource_prepare (hclosed : s.buffers.get? file = none) {r : Running}
    (h : s.prepare parser = (.ok r, s')) :
    r.worker.catalog.buffers.get? file = s.heldSource file := by
  rw [← heldSource_of_running (ready_of_prepare h).running]
  exact ((Moves.of_prepare .files h).closed (by simp) (by simp) hclosed).2

/-- Until its file is opened again, a buffer that was closed shows what the worker is left with of
it, and nothing if that is nothing. Opened again under any version, the file is taken by the worker
if that version is newer than what is left, and only then. -/
theorem closed_buffer_shows_left (parser : Parser) {s₀ s₁ s₂ : Session} {file : String} {b : Buffer}
    {after : List Operation} (hb : s₀.buffers.get? file = some b)
    (hclose : s₀.close parser file = (true, s₁))
    (hafter : ∀ version text, .sync file version text ∉ after) (hrun : s₁.run parser after = s₂) :
    (∀ names s', s₂.files parser = (.ok names, s') → s'.Unregistered file →
      (file ∈ names ↔ (s₀.leftOf file b after).isSome)) ∧
    (∀ version s', s₂.version parser file = (.ok version, s') → s'.Unregistered file →
      version = (s₀.leftOf file b after).map (·.version)) ∧
    (∀ text s', s₂.text parser file = (.ok text, s') → s'.Unregistered file →
      text = (s₀.leftOf file b after).map (·.text)) ∧
    (∀ version text later, s₂.Unregistered file →
      (∀ source, s₀.leftOf file b after = some source → source.version < version) →
      (∀ version' text', .sync file version' text' ∉ later) → .close file ∉ later →
      (∀ begun, begun <+: later →
        file ∉ (s₂.run parser (.sync file version text :: begun)).settings.libs.keys) →
      ∃ b', (s₂.run parser (.sync file version text :: later)).buffers.get? file = some b' ∧
        b'.source = ⟨text, version⟩ ∧
        ∀ r s', (s₂.run parser (.sync file version text :: later)).prepare parser = (.ok r, s') →
          r.worker.catalog.buffers.get? file = some (.live ⟨text, version⟩)) ∧
    ∀ version text source, s₀.leftOf file b after = some source → version ≤ source.version →
      ∀ r s', (s₂.openBuffer file version text).prepare parser ≠ (.ok r, s') := by
  obtain ⟨hclosed, hheld⟩ := run_close hb hclose hafter
  rw [hrun] at hclosed hheld
  rw [← hheld]
  have hasked {r : Running} {s' : Session} (h : s₂.prepare parser = (.ok r, s')) :=
    heldSource_prepare hclosed h
  refine ⟨?_, ?_, ?_, ?_, ?_⟩
  · intro names s' hnames hunregistered
    obtain ⟨r, h, rfl⟩ := files_eq_ok hnames
    have haux := hunregistered.2 r (ready_of_prepare h).running
    rw [Catalog.mem_files_iff haux hunregistered.1, hasked h]
  · intro version s' hversion hunregistered
    obtain ⟨r, h, rfl⟩ := version_eq_ok hversion
    have haux := hunregistered.2 r (ready_of_prepare h).running
    rw [Catalog.version?_eq haux hunregistered.1, hasked h]
  · intro text s' htext hunregistered
    obtain ⟨r, h, rfl⟩ := text_eq_ok htext
    have haux := hunregistered.2 r (ready_of_prepare h).running
    rw [Catalog.text?_eq haux hunregistered.1, hasked h]
  · intro version text later hunregistered hnewer hsync hclose' hlibs
    have hsettings : (s₂.step parser (.sync file version text)).2.settings = s₂.settings :=
      (sync_moves s₂ file version text).settings_eq rfl
    have hlibs₂ : file ∉ s₂.settings.libs.keys := hsettings ▸ hlibs [] List.nil_prefix
    obtain ⟨b₁, hsource₁, h₁⟩ := sync_acceptable hclosed hunregistered hlibs₂ hnewer
    obtain ⟨b', hsource', h'⟩ := h₁.run hsync hclose' hlibs
    have hsource : b'.source = ⟨text, version⟩ := hsource'.trans hsource₁
    refine ⟨b', h'.opened, hsource, ?_⟩
    intro r s' hprepare
    rw [← hsource]
    exact h'.prepare (hlibs later List.prefix_rfl) hprepare
  · intro version text source hsource hle r s'
    exact (outdone_openBuffer hsource hle text).prepare_ne_ok (by simp) r s'

/-- The worker holds version 1 when version 2 is closed, so version 1 is listed from then on, and
what is opened next has to be newer than it. -/
theorem closed_buffer_shows_first_version :
    let parser := ParseTable.parser ⟨[]⟩
    let s₀ := (start {}).run parser [.sync "a.ts" ⟨1⟩ "one", .files, .sync "a.ts" ⟨2⟩ "two"]
    let s₂ := (s₀.close parser "a.ts").2.run parser [.sync "b.ts" ⟨1⟩ "", .files]
    s₀.buffers.get? "a.ts" = some ⟨⟨2⟩, "two", false⟩ ∧ (s₀.close parser "a.ts").1 = true ∧
    (∃ names, (s₂.files parser).1 = .ok names ∧ "a.ts" ∈ names) ∧
    (∀ r s', (s₂.openBuffer "a.ts" ⟨1⟩ "three").prepare parser ≠ (.ok r, s')) ∧
    ∃ b, (s₂.run parser [.sync "a.ts" ⟨2⟩ "three", .retire, .files]).buffers.get? "a.ts" = some b ∧
      b.source = ⟨"three", ⟨2⟩⟩ := by
  intro parser s₀ s₂
  have hb : s₀.buffers.get? "a.ts" = some ⟨⟨2⟩, "two", false⟩ := by decide +kernel
  have hclose : (s₀.close parser "a.ts").1 = true := by decide +kernel
  have hrun : (s₀.close parser "a.ts").2.run parser [.sync "b.ts" ⟨1⟩ "", .files] = s₂ := rfl
  have hleft : s₀.leftOf "a.ts" ⟨⟨2⟩, "two", false⟩ [.sync "b.ts" ⟨1⟩ "", .files] =
      some (.live ⟨"one", ⟨1⟩⟩) := by decide +kernel
  have hnames : (s₂.files parser).1 = .ok ["a.ts", "b.ts", "defaultLib:lib.es6.d.ts"] := by
    decide +kernel
  have hfree : s₂.Unregistered "a.ts" := by decide +kernel
  have hfree' : (s₂.files parser).2.Unregistered "a.ts" := by decide +kernel
  have hlibs : ∀ begun ∈ List.inits [Operation.retire, .files], "a.ts" ∉
      (s₂.run parser (.sync "a.ts" ⟨2⟩ "three" :: begun)).settings.libs.keys := by decide +kernel
  clear_value s₂ s₀ parser
  obtain ⟨hfiles, -, -, hlater, hstale⟩ :=
    closed_buffer_shows_left parser hb (Prod.ext hclose rfl) (by simp) hrun
  rw [hleft] at hfiles hlater hstale
  refine ⟨hb, hclose, ⟨_, hnames, (hfiles _ _ (Prod.ext hnames rfl) hfree').2 rfl⟩,
    hstale ⟨1⟩ "three" (.live ⟨"one", ⟨1⟩⟩) rfl (by decide), ?_⟩
  obtain ⟨b, hb', hsource, -⟩ := hlater ⟨2⟩ "three" [.retire, .files] hfree (by decide) (by simp)
    (by simp) fun begun hbegun => hlibs begun ((List.mem_inits _ _).2 hbegun)
  exact ⟨b, hb', hsource⟩

end ScriptLens.Session
