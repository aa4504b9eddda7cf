import Mathlib.Data.List.DropRight
import Mathlib.Data.List.Pairwise
import ScriptLens.Proofs.Catalog.Calls

namespace ScriptLens

theorem Version.lt_trans {a b c : Version} (hab : a < b) (hbc : b < c) : a < c :=
  UInt64.lt_trans hab hbc

theorem Dict.find?_keys_eq_some_iff {α : Type} (d : Dict α) (p : String → Bool) (key : String) :
    d.keys.find? p = some key ↔
      key ∈ d.keys ∧ p key = true ∧ ∀ other ∈ d.keys, p other = true → key ≤ other := by
  have hascending : d.keys.Pairwise (· < ·) := d.ascending
  generalize d.keys = keys at hascending
  induction keys with
  | nil => simp
  | cons k rest ih =>
      obtain ⟨habove, hrest⟩ := List.pairwise_cons.1 hascending
      cases hk : p k with
      | true =>
          rw [List.find?_cons_of_pos hk, Option.some.injEq]
          constructor
          · rintro rfl
            refine ⟨List.mem_cons_self, hk, ?_⟩
            intro other hother _
            rcases List.mem_cons.1 hother with rfl | hother
            · exact String.le_refl _
            · exact Std.le_of_lt (habove other hother)
          · rintro ⟨hkey, -, hleast⟩
            rcases List.mem_cons.1 hkey with rfl | hkey
            · rfl
            · exact absurd (habove key hkey) (hleast k List.mem_cons_self hk)
      | false =>
          rw [List.find?_cons_of_neg (by simp [hk])]
          refine (ih hrest).trans ?_
          have hne : ∀ other, p other = true → other ≠ k := by
            rintro other hother rfl
            rw [hk] at hother
            cases hother
          constructor
          · rintro ⟨hkey, hp, hleast⟩
            refine ⟨List.mem_cons_of_mem _ hkey, hp, ?_⟩
            intro other hother hother'
            exact hleast other (List.mem_of_ne_of_mem (hne other hother') hother) hother'
          · rintro ⟨hkey, hp, hleast⟩
            refine ⟨List.mem_of_ne_of_mem (hne key hp) hkey, hp, ?_⟩
            intro other hother
            exact hleast other (List.mem_cons_of_mem _ hother)

namespace Call

def concerns (file : String) : Call → Bool
  | sync name _ _ | close name => name = file
  | setAuxiliary _ | setOptions _ => false

def source? (file : String) : Call → Option Source
  | sync name version text => if name = file then some ⟨text, version⟩ else none
  | close _ | setAuxiliary _ | setOptions _ => none

def libs? : Call → Option (Dict Source)
  | setAuxiliary libs => some libs
  | sync .. | close _ | setOptions _ => none

def lastSource? (file : String) (history : List Call) : Option Source :=
  (history.filter (·.concerns file)).getLast?.bind (·.source? file)

def lastLibs (history : List Call) : Dict Source :=
  (history.filterMap libs?).getLast?.getD .empty

/-- Where in a history a file was opened: the first call since its last close that gives it a
source. -/
def openedAt (file : String) (history : List Call) : Option Nat :=
  let sinceClose := history.zipIdx.rtakeWhile (·.1 ≠ close file)
  (sinceClose.find? fun e => (e.1.source? file).isSome).map (·.2)

variable {file : String} {history : List Call} {k : Call}

theorem lastSource?_concat :
    lastSource? file (history ++ [k]) =
      if k.concerns file then k.source? file else lastSource? file history := by
  cases hk : k.concerns file <;> simp [lastSource?, List.filter_append, hk]

theorem lastLibs_concat :
    lastLibs (history ++ [k]) = k.libs?.getD (lastLibs history) := by
  cases hk : k.libs? <;> simp [lastLibs, List.filterMap_append, hk]

theorem openedAt_concat_close : openedAt file (history ++ [close file]) = none := by
  simp [openedAt, List.zipIdx_append]

theorem openedAt_concat (hk : k ≠ close file) :
    openedAt file (history ++ [k]) = (openedAt file history).or
      (if (k.source? file).isSome then some history.length else none) := by
  have hlast : (k, history.length).1 ≠ close file := hk
  simp only [openedAt, List.zipIdx_append, List.zipIdx_singleton, Nat.zero_add]
  rw [List.rtakeWhile_concat_pos _ _ _ (by simpa using hlast), List.find?_append, Option.map_or]
  congr 1
  cases hsource : (k.source? file).isSome <;> simp [hsource]

theorem openedAt_lt {i : Nat} (h : openedAt file history = some i) : i < history.length := by
  induction history using List.reverseRecOn with
  | nil => cases h
  | append_singleton history k ih =>
      rw [List.length_append, List.length_singleton]
      by_cases hk : k = close file
      · rw [hk, openedAt_concat_close] at h
        cases h
      · rw [openedAt_concat hk, Option.or_eq_some_iff] at h
        rcases h with h | ⟨-, h⟩
        · exact Nat.lt_succ_of_lt (ih h)
        · split at h
          · cases h
            exact Nat.lt_succ_self _
          · cases h

theorem openedAt_concat_of_open {i : Nat} (h : openedAt file history = some i)
    (hk : k ≠ close file) : openedAt file (history ++ [k]) = some i := by
  rw [openedAt_concat hk, h, Option.some_or]

theorem openedAt_concat_of_not (hk : k ≠ close file) (hsource : k.source? file = none) :
    openedAt file (history ++ [k]) = openedAt file history := by
  rw [openedAt_concat hk, hsource]
  simp

end Call

namespace Catalog

open Call

def accepted (c : Catalog) : List Call → List Call
  | [] => []
  | k :: rest =>
    match c.call k with
    | .ok d => k :: accepted d rest
    | .error _ => accepted c rest

theorem accepted_of_ok {c d : Catalog} {k : Call} (h : c.call k = .ok d) (rest : List Call) :
    c.accepted (k :: rest) = k :: d.accepted rest := by
  rw [accepted, h]

theorem accepted_of_error {c : Catalog} {k : Call} {e : CatalogError} (h : c.call k = .error e)
    (rest : List Call) : c.accepted (k :: rest) = c.accepted rest := by
  rw [accepted, h]

/-- What a history tells of a catalog: which buffers are open and with which sources, in the order
they were opened, and which auxiliary declarations there are. -/
structure Recounts (history : List Call) (c : Catalog) : Prop where
  source : ∀ file, c.buffers.get? file = (lastSource? file history).map .live
  opened : ∀ file, file ∈ c.buffers.keys ↔ ∃ i, openedAt file history = some i
  order : c.buffers.keys.Pairwise fun a b =>
    ∀ i j, openedAt a history = some i → openedAt b history = some j → i < j
  auxiliary : c.auxiliary = (lastLibs history).map .declaration

theorem recounts_empty (options : CompilerOptions) : Recounts [] { options } := by
  refine ⟨fun file => rfl, ?_, .nil, rfl⟩
  intro file
  constructor
  · intro h
    exact absurd h List.not_mem_nil
  · rintro ⟨i, h⟩
    cases h

variable {c d : Catalog} {history : List Call} {k : Call}

theorem Recounts.other (h : Recounts history c) (hk : ∀ file, k.concerns file = false)
    (hbuffers : d.buffers = c.buffers)
    (hauxiliary : d.auxiliary = (k.libs?.map (·.map .declaration)).getD c.auxiliary) :
    Recounts (history ++ [k]) d := by
  have hsame (file : String) : openedAt file (history ++ [k]) = openedAt file history := by
    apply openedAt_concat_of_not
    · rintro rfl
      have hfile := hk file
      simp [concerns] at hfile
    · cases k with
      | sync name =>
          have hname := hk name
          simp [concerns] at hname
      | close | setAuxiliary | setOptions => rfl
  constructor
  · intro file
    rw [lastSource?_concat, hk file, hbuffers]
    exact h.source file
  · intro file
    rw [hbuffers, hsame]
    exact h.opened file
  · rw [hbuffers]
    simp only [hsame]
    exact h.order
  · rw [hauxiliary, lastLibs_concat, h.auxiliary]
    cases k.libs? <;> rfl

theorem Recounts.opened_sync (h : Recounts history c) (file : String) (version : Version)
    (text : String) (name : String) : name ∈ c.buffers.keys ∨ name = file ↔
      ∃ i, openedAt name (history ++ [.sync file version text]) = some i := by
  have hne : Call.sync file version text ≠ .close name := by simp
  rw [openedAt_concat hne, h.opened name]
  by_cases hname : file = name
  · cases openedAt name history <;> simp [source?, hname]
  · simp [source?, hname, Ne.symm hname]

/-- Files that are open stay in the order in which they were opened. -/
theorem Recounts.order_concat (h : Recounts history c) (hk : ∀ file, k ≠ .close file) :
    c.buffers.keys.Pairwise fun a b => ∀ i j, openedAt a (history ++ [k]) = some i →
      openedAt b (history ++ [k]) = some j → i < j := by
  refine h.order.imp_of_mem ?_
  intro a b ha hb hlt i j hi hj
  obtain ⟨i', hi'⟩ := (h.opened a).1 ha
  obtain ⟨j', hj'⟩ := (h.opened b).1 hb
  cases (openedAt_concat_of_open hi' (hk a)).symm.trans hi
  cases (openedAt_concat_of_open hj' (hk b)).symm.trans hj
  exact hlt _ _ hi' hj'

/-- A file that is opened now comes after all that are open already. -/
theorem Recounts.opened_last (h : Recounts history c) (hk : ∀ file, k ≠ .close file)
    {name file : String} (hname : name ∈ c.buffers.keys) (hfile : file ∉ c.buffers.keys) {i j : Nat}
    (hi : openedAt name (history ++ [k]) = some i) (hj : openedAt file (history ++ [k]) = some j) :
    i < j := by
  obtain ⟨i', hi'⟩ := (h.opened name).1 hname
  cases (openedAt_concat_of_open hi' (hk name)).symm.trans hi
  have hnone : openedAt file history = none :=
    Option.eq_none_iff_forall_ne_some.2 fun i hi => hfile ((h.opened file).2 ⟨i, hi⟩)
  rw [openedAt_concat (hk file), hnone, Option.none_or] at hj
  split at hj
  · cases hj
    exact openedAt_lt hi'
  · cases hj

theorem Recounts.sync (h : Recounts history c) {file : String} {version : Version} {text : String}
    (hsync : c.sync file version text = .ok d) :
    Recounts (history ++ [.sync file version text]) d := by
  obtain ⟨-, -, rfl⟩ := sync_eq_ok_iff.1 hsync
  have hne (name : String) : Call.sync file version text ≠ .close name := by simp
  constructor
  · intro name
    rw [lastSource?_concat, Table.get?_insert, h.source name]
    by_cases hname : name = file
    · simp [concerns, source?, hname]
    · simp [concerns, hname, Ne.symm hname]
  · intro name
    rw [← h.opened_sync, Table.keys_insert]
    split
    · next hmem =>
      constructor
      · exact .inl
      · rintro (hname | rfl)
        · exact hname
        · exact hmem
    · simp
  · rw [Table.keys_insert]
    split
    · exact h.order_concat hne
    · next habsent =>
      refine List.pairwise_append.2 ⟨h.order_concat hne, List.pairwise_singleton _ _, ?_⟩
      intro a ha b hb i j
      obtain rfl : b = file := by simpa using hb
      exact h.opened_last hne ha habsent
  · rw [lastLibs_concat]
    exact h.auxiliary

theorem Recounts.close (h : Recounts history c) (file : String) :
    Recounts (history ++ [.close file]) (c.close file) := by
  have hkeys : (c.close file).buffers.keys = c.buffers.keys.filter (· != file) :=
    Table.keys_erase _ _
  have hsame {name : String} (hname : name ≠ file) :
      openedAt name (history ++ [.close file]) = openedAt name history := by
    apply openedAt_concat_of_not
    · simpa using Ne.symm hname
    · rfl
  constructor
  · intro name
    change (c.buffers.erase file).get? name = _
    rw [lastSource?_concat, Table.get?_erase, h.source name]
    by_cases hname : name = file
    · simp [concerns, source?, hname]
    · simp [concerns, hname, Ne.symm hname]
  · intro name
    rw [hkeys, List.mem_filter, h.opened name]
    by_cases hname : name = file
    · subst hname
      simp [openedAt_concat_close]
    · simp [hsame hname, hname]
  · rw [hkeys]
    refine (h.order.filter _).imp_of_mem ?_
    intro a b ha hb hlt
    have ha' : a ≠ file := by simpa using (List.mem_filter.1 ha).2
    have hb' : b ≠ file := by simpa using (List.mem_filter.1 hb).2
    rw [hsame ha', hsame hb']
    exact hlt
  · rw [lastLibs_concat]
    exact h.auxiliary

theorem Recounts.call (h : Recounts history c) (hk : c.call k = .ok d) :
    Recounts (history ++ [k]) d := by
  cases k with
  | sync file version text => exact h.sync hk
  | close file =>
      cases hk
      exact h.close file
  | setAuxiliary libs =>
      obtain ⟨-, rfl⟩ := setAuxiliary_eq_ok_iff.1 hk
      exact h.other (fun _ => rfl) rfl rfl
  | setOptions options =>
      cases hk
      exact h.other (fun _ => rfl) rfl rfl

theorem Recounts.run (h : Recounts history c) (calls : List Call) :
    Recounts (history ++ c.accepted calls) (c.run calls) := by
  induction calls generalizing c history with
  | nil =>
      rw [accepted, List.append_nil]
      exact h
  | cons k calls ih =>
      change Recounts _ ((c.after k).run calls)
      cases hk : c.call k with
      | ok d =>
          rw [after_of_ok hk, accepted_of_ok hk, List.append_cons]
          exact ih (h.call hk)
      | error e =>
          rw [after_of_error hk, accepted_of_error hk]
          exact ih h

theorem get?_call {file : String} (hk : c.call k = .ok d) (hclose : k ≠ .close file) :
    (k.source? file = none ∧ d.buffers.get? file = c.buffers.get? file) ∨
    ∃ source, k.source? file = some source ∧ d.buffers.get? file = some (.live source) ∧
      ∀ old, c.buffers.get? file = some old → old.version < source.version := by
  cases k with
  | sync name version text =>
      obtain ⟨-, hversion, rfl⟩ := sync_eq_ok_iff.1 hk
      by_cases hname : name = file
      · subst hname
        exact .inr ⟨⟨text, version⟩, by simp [source?], by simp, hversion⟩
      · exact .inl ⟨by simp [source?, hname], by simp [Ne.symm hname]⟩
  | close name =>
      cases hk
      have hname : file ≠ name := fun heq => hclose (heq ▸ rfl)
      exact .inl ⟨rfl, by simp [Catalog.close, hname]⟩
  | setAuxiliary libs =>
      obtain ⟨-, rfl⟩ := setAuxiliary_eq_ok_iff.1 hk
      exact .inl ⟨rfl, rfl⟩
  | setOptions options =>
      cases hk
      exact .inl ⟨rfl, rfl⟩

theorem versions_ascend {file : String} {calls within rest : List Call}
    (h : c.accepted calls = within ++ rest) (hclose : .close file ∉ within) :
    (((c.buffers.get? file).map (·.version)).toList ++
      (within.filterMap (·.source? file)).map (·.version)).Pairwise (· < ·) := by
  induction calls generalizing c within with
  | nil =>
      obtain ⟨rfl, -⟩ := List.append_eq_nil_iff.1 h.symm
      simp
  | cons k calls ih =>
      cases hk : c.call k with
      | error e =>
          rw [accepted_of_error hk] at h
          exact ih h hclose
      | ok d =>
          rw [accepted_of_ok hk] at h
          cases within with
          | nil => simp
          | cons k' within =>
              obtain ⟨rfl, hwithin⟩ := List.cons.inj h
              obtain ⟨hk', hclose'⟩ := not_or.1 (mt List.mem_cons.2 hclose)
              have hrest := ih hwithin hclose'
              obtain ⟨hsource, hget⟩ | ⟨source, hsource, hget, hlt⟩ := get?_call hk (Ne.symm hk')
              · rw [List.filterMap_cons_none hsource, ← hget]
                exact hrest
              · rw [List.filterMap_cons_some hsource]
                rw [hget] at hrest
                cases hold : c.buffers.get? file with
                | none => exact hrest
                | some old =>
                    obtain ⟨habove, -⟩ := List.pairwise_cons.1 hrest
                    refine List.pairwise_cons.2 ⟨?_, hrest⟩
                    intro version hversion
                    rcases List.mem_cons.1 hversion with rfl | hversion
                    · exact hlt old hold
                    · exact Version.lt_trans (hlt old hold) (habove version hversion)

theorem accepted_drop {calls before rest : List Call} (h : c.accepted calls = before ++ rest) :
    ∃ (d : Catalog) (calls' : List Call), d.accepted calls' = rest := by
  induction calls generalizing c before with
  | nil =>
      obtain ⟨-, rfl⟩ := List.append_eq_nil_iff.1 h.symm
      exact ⟨c, [], rfl⟩
  | cons k calls ih =>
      cases before with
      | nil => exact ⟨c, k :: calls, h⟩
      | cons k' before =>
          cases hk : c.call k with
          | error e =>
              rw [accepted_of_error hk] at h
              exact ih h
          | ok d =>
              rw [accepted_of_ok hk] at h
              exact ih (List.cons.inj h).2

theorem sync_eq_error_iff {file : String} {version : Version} {text : String} {e : CatalogError} :
    c.sync file version text = .error e ↔
      ((file ∈ c.auxiliary.keys ∨ file ∈ builtinNames) ∧ e = .duplicateSource file) ∨
      (¬ (file ∈ c.auxiliary.keys ∨ file ∈ builtinNames) ∧ ∃ source,
        c.buffers.get? file = some source ∧ version ≤ source.version ∧
        e = .staleVersion file source.version version) := by
  rw [← contains_auxiliary_iff, ← isBuiltin_iff, ← Bool.or_eq_true]
  unfold Catalog.sync
  by_cases hname : (c.auxiliary.contains file || isBuiltin file) = true
  · rw [if_pos hname]
    simp [hname, eq_comm]
  · rw [if_neg hname]
    cases hget : c.buffers.get? file with
    | none => simp [hname]
    | some source => by_cases hv : version ≤ source.version <;> simp [hname, hv, eq_comm]

theorem setAuxiliary_eq_error_iff {libs : Dict Source} {e : CatalogError} :
    c.setAuxiliary libs = .error e ↔ ∃ name ∈ libs.keys,
      (name ∈ c.buffers.keys ∨ name ∈ builtinNames) ∧
      (∀ other ∈ libs.keys, other ∈ c.buffers.keys ∨ other ∈ builtinNames → name ≤ other) ∧
      e = .duplicateSource name := by
  have hclash (name : String) : (c.buffers.contains name || isBuiltin name) = true ↔
      name ∈ c.buffers.keys ∨ name ∈ builtinNames := by
    rw [Bool.or_eq_true, contains_buffers_iff, isBuiltin_iff]
  have hfind := libs.find?_keys_eq_some_iff fun name => c.buffers.contains name || isBuiltin name
  simp only [hclash] at hfind
  unfold Catalog.setAuxiliary
  cases hfirst : libs.keys.find? fun name => c.buffers.contains name || isBuiltin name with
  | none =>
      constructor
      · intro h
        cases h
      · rintro ⟨name, hmem, hname, hleast, -⟩
        rw [(hfind name).2 ⟨hmem, hname, hleast⟩] at hfirst
        cases hfirst
  | some clash =>
      obtain ⟨hmem, hname, hleast⟩ := (hfind clash).1 hfirst
      constructor
      · intro h
        cases h
        exact ⟨clash, hmem, hname, hleast, rfl⟩
      · rintro ⟨name, hmem', hname', hleast', rfl⟩
        cases hfirst.symm.trans ((hfind name).2 ⟨hmem', hname', hleast'⟩)
        rfl

/-- What a catalog has after any calls, and which calls it refuses. A call that is refused changes
nothing. The others make up a history, by which the buffers have the sources of their last calls and
stand in the order they were opened, in which neither a new version nor the end of another buffer
moves them. The versions of a file ascend between two closes. -/
theorem run_recounted (options : CompilerOptions) (calls : List Call) :
    let c := run { options } calls
    let history := accepted { options } calls
    (∀ file version text e, c.sync file version text = .error e ↔
      ((file ∈ c.auxiliary.keys ∨ file ∈ builtinNames) ∧ e = .duplicateSource file) ∨
      (¬ (file ∈ c.auxiliary.keys ∨ file ∈ builtinNames) ∧ ∃ source,
        c.buffers.get? file = some source ∧ version ≤ source.version ∧
        e = .staleVersion file source.version version)) ∧
    (∀ libs e, c.setAuxiliary libs = .error e ↔ ∃ name ∈ libs.keys,
      (name ∈ c.buffers.keys ∨ name ∈ builtinNames) ∧
      (∀ other ∈ libs.keys, other ∈ c.buffers.keys ∨ other ∈ builtinNames → name ≤ other) ∧
      e = .duplicateSource name) ∧
    (∀ parser diagnostics,
      calls.foldl (fun w k => (Worker.respond parser w k.request).2) ⟨{ options }, diagnostics⟩ =
        ⟨c, diagnostics⟩ ∧
      ∀ k e, c.call k = .error e →
        Worker.respond parser ⟨c, diagnostics⟩ k.request = (.error e.message, ⟨c, diagnostics⟩)) ∧
    Recounts history c ∧
    (∀ file before within rest, history = before ++ within ++ rest → .close file ∉ within →
      ((within.filterMap (·.source? file)).map (·.version)).Pairwise (· < ·)) ∧
    (∀ file version text d, c.sync file version text = .ok d → file ∈ c.buffers.keys →
      d.buffers.keys = c.buffers.keys) ∧
    (∀ file, (c.close file).buffers.keys = c.buffers.keys.filter (· != file)) ∧
    c.files = c.buffers.keys ++ c.auxiliary.keys ++ [c.builtin.name] ∧
    c.auxiliary.keys.Pairwise (· < ·) := by
  intro c history
  refine ⟨fun _ _ _ _ => sync_eq_error_iff, fun _ _ => setAuxiliary_eq_error_iff, ?_,
    (recounts_empty options).run calls, ?_, ?_, fun _ => Table.keys_erase _ _, rfl,
    c.auxiliary.ascending⟩
  · intro parser diagnostics
    refine ⟨respond_calls parser _ calls, ?_⟩
    intro k e hk
    rw [respond_call]
    change Worker.change _ (c.call k) = _
    rw [hk, Worker.change]
  · intro file before within rest hhistory hclose
    rw [List.append_assoc] at hhistory
    obtain ⟨d, calls', hd⟩ := accepted_drop hhistory
    have hascend := versions_ascend hd hclose
    exact (List.pairwise_append.1 hascend).2.1
  · intro file version text d hsync hfile
    obtain ⟨-, -, rfl⟩ := sync_eq_ok_iff.1 hsync
    change (c.buffers.insert file _).keys = _
    rw [Table.keys_insert, if_pos hfile]

/-- A buffer gets a new version, another is closed and opened again, and three calls are refused: a
version that is not new, a buffer with the name of a declaration file, and the other way round. -/
theorem run_recounted_reopened :
    let libs (name : String) : Dict Source := .ofList [(name, ⟨"", ⟨1⟩⟩)]
    let calls : List Call := [.sync "a.ts" ⟨5⟩ "old", .sync "b.ts" ⟨1⟩ "", .sync "a.ts" ⟨6⟩ "",
      .sync "b.ts" ⟨1⟩ "stale", .setAuxiliary (libs "lib.d.ts"), .sync "lib.d.ts" ⟨1⟩ "",
      .close "a.ts", .sync "c.ts" ⟨1⟩ "", .sync "a.ts" ⟨1⟩ "new", .setAuxiliary (libs "c.ts"),
      .sync "b.ts" ⟨2⟩ ""]
    let c := run { options := {} } calls
    let history : List Call := [.sync "a.ts" ⟨5⟩ "old", .sync "b.ts" ⟨1⟩ "", .sync "a.ts" ⟨6⟩ "",
      .setAuxiliary (libs "lib.d.ts"), .close "a.ts", .sync "c.ts" ⟨1⟩ "", .sync "a.ts" ⟨1⟩ "new",
      .sync "b.ts" ⟨2⟩ ""]
    accepted { options := {} } calls = history ∧ Recounts history c ∧
    c.files = ["b.ts", "c.ts", "a.ts", "lib.d.ts", "defaultLib:lib.es6.d.ts"] ∧
    lastSource? "a.ts" history = some ⟨"new", ⟨1⟩⟩ ∧
    openedAt "b.ts" history = some 1 ∧ openedAt "c.ts" history = some 5 ∧
    openedAt "a.ts" history = some 6 := by
  intro libs calls c history
  have hhistory : accepted { options := {} } calls = history := by decide +kernel
  obtain ⟨-, -, -, hrecounts, -⟩ := run_recounted {} calls
  rw [hhistory] at hrecounts
  exact ⟨hhistory, hrecounts, by decide +kernel, by decide +kernel, by decide +kernel,
    by decide +kernel, by decide +kernel⟩

end Catalog

end ScriptLens
