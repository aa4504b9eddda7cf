import Mathlib.Data.List.Nodup
import ScriptLens.Proofs.Catalog.Sections
import ScriptLens.Worker.Basic

namespace ScriptLens

inductive Call where
  | sync (file : String) (version : Version) (text : String)
  | close (file : String)
  | setAuxiliary (libs : Dict Source)
  | setOptions (options : CompilerOptions)
deriving DecidableEq

def Call.request : Call → Request
  | sync file version text => .syncBuffer file version text
  | close file => .closeBuffer file
  | setAuxiliary libs => .syncLibs libs
  | setOptions options => .updateOptions options

namespace Catalog

def call (c : Catalog) : Call → Except CatalogError Catalog
  | .sync file version text => c.sync file version text
  | .close file => .ok (c.close file)
  | .setAuxiliary libs => c.setAuxiliary libs
  | .setOptions options => .ok (c.setOptions options)

/-- The catalog after a call, whether it succeeds or not. -/
def after (c : Catalog) (k : Call) : Catalog :=
  match c.call k with
  | .ok d => d
  | .error _ => c

def run (c : Catalog) (calls : List Call) : Catalog :=
  calls.foldl after c

theorem after_of_ok {c d : Catalog} {k : Call} (h : c.call k = .ok d) : c.after k = d := by
  rw [after, h]

theorem after_of_error {c : Catalog} {k : Call} {e : CatalogError} (h : c.call k = .error e) :
    c.after k = c := by
  rw [after, h]

theorem respond_call (parser : Parser) (w : Worker) (k : Call) :
    w.respond parser k.request = w.change (w.catalog.call k) := by
  cases k <;> rfl

theorem respond_calls (parser : Parser) (w : Worker) (calls : List Call) :
    calls.foldl (fun w k => (w.respond parser k.request).2) w =
      { w with catalog := w.catalog.run calls } := by
  induction calls generalizing w with
  | nil => rfl
  | cons k calls ih =>
      have hk : (w.respond parser k.request).2 = { w with catalog := w.catalog.after k } := by
        rw [respond_call]
        cases h : w.catalog.call k with
        | ok d => rw [after_of_ok h, Worker.change]
        | error e => rw [after_of_error h, Worker.change]
      rw [List.foldl_cons, ih, hk]
      rfl

theorem Apart.call {c d : Catalog} (hc : c.Apart) {k : Call} (h : c.call k = .ok d) : d.Apart := by
  cases k with
  | sync file version text => exact hc.sync h
  | close file =>
      cases h
      exact hc.close file
  | setAuxiliary libs => exact hc.setAuxiliary h
  | setOptions options =>
      cases h
      exact hc.setOptions options

/-- What every call keeps that succeeds is kept by a run. -/
theorem run_induction {P : Catalog → Prop}
    (hcall : ∀ (c d : Catalog) (k : Call), P c → c.call k = .ok d → P d) {c : Catalog} (hc : P c)
    (calls : List Call) : P (c.run calls) := by
  induction calls generalizing c with
  | nil => exact hc
  | cons k calls ih =>
      apply ih
      cases h : c.call k with
      | ok d => exact after_of_ok h ▸ hcall c d k hc h
      | error e => exact (after_of_error h).symm ▸ hc

theorem Apart.run {c : Catalog} (hc : c.Apart) (calls : List Call) : (c.run calls).Apart :=
  run_induction (fun _ _ _ hc h => hc.call h) hc calls

def builtinNames : List String :=
  Builtin.all.map (·.name)

theorem isBuiltin_iff {file : String} : isBuiltin file = true ↔ file ∈ builtinNames := by
  simp [isBuiltin, Builtin.ofName?, builtinNames]

theorem notMem_builtinNames {file : String} (h : isBuiltin file = false) :
    file ∉ builtinNames := by
  rwa [← isBuiltin_iff, Bool.not_eq_true]

theorem builtin_name_mem (c : Catalog) : c.builtin.name ∈ builtinNames := by
  cases c.builtin <;> decide

def Holds (c : Catalog) (file : String) : Origin → Prop
  | .liveBuffer => file ∈ c.buffers.keys
  | .auxiliaryDeclaration => file ∈ c.auxiliary.keys
  | .builtinDefault => file ∈ builtinNames

variable {c : Catalog} {file : String}

theorem contains_buffers_iff : c.buffers.contains file = true ↔ file ∈ c.buffers.keys :=
  (Table.mem_keys_iff _ _).symm

theorem contains_auxiliary_iff : c.auxiliary.contains file = true ↔ file ∈ c.auxiliary.keys :=
  (Dict.mem_keys_iff _ _).symm

theorem isSome_entered?_iff :
    (c.entered? file).isSome ↔ file ∈ c.buffers.keys ∨ file ∈ c.auxiliary.keys := by
  rw [entered?, Option.isSome_or, Bool.or_eq_true, Table.mem_keys_iff, Dict.mem_keys_iff]

theorem isSome_version?_iff : (c.version? file).isSome ↔ file ∈ c.files := by
  rw [version?, Option.isSome_or, Bool.or_eq_true, Option.isSome_map, isSome_entered?_iff]
  simp [files, or_assoc]

theorem exists_holds_iff :
    (∃ origin, c.Holds file origin) ↔ file ∈ c.files ∨ file ∈ builtinNames := by
  have hname := c.builtin_name_mem
  simp only [files, List.mem_append, List.mem_singleton]
  constructor
  · rintro ⟨origin, h⟩
    cases origin with
    | liveBuffer => exact .inl (.inl (.inl h))
    | auxiliaryDeclaration => exact .inl (.inl (.inr h))
    | builtinDefault => exact .inr h
  · rintro (((h | h) | rfl) | h)
    · exact ⟨.liveBuffer, h⟩
    · exact ⟨.auxiliaryDeclaration, h⟩
    · exact ⟨.builtinDefault, hname⟩
    · exact ⟨.builtinDefault, h⟩

theorem isSome_text?_iff : (c.text? file).isSome ↔ ∃ origin, c.Holds file origin := by
  rw [text?, Option.isSome_or, Bool.or_eq_true, Option.isSome_map, Option.isSome_map,
    isSome_entered?_iff]
  change _ ∨ isBuiltin file = true ↔ _
  rw [isBuiltin_iff]
  constructor
  · rintro ((h | h) | h)
    · exact ⟨.liveBuffer, h⟩
    · exact ⟨.auxiliaryDeclaration, h⟩
    · exact ⟨.builtinDefault, h⟩
  · rintro ⟨origin, h⟩
    cases origin with
    | liveBuffer => exact .inl (.inl h)
    | auxiliaryDeclaration => exact .inl (.inr h)
    | builtinDefault => exact .inr h

theorem Apart.nodup_files (hc : c.Apart) : c.files.Nodup := by
  have hname := c.builtin_name_mem
  have hentered : (c.buffers.keys ++ c.auxiliary.keys).Nodup := by
    refine List.Nodup.append c.buffers.distinct c.auxiliary.distinct ?_
    intro file hbuffer haux
    exact (hc.buffers file hbuffer).1 haux
  refine hentered.append (List.nodup_singleton _) ?_
  intro file hfile hlast
  rw [List.mem_singleton.1 hlast] at hfile
  rcases List.mem_append.1 hfile with h | h
  · exact notMem_builtinNames (hc.buffers _ h).2 hname
  · exact notMem_builtinNames (hc.auxiliary _ h) hname

structure Tagged (c : Catalog) : Prop where
  buffers : ∀ file e, c.buffers.get? file = some e → e.origin = .liveBuffer
  auxiliary : ∀ file e, c.auxiliary.get? file = some e → e.origin = .auxiliaryDeclaration

theorem tagged_empty (options : CompilerOptions) : Tagged { options } := by
  constructor <;> intro file e h <;> cases h

theorem Tagged.call {c d : Catalog} (hc : c.Tagged) {k : Call} (h : c.call k = .ok d) :
    d.Tagged := by
  cases k with
  | sync name version text =>
      obtain ⟨-, -, rfl⟩ := sync_eq_ok_iff.1 h
      refine ⟨?_, hc.auxiliary⟩
      intro file e he
      rw [Table.get?_insert] at he
      split at he
      · cases he
        rfl
      · exact hc.buffers file e he
  | close name =>
      cases h
      refine ⟨?_, hc.auxiliary⟩
      intro file e he
      change (c.buffers.erase name).get? file = some e at he
      rw [Table.get?_erase] at he
      split at he
      · cases he
      · exact hc.buffers file e he
  | setAuxiliary libs =>
      obtain ⟨-, rfl⟩ := setAuxiliary_eq_ok_iff.1 h
      refine ⟨hc.buffers, ?_⟩
      intro file e he
      rw [Dict.get?_map] at he
      obtain ⟨lib, -, rfl⟩ := Option.map_eq_some_iff.1 he
      rfl
  | setOptions options =>
      cases h
      exact ⟨hc.buffers, hc.auxiliary⟩

theorem Tagged.run {c : Catalog} (hc : c.Tagged) (calls : List Call) : (c.run calls).Tagged :=
  run_induction (fun _ _ _ hc h => hc.call h) hc calls

theorem Tagged.origin?_eq (hc : c.Tagged) :
    c.origin? file =
      if file ∈ c.buffers.keys then some .liveBuffer
      else if file ∈ c.auxiliary.keys then some .auxiliaryDeclaration
      else if file ∈ builtinNames then some .builtinDefault else none := by
  simp only [origin?, entered?, ← isBuiltin_iff, Table.mem_keys_iff, Dict.mem_keys_iff]
  cases hbuffer : c.buffers.get? file with
  | some e => simp [hc.buffers file e hbuffer]
  | none =>
      cases haux : c.auxiliary.get? file with
      | some e => simp [hc.auxiliary file e haux]
      | none => simp

theorem Apart.origin?_eq_some_iff (hc : c.Apart) (htagged : c.Tagged) {origin : Origin} :
    c.origin? file = some origin ↔ c.Holds file origin := by
  rw [htagged.origin?_eq]
  by_cases hbuffer : file ∈ c.buffers.keys
  · obtain ⟨haux, hbuiltin⟩ := hc.buffers file hbuffer
    cases origin <;> simp [Holds, hbuffer, haux, notMem_builtinNames hbuiltin]
  · by_cases haux : file ∈ c.auxiliary.keys
    · cases origin <;> simp [Holds, hbuffer, haux, notMem_builtinNames (hc.auxiliary file haux)]
    · by_cases hbuiltin : file ∈ builtinNames <;>
        cases origin <;> simp [Holds, hbuffer, haux, hbuiltin]

theorem Apart.isSome_origin?_iff (hc : c.Apart) (htagged : c.Tagged) :
    (c.origin? file).isSome ↔ ∃ origin, c.Holds file origin := by
  simp only [Option.isSome_iff_exists, hc.origin?_eq_some_iff htagged]

/-- After any calls, no name has two sections, and every look-up knows the names that are listed: a
version belongs to each of these, a text and an origin also to the builtin declarations that are not
in effect, and the origin is the one section that has the name. -/
theorem run_names_apart (options : CompilerOptions) (calls : List Call) :
    let c := run { options } calls
    c.buffers.keys.Disjoint c.auxiliary.keys ∧ c.buffers.keys.Disjoint builtinNames ∧
    c.auxiliary.keys.Disjoint builtinNames ∧ builtinNames.Nodup ∧ c.files.Nodup ∧
    ∀ file, ((c.version? file).isSome ↔ file ∈ c.files) ∧
      ((c.text? file).isSome ↔ file ∈ c.files ∨ file ∈ builtinNames) ∧
      ((c.origin? file).isSome ↔ file ∈ c.files ∨ file ∈ builtinNames) ∧
      ∀ origin, c.origin? file = some origin ↔ c.Holds file origin := by
  intro c
  have hc : c.Apart := (apart_empty options).run calls
  have htagged : c.Tagged := (tagged_empty options).run calls
  refine ⟨?_, ?_, ?_, by decide, hc.nodup_files, ?_⟩
  · intro file hbuffer haux
    exact (hc.buffers file hbuffer).1 haux
  · intro file hbuffer
    exact notMem_builtinNames (hc.buffers file hbuffer).2
  · intro file haux
    exact notMem_builtinNames (hc.auxiliary file haux)
  · intro file
    exact ⟨isSome_version?_iff, isSome_text?_iff.trans exists_holds_iff,
      (hc.isSome_origin?_iff htagged).trans exists_holds_iff,
      fun origin => hc.origin?_eq_some_iff htagged⟩

end Catalog

end ScriptLens
