import ScriptLens.Catalog.Basic
import ScriptLens.Proofs.Store.Dict
import ScriptLens.Proofs.Store.Table

namespace ScriptLens

theorem Version.not_le {a b : Version} : ¬ a ≤ b ↔ b < a :=
  UInt64.not_le

namespace Catalog

structure Apart (c : Catalog) : Prop where
  buffers : ∀ file ∈ c.buffers.keys, file ∉ c.auxiliary.keys ∧ isBuiltin file = false
  auxiliary : ∀ file ∈ c.auxiliary.keys, isBuiltin file = false

theorem apart_empty (options : CompilerOptions) : Apart { options } := by
  constructor
  · intro file h
    exact absurd h List.not_mem_nil
  · intro file h
    exact absurd h List.not_mem_nil

theorem sync_eq_ok_iff {c d : Catalog} {file : String} {version : Version} {text : String} :
    c.sync file version text = .ok d ↔
      (file ∉ c.auxiliary.keys ∧ isBuiltin file = false) ∧
      (∀ source, c.buffers.get? file = some source → source.version < version) ∧
      d = { c with buffers := c.buffers.insert file (.live ⟨text, version⟩) } := by
  have haux : file ∉ c.auxiliary.keys ↔ c.auxiliary.contains file = false := by
    rw [Dict.mem_keys_iff, ← Bool.not_eq_true]
    rfl
  rw [haux]
  unfold sync
  by_cases hname : c.auxiliary.contains file || isBuiltin file
  · rw [if_pos hname]
    constructor
    · intro h
      cases h
    · rintro ⟨⟨h₁, h₂⟩, -⟩
      simp [h₁, h₂] at hname
  · rw [if_neg hname]
    simp only [Bool.or_eq_true, not_or, Bool.not_eq_true] at hname
    simp only [hname, and_self, true_and]
    cases hget : c.buffers.get? file with
    | none => simp [eq_comm]
    | some source =>
        by_cases hv : version ≤ source.version
        · simp [hv, ← Version.not_le]
        · simp [hv, ← Version.not_le, eq_comm]

theorem setAuxiliary_eq_ok_iff {c d : Catalog} {libs : Dict Source} :
    c.setAuxiliary libs = .ok d ↔
      (∀ file ∈ libs.keys, file ∉ c.buffers.keys ∧ isBuiltin file = false) ∧
      d = { c with auxiliary := libs.map .declaration } := by
  have hfree : (libs.keys.find? fun name => c.buffers.contains name || isBuiltin name) = none ↔
      ∀ file ∈ libs.keys, file ∉ c.buffers.keys ∧ isBuiltin file = false := by
    simp only [List.find?_eq_none, Bool.or_eq_true, not_or, Bool.not_eq_true]
    simp only [Table.mem_keys_iff, Bool.not_eq_true]
    rfl
  unfold setAuxiliary
  cases hfind : libs.keys.find? fun name => c.buffers.contains name || isBuiltin name with
  | none =>
      constructor
      · intro h
        cases h
        exact ⟨hfree.1 hfind, rfl⟩
      · rintro ⟨-, rfl⟩
        rfl
  | some clash =>
      constructor
      · intro h
        cases h
      · rintro ⟨h, -⟩
        rw [hfree.2 h] at hfind
        cases hfind

theorem Apart.sync {c d : Catalog} (hc : c.Apart) {file : String} {version : Version}
    {text : String} (h : c.sync file version text = .ok d) : d.Apart := by
  obtain ⟨hname, -, rfl⟩ := sync_eq_ok_iff.1 h
  refine ⟨?_, hc.auxiliary⟩
  intro name hmem
  rw [Table.mem_keys_iff, Table.get?_insert] at hmem
  by_cases heq : name = file
  · exact heq ▸ hname
  · rw [if_neg heq, ← Table.mem_keys_iff] at hmem
    exact hc.buffers name hmem

theorem Apart.close {c : Catalog} (hc : c.Apart) (file : String) : (c.close file).Apart := by
  refine ⟨?_, hc.auxiliary⟩
  intro name hmem
  have hmem' : name ∈ (c.buffers.erase file).keys := hmem
  rw [Table.keys_erase, List.mem_filter] at hmem'
  exact hc.buffers name hmem'.1

theorem Apart.setAuxiliary {c d : Catalog} (hc : c.Apart) {libs : Dict Source}
    (h : c.setAuxiliary libs = .ok d) : d.Apart := by
  obtain ⟨hlibs, rfl⟩ := setAuxiliary_eq_ok_iff.1 h
  constructor
  · intro name hmem
    rw [Dict.keys_map]
    exact ⟨fun haux => (hlibs name haux).1 hmem, (hc.buffers name hmem).2⟩
  · intro name hmem
    rw [Dict.keys_map] at hmem
    exact (hlibs name hmem).2

theorem Apart.setOptions {c : Catalog} (hc : c.Apart) (options : CompilerOptions) :
    (c.setOptions options).Apart :=
  ⟨hc.buffers, hc.auxiliary⟩

theorem version?_of_buffer {c : Catalog} {file : String} {source : Entered}
    (h : c.buffers.get? file = some source) : c.version? file = some source.version := by
  simp [version?, entered?, h]

theorem text?_of_buffer {c : Catalog} {file : String} {source : Entered}
    (h : c.buffers.get? file = some source) : c.text? file = some source.text := by
  simp [text?, entered?, h]

theorem Apart.entered?_of_auxiliary {c : Catalog} (hc : c.Apart) {file : String} {source : Entered}
    (h : c.auxiliary.get? file = some source) : c.entered? file = some source := by
  have haux : file ∈ c.auxiliary.keys := by
    rw [Dict.mem_keys_iff, h]
    rfl
  cases hget : c.buffers.get? file with
  | none => rw [entered?, hget, h, Option.none_or]
  | some buffer => exact absurd haux (hc.buffers file (Table.mem_keys_of_get? hget)).1

theorem ne_name_of_isBuiltin_eq_false {file : String} (h : isBuiltin file = false)
    (builtin : Builtin) : file ≠ builtin.name := by
  rintro rfl
  cases builtin <;> cases h

section Unregistered

variable {c : Catalog} {file : String} (haux : file ∉ c.auxiliary.keys)
  (hbuiltin : isBuiltin file = false)

include haux

theorem entered?_of_notMem_auxiliary : c.entered? file = c.buffers.get? file := by
  rw [Dict.mem_keys_iff, Bool.not_eq_true, Option.isSome_eq_false_iff, Option.isNone_iff_eq_none]
    at haux
  rw [entered?, haux, Option.or_none]

include hbuiltin

theorem mem_files_iff : file ∈ c.files ↔ (c.buffers.get? file).isSome := by
  have hname := ne_name_of_isBuiltin_eq_false hbuiltin c.builtin
  simp only [files, List.mem_append, List.mem_singleton, haux, hname, or_false]
  exact Table.mem_keys_iff _ _

theorem version?_eq : c.version? file = (c.buffers.get? file).map (·.version) := by
  have hname := ne_name_of_isBuiltin_eq_false hbuiltin c.builtin
  rw [version?, entered?_of_notMem_auxiliary haux, if_neg hname, Option.or_none]

theorem text?_eq : c.text? file = (c.buffers.get? file).map (·.text) := by
  have hnone : Builtin.ofName? file = none := by
    rwa [isBuiltin, Option.isSome_eq_false_iff, Option.isNone_iff_eq_none] at hbuiltin
  rw [text?, entered?_of_notMem_auxiliary haux, hnone, Option.map_none, Option.or_none]

end Unregistered

end Catalog

end ScriptLens
