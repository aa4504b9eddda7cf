import ScriptLens.Proofs.Json.Reading
import ScriptLens.Proofs.Number.Range
import ScriptLens.Proofs.Wire.Record
import ScriptLens.Wire.Message

namespace ScriptLens

namespace Json

def Fits (levels : Nat) (j : Json) : Prop :=
  j.depth ≤ levels ∧ j.hasValue = true

@[simp] theorem fits_array_iff {levels : Nat} {items : List Json} :
    (array items).Fits (levels + 1) ↔ ∀ j ∈ items, j.Fits levels := by
  rw [Fits, depth, hasValue, Nat.add_le_add_iff_right]
  induction items with
  | nil => simp [depthItems, itemsHaveValue]
  | cons j items ih =>
      rw [depthItems, itemsHaveValue, Nat.max_le, Bool.and_eq_true, and_and_and_comm, ih,
        List.forall_mem_cons, Fits]

@[simp] theorem fits_object_iff {levels : Nat} {members : List (String × Json)} :
    (object members).Fits (levels + 1) ↔ ∀ m ∈ members, m.2.Fits levels := by
  rw [Fits, depth, hasValue, Nat.add_le_add_iff_right]
  induction members with
  | nil => simp [depthMembers, membersHaveValue]
  | cons m members ih =>
      rw [depthMembers, membersHaveValue, Nat.max_le, Bool.and_eq_true, and_and_and_comm, ih,
        List.forall_mem_cons, Fits]

variable (levels : Nat)

@[simp] theorem fits_null : null.Fits levels := ⟨Nat.zero_le _, rfl⟩

@[simp] theorem fits_string (s : String) : (string s).Fits levels := ⟨Nat.zero_le _, rfl⟩

theorem fits_nat {n : Nat} (h : n < UInt64.size) : (nat n).Fits levels :=
  ⟨Nat.zero_le _, Numeral.isFinite_ofNat h⟩

@[simp] theorem fits_uint64 (n : UInt64) : (uint64 n).Fits levels :=
  fits_nat levels n.toNat_lt

@[simp] theorem fits_uint32 (n : UInt32) : (uint32 n).Fits levels :=
  fits_nat levels (Nat.lt_trans n.toNat_lt (by decide))

theorem fits_list {α : Type} {item : α → Json} (h : ∀ a, (item a).Fits levels) (xs : List α) :
    (array (xs.map item)).Fits (levels + 1) := by
  rw [fits_array_iff]
  intro j hj
  obtain ⟨a, -, rfl⟩ := List.mem_map.1 hj
  exact h a

theorem fits_strings (xs : List String) : (strings xs).Fits (levels + 1) :=
  fits_list levels (fits_string levels) xs

theorem fits_dict {α : Type} {value : α → Json} (h : ∀ a, (value a).Fits levels) (d : Dict α) :
    (d.toJson value).Fits (levels + 1) := by
  rw [Dict.toJson, fits_object_iff]
  intro m hm
  obtain ⟨e, -, rfl⟩ := List.mem_map.1 hm
  exact h e.2

theorem canKeep_of_fits {j : Json} (h : j.Fits 4) : j.canKeep 0 = true := by
  have hdepth : 0 + j.depth ≤ maxDepth := by
    rw [Nat.zero_add]
    exact Nat.le_trans h.1 (by decide)
  rw [canKeep, decide_eq_true hdepth, h.2, Bool.and_self]

theorem tagged?_alone (kept : Bool) {tag parts : String} (t : Json) :
    (object [(tag, t)]).tagged? kept tag parts = some (t, none, kept) := by
  simp [tagged?]

theorem tagged?_first (kept : Bool) {tag parts : String} (t p : Json) :
    (object [(tag, t), (parts, p)]).tagged? kept tag parts = some (t, some p, kept) := by
  simp [tagged?]

theorem asOption?_orNull {α : Type} {value : α → Json} {value? : Json → Option α}
    (hvalue : ∀ a, value? (value a) = some a) (hnull : ∀ a, value a ≠ null) (o : Option α) :
    (orNull value o).asOption? value? = some o := by
  cases o with
  | none => rfl
  | some a =>
      rw [orNull, asOption?, hvalue, Option.map_some]
      exact hnull a

end Json

namespace Request

theorem ofFile?_object (request : String → Request) (file : String) :
    ofFile? request (.object [("fileName", .string file)]) = some (request file) := by
  simp [ofFile?, Json.objectFields?]

theorem syncBuffer?_object (file : String) (v : Version) (t : String) :
    syncBuffer? (.object [("fileName", .string file), ("version", v.toJson), ("text", .string t)]) =
      some (syncBuffer file v t) := by
  simp [syncBuffer?, Json.objectFields?, Version.ofJson?_toJson]

theorem syncLibs?_object (libs : Dict Source) :
    syncLibs? (.object [("libs", libs.toJson Source.toJson)]) = some (syncLibs libs) := by
  simp [syncLibs?, Json.objectFields?, Json.asDict?_toJson Source.ofJson?_toJson]

theorem updateOptions?_object (kept : Bool) (options : CompilerOptions) :
    updateOptions? kept (.object [("options", options.toJson)]) = some (updateOptions options) := by
  simp [updateOptions?, Json.objectFields?, CompilerOptions.ofJson?_toJson]

theorem references?_object (file : String) (roots : List String) :
    references? (.object [("fileName", .string file), ("roots", .strings roots)]) =
      some (references file roots) := by
  simp [references?, Json.objectFields?]

theorem readers_params (kept : Bool) (r : Request) :
    ((readers kept).lookup r.method).bind (· r.params) = some r := by
  cases r with
  | syncBuffer file version text => simp [readers, method, params, syncBuffer?_object]
  | closeBuffer file => exact ofFile?_object closeBuffer file
  | syncLibs libs => exact syncLibs?_object libs
  | updateOptions options => exact updateOptions?_object kept options
  | listFiles => rfl
  | version file => exact ofFile?_object version file
  | text file => exact ofFile?_object text file
  | outline file => exact ofFile?_object outline file
  | references file roots => exact references?_object file roots
  | diagnostics file => exact ofFile?_object diagnostics file

theorem ofJson?_toJson (r : Request) : ofJson? r.toJson = some r := by
  have htag : r.toJson.tagged? false "method" "params" =
      some (.string r.method, r.params, false) := by
    rw [toJson]
    cases r.params with
    | none => exact Json.tagged?_alone false _
    | some params => exact Json.tagged?_first false _ params
  rw [ofJson?, htag]
  exact readers_params false r

end Request

namespace Payload

theorem readers_value? (kept : Bool) (p : Payload) :
    ((readers kept).lookup p.kind).bind (· p.value?) = some p := by
  cases p with
  | ack => rfl
  | files names =>
      change ((Json.strings names).asList? Json.asString?).map files = _
      rw [Json.asList?_strings, Option.map_some]
  | version v =>
      change ((Json.orNull Version.toJson v).asOption? Version.ofJson?).map version = _
      rw [Json.asOption?_orNull Version.ofJson?_toJson (fun _ => Json.noConfusion), Option.map_some]
  | text t =>
      change ((Json.orNull .string t).asOption? Json.asString?).map text = _
      rw [Json.asOption?_orNull Json.asString?_string (fun _ => Json.noConfusion), Option.map_some]
  | outline entries =>
      change ((Json.array _).asList? (Outline.Entry.ofJson? kept)).map outline = _
      rw [Json.asList?_map (Outline.Entry.ofJson?_toJson kept), Option.map_some]
  | references refs =>
      change (References.ofJson? refs.toJson).map references = _
      rw [References.ofJson?_toJson, Option.map_some]
  | diagnostics found =>
      change ((Json.array _).asList? (Diagnostic.ofJson? kept)).map diagnostics = _
      rw [Json.asList?_map (Diagnostic.ofJson?_toJson kept), Option.map_some]

theorem ofJson?_toJson (kept : Bool) (p : Payload) : ofJson? kept p.toJson = some p := by
  have htag : p.toJson.tagged? kept "kind" "value" = some (.string p.kind, p.value?, kept) := by
    rw [toJson]
    cases p.value? with
    | none => exact Json.tagged?_alone kept _
    | some value => exact Json.tagged?_first kept _ value
  rw [ofJson?, htag]
  exact readers_value? kept p

end Payload

theorem Outline.Entry.fits_toJson (e : Entry) : e.toJson.Fits 1 := by
  simp [toJson, Construct.toJson]

theorem Diagnostic.fits_toJson (d : Diagnostic) : d.toJson.Fits 1 := by
  simp [toJson, Category.toJson]

namespace Payload

theorem fits_of_value? {p : Payload} {value : Json} (h : p.value? = some value) : value.Fits 2 := by
  cases p with
  | ack => cases h
  | files names =>
      cases h
      exact Json.fits_strings 1 names
  | version v =>
      cases h
      cases v <;> simp [Json.orNull, Version.toJson]
  | text t =>
      cases h
      cases t <;> simp [Json.orNull]
  | outline entries =>
      cases h
      exact Json.fits_list 1 Outline.Entry.fits_toJson entries
  | references refs =>
      cases h
      exact Json.fits_dict 1 (fun names => Json.fits_strings 0 names.keys) refs.byRoot
  | diagnostics found =>
      cases h
      exact Json.fits_list 1 Diagnostic.fits_toJson found

theorem fits_toJson (p : Payload) : p.toJson.Fits 3 := by
  rw [toJson]
  cases hvalue : p.value? with
  | none => simp
  | some value => simp [fits_of_value? hvalue]

end Payload

namespace Response

theorem ofJson?_object {status name : String} {part : Json} (hname : name ≠ "status")
    (hpart : part.Fits 3) :
    ofJson? (.object [("status", .string status), (name, part)]) =
      ofParts? status (.object [(name, part)]) := by
  have hkeep : (Json.object [("status", .string status), (name, part)]).canKeep 0 = true :=
    Json.canKeep_of_fits (by simp [hpart])
  simp [ofJson?, hkeep, hname]

theorem ofJson?_toJson (r : Response) : ofJson? r.toJson = some r := by
  cases r with
  | ok result =>
      rw [toJson, ofJson?_object (show "result" ≠ "status" by decide) result.fits_toJson]
      simp [ofParts?, Payload.ofJson?_toJson]
  | error message =>
      rw [toJson, ofJson?_object (show "message" ≠ "status" by decide) (Json.fits_string 3 message)]
      simp [ofParts?]

end Response

/-- A request, a payload, a response or a configuration is what its text is read as, whatever
strings, numbers, lists and dictionaries it holds. -/
theorem decode_compact_message :
    (∀ r : Request, Request.read? r.toJson.compact = some r) ∧
    (∀ p : Payload, (Json.read? p.toJson.compact).bind (Payload.ofJson? false) = some p) ∧
    (∀ r : Response, (Json.read? r.toJson.compact).bind Response.ofJson? = some r) ∧
    ∀ c : Configuration, (Json.read? c.toJson.compact).bind Configuration.ofJson? = some c := by
  refine ⟨fun r => ?_, fun p => ?_, fun r => ?_, fun c => ?_⟩
  · rw [Request.read?, Json.read?_compact, Option.bind_some, Request.ofJson?_toJson]
  · rw [Json.read?_compact, Option.bind_some, Payload.ofJson?_toJson]
  · rw [Json.read?_compact, Option.bind_some, Response.ofJson?_toJson]
  · rw [Json.read?_compact, Option.bind_some, Configuration.ofJson?_toJson]

end ScriptLens
