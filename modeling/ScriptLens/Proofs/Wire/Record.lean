import ScriptLens.Proofs.Number.Decimal
import ScriptLens.Proofs.Store.Dict
import ScriptLens.Proofs.Text.Line
import ScriptLens.Wire.Record

namespace ScriptLens

namespace Json

variable {α : Type}

@[simp] theorem asString?_string (s : String) : (string s).asString? = some s := rfl

@[simp] theorem asBool?_bool (b : Bool) : (bool b).asBool? = some b := rfl

@[simp] theorem asUInt64?_uint64 (n : UInt64) : (uint64 n).asUInt64? = some n := by
  have hn : (some n.toNat).filter (· < UInt64.size) = some n.toNat :=
    Option.filter_eq_some_iff.2 ⟨rfl, decide_eq_true n.toNat_lt⟩
  change ((some n.toNat).filter (· < UInt64.size)).map Nat.toUInt64 = some n
  rw [hn, Option.map_some, Nat.toUInt64_eq, UInt64.ofNat_toNat]

@[simp] theorem asUInt32?_uint32 (n : UInt32) : (uint32 n).asUInt32? = some n := by
  have hn : (some n.toNat).filter (· < UInt32.size) = some n.toNat :=
    Option.filter_eq_some_iff.2 ⟨rfl, decide_eq_true n.toNat_lt⟩
  change ((some n.toNat).filter (· < UInt32.size)).map Nat.toUInt32 = some n
  rw [hn, Option.map_some, Nat.toUInt32_eq, UInt32.ofNat_toNat]

theorem asList?_map {item : α → Json} {item? : Json → Option α}
    (h : ∀ a, item? (item a) = some a) (xs : List α) :
    (array (xs.map item)).asList? item? = some xs := by
  change (xs.map item).mapM item? = some xs
  induction xs with
  | nil => rfl
  | cons x xs ih => simp [h x, ih]

@[simp] theorem asList?_strings (xs : List String) : (strings xs).asList? asString? = some xs :=
  asList?_map asString?_string xs

theorem asDict?_toJson {value : α → Json} {value? : Json → Option α}
    (h : ∀ a, value? (value a) = some a) (d : Dict α) :
    (d.toJson value).asDict? value? = some d := by
  have hmembers : (d.entries.map fun e => (e.1, value e.2)).mapM
      (fun m => (value? m.2).map (m.1, ·)) = some d.entries := by
    induction d.entries with
    | nil => rfl
    | cons e entries ih => simp [h e.2, ih]
  change Option.map Dict.ofList ((d.entries.map fun e => (e.1, value e.2)).mapM
      (fun m => (value? m.2).map (m.1, ·))) = some d
  rw [hmembers, Option.map_some, Dict.ofList_entries]

@[simp] theorem fields?_object {names : List String} {members : List (String × Json)}
    (hnames : members.map (·.1) = names) (hdistinct : names.Nodup) :
    (object members).fields? names = some members := by
  have hknown : (members.filter fun m => names.contains m.1) = members := by
    rw [List.filter_eq_self]
    intro m hm
    rw [List.contains_iff_mem, ← hnames]
    exact List.mem_map_of_mem hm
  simp only [fields?, hknown, hnames, if_pos hdistinct]

section

variable {name other : String} {j : Json} {fields : List (String × Json)} {value? : Json → Option α}

@[simp] theorem required?_self : required? ((name, j) :: fields) name value? = value? j := by
  rw [required?, List.lookup_cons_self, Option.bind_some]

@[simp] theorem required?_of_ne (h : name ≠ other) :
    required? ((other, j) :: fields) name value? = required? fields name value? := by
  rw [required?, List.lookup_cons, beq_false_of_ne h]
  rfl

@[simp] theorem optional?_self {default : α} :
    optional? ((name, j) :: fields) name value? default = value? j := by
  rw [optional?, List.lookup_cons_self]

@[simp] theorem optional?_of_ne {default : α} (h : name ≠ other) :
    optional? ((other, j) :: fields) name value? default =
      optional? fields name value? default := by
  rw [optional?, List.lookup_cons, beq_false_of_ne h]
  rfl

end

end Json

theorem Target.ofJson?_toJson (kept : Bool) (t : Target) : ofJson? kept t.toJson = some t := by
  cases t <;> rfl

theorem Construct.ofJson?_toJson (kept : Bool) (c : Construct) :
    ofJson? kept c.toJson = some c := by
  cases c <;> rfl

theorem Category.ofJson?_toJson (kept : Bool) (c : Category) : ofJson? kept c.toJson = some c := by
  cases c <;> rfl

theorem Text.isBlank_of_isDigit {c : Char} (h : c.isDigit = true) : isBlank c = false := by
  have hc := isDigit_iff.1 h
  simp only [isBlank, blankRanges, List.any_cons, List.any_nil, Bool.or_eq_false_iff,
    Bool.and_eq_false_iff, decide_eq_false_iff_not, and_true]
  omega

theorem Version.read_text (v : Version) : read v.text = .ok v := by
  have hdigits : Text.trim (Nat.toDigits 10 v.value.toNat) = Nat.toDigits 10 v.value.toNat :=
    Text.trim_eq_self fun c hc => Text.isBlank_of_isDigit (isDigit_of_mem_toDigits hc)
  rw [read, text, String.toList_ofList, hdigits, Unsigned.read_toDigits v.value.toNat_lt]
  change Except.ok (Version.mk v.value.toNat.toUInt64) = .ok v
  rw [Nat.toUInt64_eq, UInt64.ofNat_toNat]

theorem Version.ofJson?_toJson (v : Version) : ofJson? v.toJson = some v := by
  change (read v.text).toOption = some v
  rw [read_text, Except.toOption]

theorem NameSet.ofJson?_toJson (names : NameSet) : ofJson? names.toJson = some names := by
  have hentries : names.keys.map (·, ()) = names.entries := by
    rw [Dict.keys, List.map_map]
    exact List.map_id _
  rw [ofJson?, toJson, Json.asList?_strings, Option.map_some, ofNames, hentries,
    Dict.ofList_entries]

theorem References.ofJson?_toJson (r : References) : ofJson? r.toJson = some r := by
  rw [ofJson?, toJson, Json.asDict?_toJson NameSet.ofJson?_toJson, Option.map_some]

theorem Source.ofJson?_toJson (s : Source) : ofJson? s.toJson = some s := by
  simp [ofJson?, toJson, Version.ofJson?_toJson]

theorem Outline.Entry.ofJson?_toJson (kept : Bool) (e : Entry) :
    ofJson? kept e.toJson = some e := by
  simp [ofJson?, toJson, Construct.ofJson?_toJson]

theorem Diagnostic.ofJson?_toJson (kept : Bool) (d : Diagnostic) :
    ofJson? kept d.toJson = some d := by
  simp [ofJson?, toJson, Category.ofJson?_toJson]

theorem CompilerOptions.ofJson?_toJson (kept : Bool) (o : CompilerOptions) :
    ofJson? kept o.toJson = some o := by
  simp [ofJson?, toJson, Target.ofJson?_toJson]

theorem DiagnosticsOptions.ofJson?_toJson (o : DiagnosticsOptions) : ofJson? o.toJson = some o := by
  simp [ofJson?, toJson]

theorem Configuration.ofJson?_toJson (c : Configuration) : ofJson? c.toJson = some c := by
  simp [ofJson?, toJson, CompilerOptions.ofJson?_toJson, DiagnosticsOptions.ofJson?_toJson]

end ScriptLens
