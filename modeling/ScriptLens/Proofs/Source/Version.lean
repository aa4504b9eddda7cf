import ScriptLens.Proofs.Json.Reading
import ScriptLens.Proofs.Wire.Record

namespace ScriptLens.Version

theorem read_eq_ok_iff {s : String} {v : Version} :
    read s = .ok v ↔ Unsigned.Spells (Text.trim s.toList) v.value.toNat := by
  rw [read]
  constructor
  · intro h
    cases hread : Unsigned.read 10 (Text.trim s.toList) with
    | error e =>
        rw [hread] at h
        cases h
    | ok n =>
        rw [hread] at h
        cases h
        obtain ⟨hspells, hn⟩ := Unsigned.read_eq_ok_iff.1 hread
        change Unsigned.Spells _ n.toUInt64.toNat
        rwa [Nat.toUInt64_eq, UInt64.toNat_ofNat_of_lt' hn]
  · intro h
    rw [Unsigned.read_eq_ok_iff.2 ⟨h, v.value.toNat_lt⟩]
    change Except.ok (Version.mk v.value.toNat.toUInt64) = .ok v
    rw [Nat.toUInt64_eq, UInt64.ofNat_toNat]

theorem read_eq_tooLarge {s : String} {n : Nat} (h : Unsigned.Spells (Text.trim s.toList) n)
    (hn : UInt64.size ≤ n) : read s = .error .tooLarge := by
  rw [read, h.read_tooLarge hn]
  rfl

theorem ofJson?_nat (n : Nat) :
    ofJson? (.nat n) = if n < UInt64.size then some ⟨n.toUInt64⟩ else none := by
  change (((some n).filter (· < UInt64.size)).map Nat.toUInt64).map Version.mk = _
  split
  · next hn =>
    have hkeep : (some n).filter (· < UInt64.size) = some n :=
      Option.filter_eq_some_iff.2 ⟨rfl, decide_eq_true hn⟩
    rw [hkeep]
    rfl
  · next hn =>
    have hdrop : (some n).filter (· < UInt64.size) = none :=
      Option.filter_eq_none_iff.2 (by simpa using hn)
    rw [hdrop]
    rfl

theorem read_text_of_json (j : Json) : (Json.read? j.compact).bind ofJson? = ofJson? j := by
  rw [Json.read?_compact, Option.bind_some]

/-- A text is read as a version exactly if, but for blanks around it, it spells the version's number,
and a version's own text does. In JSON the number and every text that spells it are the same
version. What spells a number beyond 64 bits is too large, and no version. -/
theorem read_as_spelled :
    (∀ (s : String) (v : Version),
      read s = .ok v ↔ Unsigned.Spells (Text.trim s.toList) v.value.toNat) ∧
    (∀ v : Version, read v.text = .ok v) ∧
    (∀ (n : UInt64) (s : String), Unsigned.Spells (Text.trim s.toList) n.toNat →
      (Json.read? (Json.nat n.toNat).compact).bind ofJson? = some ⟨n⟩ ∧
      (Json.read? (Json.string s).compact).bind ofJson? = some ⟨n⟩) ∧
    ∀ (n : Nat) (s : String), UInt64.size ≤ n → Unsigned.Spells (Text.trim s.toList) n →
      read s = .error .tooLarge ∧
      (Json.read? (Json.nat n).compact).bind ofJson? = none ∧
      (Json.read? (Json.string s).compact).bind ofJson? = none := by
  refine ⟨fun s v => read_eq_ok_iff, read_text, ?_, ?_⟩
  · intro n s h
    have hread : read s = .ok ⟨n⟩ := read_eq_ok_iff.2 h
    rw [read_text_of_json, read_text_of_json, ofJson?_nat, if_pos n.toNat_lt, Nat.toUInt64_eq,
      UInt64.ofNat_toNat]
    refine ⟨rfl, ?_⟩
    change (read s).toOption = some ⟨n⟩
    rw [hread, Except.toOption]
  · intro n s hn h
    have hread := read_eq_tooLarge h hn
    rw [read_text_of_json, read_text_of_json, ofJson?_nat, if_neg (Nat.not_lt.2 hn)]
    refine ⟨hread, rfl, ?_⟩
    change (read s).toOption = none
    rw [hread, Except.toOption]

/-- The greatest version under a sign, zeros and blanks, and the number after it. -/
theorem read_as_spelled_greatest :
    Unsigned.Spells (Text.trim "\u00a0 +0018446744073709551615\n".toList) 18446744073709551615 ∧
    (Json.read? (Json.string "\u00a0 +0018446744073709551615\n").compact).bind ofJson? =
      some ⟨18446744073709551615⟩ ∧
    Unsigned.Spells (Text.trim "18446744073709551616".toList) UInt64.size ∧
    read "18446744073709551616" = .error .tooLarge := by
  have hgreatest : Unsigned.Spells (Text.trim "\u00a0 +0018446744073709551615\n".toList)
      18446744073709551615 :=
    .plus (List.cons_ne_nil _ _) (List.all_eq_true.1 (by decide)) (by decide)
  have hnext : Unsigned.Spells (Text.trim "18446744073709551616".toList) UInt64.size :=
    .plain (List.cons_ne_nil _ _) (List.all_eq_true.1 (by decide)) (by decide)
  exact ⟨hgreatest, (read_as_spelled.2.2.1 18446744073709551615 _ hgreatest).2, hnext,
    (read_as_spelled.2.2.2 UInt64.size _ (Nat.le_refl _) hnext).1⟩

end ScriptLens.Version
