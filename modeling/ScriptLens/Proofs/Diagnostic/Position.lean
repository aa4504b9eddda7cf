import ScriptLens.Proofs.Diagnostic.Coverage
import ScriptLens.Proofs.Text.Line
import ScriptLens.Proofs.Text.Slice

namespace ScriptLens

/-- What the parser promises of where a node is. Its range falls between characters, the row counts
the line feeds in front of it, and the column the bytes after the last of them. -/
structure Node.Located (source : String) (n : Node) (before covered after : List Char) : Prop where
  text : source.toList = before ++ (covered ++ after)
  start : n.info.start.toNat = Text.byteLength before
  stop : n.info.stop.toNat = Text.byteLength (before ++ covered)
  row : n.info.row.toNat = before.count '\n'
  column : n.info.column.toNat = Text.byteLength (Text.afterLastBreak before)

namespace Diagnostic

section located

variable {source : String} {n : Node} {before covered after : List Char}

theorem exists_lineStart (before : List Char) :
    ∃ earlier, before = earlier ++ Text.afterLastBreak before := by
  obtain ⟨earlier, hearlier⟩ := Text.afterLastBreak_suffix before
  exact ⟨earlier, hearlier.symm⟩

theorem column_le_start (h : n.Located source before covered after) :
    n.info.column ≤ n.info.start := by
  obtain ⟨earlier, hsplit⟩ := exists_lineStart before
  have hbytes := congrArg Text.byteLength hsplit
  rw [Text.byteLength_append] at hbytes
  rw [UInt64.le_iff_toNat_le, h.column, h.start]
  omega

theorem start_le_stop (h : n.Located source before covered after) :
    n.info.start ≤ n.info.stop := by
  rw [UInt64.le_iff_toNat_le, h.start, h.stop, Text.byteLength_append]
  exact Nat.le_add_right _ _

theorem slice?_line (h : n.Located source before covered after) :
    Text.slice? (n.info.start - n.info.column).toNat n.info.start.toNat source.toList =
      some (Text.afterLastBreak before) := by
  obtain ⟨earlier, hsplit⟩ := exists_lineStart before
  have hlineStart : (n.info.start - n.info.column).toNat = Text.byteLength earlier := by
    have hbytes := congrArg Text.byteLength hsplit
    rw [Text.byteLength_append] at hbytes
    rw [UInt64.toNat_sub_of_le _ _ (column_le_start h), h.start, h.column]
    omega
  have htext : source.toList = earlier ++ (Text.afterLastBreak before ++ (covered ++ after)) := by
    rw [← List.append_assoc, ← hsplit, h.text]
  have hstart : n.info.start.toNat = Text.byteLength (earlier ++ Text.afterLastBreak before) := by
    rw [h.start, ← hsplit]
  rw [hlineStart, hstart, htext, Text.slice?_append]

theorem toNat_characterOf (h : n.Located source before covered after) :
    (characterOf source n).toNat = (Text.afterLastBreak before).length := by
  have hlt : (Text.afterLastBreak before).length < UInt64.size := by
    have hle := Text.length_le_byteLength (Text.afterLastBreak before)
    rw [← h.column] at hle
    exact Nat.lt_of_le_of_lt hle n.info.column.toNat_lt_size
  have hnot : ¬ n.info.start < n.info.column := UInt64.not_lt.2 (column_le_start h)
  simp only [characterOf, if_neg hnot, slice?_line h]
  exact UInt64.toNat_ofNat_of_lt' hlt

theorem toNat_length (h : n.Located source before covered after) :
    (n.info.stop - n.info.start).toNat = Text.byteLength covered := by
  rw [UInt64.toNat_sub_of_le _ _ (start_le_stop h), h.start, h.stop, Text.byteLength_append]
  omega

end located

theorem exists_fault_of_mem_below {source : String} {n : Node} {d : Diagnostic}
    (h : d ∈ below source n) :
    ∃ m ∈ n.preorder, m.IsFault ∧ d = ofNode source (faultMessage m) m := by
  induction n using Node.childInduction with
  | step n ih =>
      by_cases hfault : n.IsFault
      · rw [below_of_fault hfault, List.mem_singleton] at h
        exact ⟨n, n.self_mem_preorder, hfault, h⟩
      · rw [below_of_not_fault hfault] at h
        split at h
        · obtain ⟨c, hc, hd⟩ := List.mem_flatMap.1 h
          obtain ⟨m, hm, hmfault, rfl⟩ := ih c hc hd
          exact ⟨m, Node.mem_preorder_of_child hc hm, hmfault, rfl⟩
        · cases h

theorem exists_fault_of_mem_ofSource {t : ParsedSource} {d : Diagnostic} (h : d ∈ ofSource t) :
    ∃ n ∈ t.root.preorder, n.IsFault ∧ d = ofNode t.text (faultMessage n) n := by
  rw [ofSource, toList_walk] at h
  split at h
  · exact exists_fault_of_mem_below h
  · cases h

/-- If the parser's positions are true, the line of a diagnostic is the number of line feeds in front
of its start and the character the number of characters after the last of them. The way back to the
line's start is not longer than that to the text's, the line is there to be sliced, and the length is
that of the bytes covered. -/
theorem line_and_character (t : ParsedSource)
    (h : ∀ n ∈ t.root.preorder, ∃ before covered after, n.Located t.text before covered after) :
    ∀ d ∈ ofSource t, ∃ n ∈ t.root.preorder, n.IsFault ∧ Reports d n ∧
      ∃ before covered after, t.text.toList = before ++ (covered ++ after) ∧
        d.start.toNat = Text.byteLength before ∧
        d.length.toNat = Text.byteLength covered ∧
        d.line.toNat = before.count '\n' ∧
        d.character.toNat = (Text.afterLastBreak before).length ∧
        n.info.column ≤ n.info.start ∧ n.info.start ≤ n.info.stop ∧
        Text.slice? (n.info.start - n.info.column).toNat n.info.start.toNat t.text.toList =
          some (Text.afterLastBreak before) := by
  intro d hd
  obtain ⟨n, hn, hfault, rfl⟩ := exists_fault_of_mem_ofSource hd
  obtain ⟨before, covered, after, hlocated⟩ := h n hn
  exact ⟨n, hn, hfault, reports_ofNode n, before, covered, after, hlocated.text, hlocated.start,
    toNat_length hlocated, hlocated.row, toNat_characterOf hlocated, column_le_start hlocated,
    start_le_stop hlocated, slice?_line hlocated⟩

/-- The second line has letters of two bytes, one of them in front of a bracket that is out of place;
a semicolon is missing at the end of the text. -/
theorem line_and_character_accents :
    let node (type : String) (start stop row column : UInt64) (error missing : Bool)
        (below : List Node) : Node :=
      .mk ⟨type, start, stop, row, column, true, error, missing, true, []⟩ below
    let t : ParsedSource := ⟨"a.ts", none, .ts, "é;\n ß)ü",
      node "program" 0 10 0 0 false false
        [node "ERROR" 7 8 1 3 true false [], node ";" 10 10 1 6 false true []]⟩
    (∀ n ∈ t.root.preorder, ∃ before covered after, n.Located t.text before covered after) ∧
    ofSource t = [⟨"Syntax error.", .error, 7, 1, 1, 2⟩, ⟨"';' expected.", .error, 10, 0, 1, 4⟩] ∧
    ∀ d ∈ ofSource t, ∃ before covered after, t.text.toList = before ++ (covered ++ after) ∧
      d.start.toNat = Text.byteLength before ∧ d.line.toNat = before.count '\n' ∧
      d.character.toNat = (Text.afterLastBreak before).length := by
  intro node t
  have hlocated : ∀ n ∈ t.root.preorder, ∃ before covered after,
      n.Located t.text before covered after := by
    have hpreorder : t.root.preorder =
        [t.root, node "ERROR" 7 8 1 3 true false [], node ";" 10 10 1 6 false true []] := rfl
    rw [hpreorder, List.forall_mem_cons, List.forall_mem_cons, List.forall_mem_singleton]
    refine ⟨⟨"".toList, "é;\n ß)ü".toList, [], ?_⟩, ⟨"é;\n ß".toList, ")".toList, "ü".toList, ?_⟩,
      "é;\n ß)ü".toList, [], [], ?_⟩
    all_goals constructor <;> decide +kernel
  refine ⟨hlocated, by decide +kernel, ?_⟩
  intro d hd
  obtain ⟨n, -, -, -, before, covered, after, htext, hstart, -, hline, hcharacter, -⟩ :=
    line_and_character t hlocated d hd
  exact ⟨before, covered, after, htext, hstart, hline, hcharacter⟩

end Diagnostic

end ScriptLens
