import KeywordRules.Proofs.Denotation
import KeywordRules.Rule.Coverage

/-!
# The views of a report

A report can be shown line by line, written as JSON, and asked for the branches that were never taken.
`ofDisplay?` reads a report back from its lines and `ofCompact?` from its JSON, each without the function
that wrote it; both give back every report (`ofDisplay?_display`, `ofCompact?_compact`), so neither view
loses anything. The lines name a branch by its label and the JSON names it by a word that is made from
its name; that the readers agree also says that these are the same.
-/

namespace KeywordRules

open KeywordRules.Json

/-- What an item by item reading makes of a list that was written item by item. -/
theorem mapM_map_eq_some {α β : Type} {write : α → β} {read : β → Option α}
    (h : ∀ a, read (write a) = some a) (as : List α) : (as.map write).mapM read = some as := by
  induction as with
  | nil => rfl
  | cons a as ih =>
    rw [List.map_cons, List.mapM_cons, h, ih]
    rfl

namespace Report

/-! ## Reading the lines -/

/-- The number of 64 bits that decimal digits denote. -/
def count? (digits : List Char) : Option UInt64 :=
  if digits ≠ [] ∧ digits.all Char.isDigit = true ∧ Text.ofDigits digits < UInt64.size then
    some (.ofNat (Text.ofDigits digits))
  else none

/-- The entry that a line shows: the label of a branch, a colon and a blank, and the count. -/
def entryOfLine? (line : List Char) : Option (Branch × UInt64) :=
  match line.splitOn ':' with
  | [label, ' ' :: digits] => do
    let branch ← Branch.ofLabel? (String.ofList label)
    let count ← count? digits
    return (branch, count)
  | _ => none

/-- The report that is shown by a text, each entry on a line that is ended by a line feed. -/
def ofDisplay? (text : String) : Option Report :=
  match (text.toList.splitOn '\n').reverse with
  | [] :: lines => (lines.reverse.mapM entryOfLine?).map .mk
  | _ => none

/-- What the line of an entry shows. -/
def lineText (entry : Branch × UInt64) : List Char :=
  entry.1.label.toList ++ ':' :: ' ' :: Text.digits entry.2.toNat

theorem line_eq (entry : Branch × UInt64) : line entry = lineText entry ++ ['\n'] := by
  simp [line, lineText]

theorem count?_digits (count : UInt64) : count? (Text.digits count.toNat) = some count := by
  have hall : (Text.digits count.toNat).all Char.isDigit = true :=
    List.all_eq_true.2 fun _ hc => Text.isDigit_of_mem_digits hc
  rw [count?, Text.ofDigits_digits, if_pos ⟨Text.digits_ne_nil _, hall, count.toNat_lt⟩,
    UInt64.ofNat_toNat]

/-- Neither a label nor a number has a mark in it that separates. -/
theorem notMem_label (branch : Branch) : ':' ∉ branch.label.toList ∧ '\n' ∉ branch.label.toList := by
  cases branch <;> decide

theorem notMem_digits {c : Char} (hc : c.isDigit = false) (n : Nat) : c ∉ Text.digits n := by
  intro hmem
  rw [Text.isDigit_of_mem_digits hmem] at hc
  exact Bool.noConfusion hc

theorem notMem_lineText (entry : Branch × UInt64) : '\n' ∉ lineText entry := by
  simp only [lineText, List.mem_append, List.mem_cons, not_or]
  exact ⟨(notMem_label entry.1).2, by decide, by decide, notMem_digits (by decide) _⟩

/-- A line shows its entry. -/
theorem entryOfLine?_lineText (entry : Branch × UInt64) : entryOfLine? (lineText entry) = some entry := by
  have hsplit : (lineText entry).splitOn ':' =
      [entry.1.label.toList, ' ' :: Text.digits entry.2.toNat] := by
    have hparts : lineText entry =
        [':'].intercalate [entry.1.label.toList, ' ' :: Text.digits entry.2.toNat] := by
      simp [lineText, List.intercalate]
    rw [hparts]
    refine List.splitOn_intercalate ':' ?_ (List.cons_ne_nil _ _)
    intro part hpart
    rcases List.mem_pair.1 hpart with rfl | rfl
    · exact (notMem_label entry.1).1
    · rw [List.mem_cons, not_or]
      exact ⟨by decide, notMem_digits (by decide) _⟩
  rw [entryOfLine?, hsplit]
  simp [Branch.ofLabel?_label, count?_digits]

/-- The lines of a report stand between line feeds, and nothing stands behind the last one. -/
theorem splitOn_display (report : Report) :
    report.display.toList.splitOn '\n' = report.entries.map lineText ++ [[]] := by
  -- each line ends with a line feed, so behind the last one stands an empty line
  have hlines : report.display.toList =
      ['\n'].intercalate (report.entries.map lineText ++ [[]]) := by
    rw [display, String.toList_ofList]
    induction report.entries with
    | nil => rfl
    | cons entry entries ih =>
      have hrest : entries.map lineText ++ [[]] ≠ [] := by simp
      rw [List.flatMap_cons, ih, line_eq, List.map_cons, List.cons_append,
        List.intercalate_cons_of_ne_nil hrest]
  rw [hlines]
  refine List.splitOn_intercalate '\n' ?_ (by simp)
  intro part hpart
  rcases List.mem_append.1 hpart with hpart | hpart
  · obtain ⟨entry, -, rfl⟩ := List.mem_map.1 hpart
    exact notMem_lineText entry
  · rw [List.mem_singleton.1 hpart]
    exact List.not_mem_nil

/-- A report is read back from its lines. -/
theorem ofDisplay?_display (report : Report) : ofDisplay? report.display = some report := by
  rw [ofDisplay?, splitOn_display, List.reverse_append, List.reverse_singleton, List.singleton_append]
  simp only [List.reverse_reverse, mapM_map_eq_some entryOfLine?_lineText, Option.map_some]

/-! ## Reading the JSON form -/

/-- The entry that a node stands for: the label of a branch and its count, each under its key. -/
def entryOfNode? (node : Value) : Option (Branch × UInt64) :=
  match node.get? "branch", node.get? "count" with
  | some (.string label), some (.int (.ofNat n)) =>
    if n < UInt64.size then (Branch.ofLabel? label).map fun branch => (branch, .ofNat n) else none
  | _, _ => none

/-- The report that a JSON text stands for. -/
def ofCompact? (text : String) : Option Report :=
  match Value.parse text with
  | .error _ => none
  | .ok node =>
    match node.get? "entries" with
    | some (.array items) => (items.mapM entryOfNode?).map .mk
    | _ => none

/-- The node of an entry. -/
def entryNode (entry : Branch × UInt64) : Value :=
  .object [("branch", .string entry.1.label), ("count", .int entry.2.toNat)]

/-- The node of a report. -/
def node (report : Report) : Value :=
  .object [("entries", .array (report.entries.map entryNode))]

theorem entryOfNode?_entryNode (entry : Branch × UInt64) :
    entryOfNode? (entryNode entry) = some entry := by
  obtain ⟨branch, count⟩ := entry
  have hbranch : (entryNode (branch, count)).get? "branch" = some (.string branch.label) := rfl
  have hcount : (entryNode (branch, count)).get? "count" = some (.int (.ofNat count.toNat)) := rfl
  simp only [entryOfNode?, hbranch, hcount, if_pos count.toNat_lt, Branch.ofLabel?_label,
    Option.map_some, UInt64.ofNat_toNat]

/-- An entry is written as its node. A count fits into the integers of JSON, whatever it is. -/
theorem valueWithin?_entryDocument (depth : Nat) (entry : Branch × UInt64) :
    (entryDocument entry).valueWithin? (depth + 1) = some (entryNode entry) := by
  have hcount : (Document.int entry.2.toNat).valueWithin? depth = some (.int entry.2.toNat) := by
    have hlt := entry.2.toNat_lt
    have hsize : UInt64.size = 18446744073709551616 := rfl
    rw [Document.int, Document.valueWithin?, Numeral.value?_ofInt (by omega) (by omega)]
    rfl
  -- the keys are written in their order
  have hkeys : Value.KeysIncrease [("branch", .string entry.1.label), ("count", .int entry.2.toNat)] :=
    List.pairwise_pair.2 (show "branch" < "count" by decide)
  rw [entryDocument, Branch.word_eq_label, Document.valueWithin?_record_eq_some_iff]
  refine ⟨_, congrArg Value.object (Value.ofPairs_of_keysIncrease hkeys).symm, ?_⟩
  exact .cons ⟨rfl, rfl⟩ (.cons ⟨rfl, hcount⟩ .nil)

theorem valueWithin?_toDocument (depth : Nat) (report : Report) :
    report.toDocument.valueWithin? (depth + 3) = some report.node := by
  rw [toDocument, Document.valueWithin?_record_eq_some_iff]
  refine ⟨[("entries", .array (report.entries.map entryNode))], rfl, .cons ⟨rfl, ?_⟩ .nil⟩
  refine Document.valueWithin?_array_eq_some_iff.2 ⟨rfl, _, rfl, ?_⟩
  rw [List.forall₂_map_left_iff, List.forall₂_map_right_iff, List.forall₂_same]
  exact fun entry _ => valueWithin?_entryDocument depth entry

theorem isPlain_toDocument (report : Report) : report.toDocument.IsPlain := by
  have hentry : ∀ entry : Branch × UInt64, (entryDocument entry).IsPlain := by
    intro entry
    rw [entryDocument, Document.isPlain_record_iff]
    simp [Document.IsPlain, Document.text, Document.int]
  rw [toDocument, Document.isPlain_record_iff, List.forall_mem_singleton]
  refine ⟨rfl, Document.arePlain_iff.2 fun item hitem => ?_⟩
  obtain ⟨entry, -, rfl⟩ := List.mem_map.1 hitem
  exact hentry entry

/-- A report is read back from its JSON text. -/
theorem ofCompact?_compact (report : Report) : ofCompact? report.compact = some report := by
  have hparse : Value.parse report.compact = .ok report.node := by
    rw [Value.parse_eq_ok_iff, compact, Document.read_compact (isPlain_toDocument report)]
    exact ⟨valueWithin?_toDocument 124 report, rfl⟩
  have hentries : report.node.get? "entries" = some (.array (report.entries.map entryNode)) := rfl
  simp only [ofCompact?, hparse, hentries, mapM_map_eq_some entryOfNode?_entryNode, Option.map_some]

/-! ## The report of a coverage -/

/-- The five lines of a report. -/
theorem display_report (coverage : Coverage) :
    coverage.report.display =
      String.join
        ["required: " ++ toString (coverage.count .required) ++ "\n",
          "not_null_annotated: " ++ toString (coverage.count .notNullAnnotated) ++ "\n",
          "nonnull_annotated: " ++ toString (coverage.count .nonnullAnnotated) ++ "\n",
          "not_required: " ++ toString (coverage.count .notRequired) ++ "\n",
          "nullable_annotated: " ++ toString (coverage.count .nullableAnnotated) ++ "\n"] := by
  have hcount : ∀ count : UInt64, (toString count).toList = Text.digits count.toNat := by
    intro count
    show (Nat.repr count.toNat).toList = _
    rw [Nat.repr, String.toList_ofList, Text.digits]
  rw [← String.toList_inj, display, String.toList_ofList, String.toList_join]
  simp [Coverage.report, Branch.all, line, Branch.label, hcount]

/-- A report lists the counters as they stand, each beside its branch. -/
theorem entries_report (coverage : Coverage) :
    coverage.report.entries = Branch.all.zip coverage.counters.toList := by
  obtain ⟨⟨⟨counters⟩, hsize⟩⟩ := coverage
  match counters, hsize with
  | [_, _, _, _, _], _ => rfl

theorem lookup_entries (coverage : Coverage) (branch : Branch) :
    coverage.report.entries.lookup branch = some (coverage.count branch) := by
  cases branch <;> rfl

/-- The branches that were never taken, in the order of the report. -/
theorem uncovered_report (coverage : Coverage) :
    coverage.report.uncovered = Branch.all.filter fun branch => coverage.count branch == 0 := by
  rw [uncovered, Coverage.report, List.filter_map, List.map_map]
  exact List.map_id _

/-- **The views of a report agree and lose nothing.** The report of a coverage is shown as five lines, a
label and a decimal count on each, in the order of the branches. From these lines and from the JSON text
the same entries are recovered, the branches with the counters of the coverage as they stand, and the
branches that were never taken are the ones whose recovered count is zero, in the order of the report.
Two reports are the same exactly if their lines are, and exactly if their JSON texts are. -/
theorem views_agree :
    (∀ coverage : Coverage,
      coverage.report.display =
          String.join
            ["required: " ++ toString (coverage.count .required) ++ "\n",
              "not_null_annotated: " ++ toString (coverage.count .notNullAnnotated) ++ "\n",
              "nonnull_annotated: " ++ toString (coverage.count .nonnullAnnotated) ++ "\n",
              "not_required: " ++ toString (coverage.count .notRequired) ++ "\n",
              "nullable_annotated: " ++ toString (coverage.count .nullableAnnotated) ++ "\n"] ∧
        ∃ recovered : Report,
          ofDisplay? coverage.report.display = some recovered ∧
          ofCompact? coverage.report.compact = some recovered ∧
          recovered.entries = (Branch.all.map fun branch => (branch, coverage.count branch)) ∧
          recovered.entries = Branch.all.zip coverage.counters.toList ∧
          coverage.report.uncovered =
            Branch.all.filter fun branch => recovered.entries.lookup branch == some 0) ∧
    ∀ report report' : Report,
      (report = report' ↔ report.display = report'.display) ∧
        (report = report' ↔ report.compact = report'.compact) := by
  refine ⟨fun coverage => ⟨display_report coverage, ?_⟩, fun report report' => ⟨?_, ?_⟩⟩
  · refine ⟨coverage.report, ofDisplay?_display _, ofCompact?_compact _, rfl, entries_report coverage, ?_⟩
    rw [uncovered_report]
    refine List.filter_congr fun branch _ => ?_
    rw [lookup_entries, Option.some_beq_some]
  · refine ⟨congrArg display, fun h => Option.some.inj ?_⟩
    rw [← ofDisplay?_display report, h, ofDisplay?_display]
  · refine ⟨congrArg compact, fun h => Option.some.inj ?_⟩
    rw [← ofCompact?_compact report, h, ofCompact?_compact]

end Report

end KeywordRules
