import KeywordRules.FileTree

/-!
# What a path leads to

`FileTree.follow` goes through a file tree with the directories that it came through at hand. The same
can be said without going anywhere: a path names places, each given by the names that lead to it from the
root (`FileTree.next`), and it leads to what stands at the last of them, provided that each place it
passes before is a directory (`FileSystem.Leads`). The two agree (`resolve?_eq_some_iff`). The invariant
of the induction is that the directories at hand are those above the place (`Above`), so that going up
one of them is dropping the last name of the place.
-/

namespace KeywordRules

namespace FileTree

/-- What stands at a place, given by the names from the root to it. -/
def at? (root : FileTree) (place : List String) : Option FileTree :=
  place.foldlM (fun tree name => tree.child? name) root

theorem at?_concat (root : FileTree) (place : List String) (name : String) :
    root.at? (place ++ [name]) = (root.at? place).bind (child? name) := by
  rw [at?, List.foldlM_append]
  show (root.at? place).bind _ = _
  congr 1
  funext tree
  exact bind_pure _

/-- Names that lead from a place to a node: before each of them stands a directory at the place reached so
far, and at the end stands the node. -/
structure LeadsFrom (root : FileTree) (place names : List String) (node : FileTree) : Prop where
  passes : ∀ before name after, names = before ++ name :: after →
    ∃ entries, root.at? (before.foldl next place) = some (.directory entries)
  arrives : root.at? (names.foldl next place) = some node

variable {root here node : FileTree} {place names : List String} {name : String}
  {above : List FileTree}

theorem leadsFrom_nil : root.LeadsFrom place [] node ↔ root.at? place = some node := by
  refine ⟨fun h => h.arrives, fun h => ⟨fun before name after hnames => ?_, h⟩⟩
  exact absurd hnames (by simp)

/-- The first name needs a directory at the place; the others lead on from the next place. -/
theorem leadsFrom_cons :
    root.LeadsFrom place (name :: names) node ↔
      (∃ entries, root.at? place = some (.directory entries)) ∧
        root.LeadsFrom (next place name) names node := by
  constructor
  · intro h
    refine ⟨h.passes [] name names rfl, fun before other after hnames => ?_, h.arrives⟩
    exact h.passes (name :: before) other after (by rw [hnames, List.cons_append])
  · rintro ⟨hplace, hnames⟩
    refine ⟨fun before other after heq => ?_, hnames.arrives⟩
    cases before with
    | nil => exact hplace
    | cons first before =>
      obtain ⟨rfl, hrest⟩ := List.cons.inj heq
      exact hnames.passes before other after hrest

/-- Before the last name stands a directory, and the node at the place behind it. -/
theorem leadsFrom_concat :
    root.LeadsFrom place (names ++ [name]) node ↔
      (∃ entries, root.LeadsFrom place names (.directory entries)) ∧
        root.at? (next (names.foldl next place) name) = some node := by
  induction names generalizing place with
  | nil => simp only [List.nil_append, leadsFrom_cons, leadsFrom_nil, List.foldl_nil]
  | cons first names ih =>
    simp only [List.cons_append, leadsFrom_cons, ih, List.foldl_cons, exists_and_left, and_assoc]

/-- Names lead on only from a place where something stands. -/
theorem LeadsFrom.exists_at? (h : root.LeadsFrom place names node) :
    ∃ tree, root.at? place = some tree := by
  cases names with
  | nil => exact ⟨node, h.arrives⟩
  | cons name names =>
    obtain ⟨entries, hplace⟩ := h.passes [] name names rfl
    exact ⟨_, hplace⟩

/-- The directories above a place, the innermost first, and what stands at the place. -/
inductive Above (root : FileTree) : List String → List FileTree → FileTree → Prop where
  | root : Above root [] [] root
  | entry (place : List String) (above : List FileTree) (here inner : FileTree) (name : String)
      (hhere : Above root place above here) (hinner : here.child? name = some inner) :
      Above root (place ++ [name]) (here :: above) inner

theorem Above.at?_eq (h : Above root place above here) : root.at? place = some here := by
  induction h with
  | root => rfl
  | entry place above here inner name _ hinner ih => rw [at?_concat, ih, Option.bind_some, hinner]

/-- Names are followed to a node exactly if they lead to it. -/
theorem follow_eq_some_iff (h : Above root place above here) :
    follow above here names = some node ↔ root.LeadsFrom place names node := by
  induction names generalizing place above here with
  | nil => rw [leadsFrom_nil, h.at?_eq, follow]
  | cons name names ih =>
    rw [leadsFrom_cons, h.at?_eq]
    cases here with
    | file bytes => simp [follow]
    | directory entries =>
      have hplace : ∃ entries', some (directory entries) = some (directory entries') := ⟨entries, rfl⟩
      rw [and_iff_right hplace, follow_directory, next]
      -- a name that stays, one that leads up, and any other one
      by_cases hstay : name = "" ∨ name = "."
      · rw [if_pos hstay, if_pos hstay, ih h]
      rw [if_neg hstay, if_neg hstay]
      by_cases hup : name = ".."
      · rw [if_pos hup, if_pos hup]
        cases h with
        | root => exact ih .root
        | entry place above here inner name hhere _ =>
          rw [List.dropLast_concat]
          exact ih hhere
      · rw [if_neg hup, if_neg hup]
        cases hinner : (directory entries).child? name with
        | some inner => exact ih (.entry place above _ inner name h hinner)
        | none =>
          -- nothing stands at the next place, so no names lead on from it
          refine iff_of_false (by simp) fun hleads => ?_
          obtain ⟨tree, htree⟩ := hleads.exists_at?
          rw [at?_concat, h.at?_eq, Option.bind_some, hinner] at htree
          cases htree

end FileTree

namespace FileSystem

/-- What a path that can be asked for leads to: followed from the root, its names lead to the node. -/
structure Leads (system : FileSystem) (path : String) (node : FileTree) : Prop where
  admits : path ≠ "" ∧ path.utf8ByteSize ≤ 4095 ∧ '\x00' ∉ path.toList
  route : system.root.LeadsFrom [] (system.route path) node

variable {system : FileSystem} {path : String} {node : FileTree}

theorem resolve?_eq_some_iff : system.resolve? path = some node ↔ system.Leads path node := by
  rw [resolve?, Option.ite_none_right_eq_some, FileTree.follow_eq_some_iff .root, FileSystem.admits,
    decide_eq_true_eq]
  exact ⟨fun h => ⟨h.1, h.2⟩, fun h => ⟨h.admits, h.route⟩⟩

theorem resolve?_eq_none_iff : system.resolve? path = none ↔ ∀ node, ¬system.Leads path node := by
  rw [Option.eq_none_iff_forall_ne_some]
  exact forall_congr' fun node => not_congr resolve?_eq_some_iff

/-- A path leads to one node at most. -/
theorem Leads.unique {node' : FileTree} (h : system.Leads path node) (h' : system.Leads path node') :
    node = node' := by
  rw [← resolve?_eq_some_iff] at h h'
  exact Option.some.inj (h.symm.trans h')

end FileSystem

end KeywordRules
