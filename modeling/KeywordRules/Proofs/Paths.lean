import KeywordRules.Proofs.Extensionality
import KeywordRules.Proofs.Grammar

/-!
# Paths of keys

Following keys one after another in a node that was read from a text is the same as following them in the
text (`Document.Leads`): each step takes, in the text of an object, the text of the last value that stands
under the key, and the text that is reached at the end is read on its own. So only objects lead on, and
the order of pairs with different keys does not matter (`Value.find?_eq_some_iff_leads`).
-/

namespace KeywordRules.Json

open KeywordRules.Text

namespace Document

/-! ## Following keys in a text -/

/-- The text of an object with its entries, in the order of the text. -/
inductive IsObject : List Char → List Entry → Prop where
  | mk {body : List Char} {entries : List Entry} (hbody : Enclosed Entry.IsWritten body entries)
    (hentries : ∀ entry ∈ entries, Means entry.token entry.document) :
    IsObject ('\x7b' :: (body ++ ['\x7d'])) entries

/-- Keys lead from one text to another: each from the text of an object to the text of the last value that
stands under it. -/
inductive Leads : List String → List Char → List Char → Prop where
  | nil (token : List Char) : Leads [] token token
  | cons {keys : List String} {token target : List Char} {before after : List Entry} {entry : Entry}
    (hobject : IsObject token (before ++ entry :: after))
    (hlast : ∀ other ∈ after, other.key ≠ entry.key) (h : Leads keys entry.token target) :
    Leads (entry.key :: keys) token target

variable {token : List Char} {entries : List Entry} {d : Document}

theorem IsObject.means (h : IsObject token entries) : Means token (record (entries.map Entry.pair)) := by
  obtain ⟨hbody, hentries⟩ := h
  exact .object hbody hentries

theorem IsObject.means_of_mem (h : IsObject token entries) {entry : Entry} (hentry : entry ∈ entries) :
    Means entry.token entry.document := by
  obtain ⟨-, hentries⟩ := h
  exact hentries entry hentry

/-- What means an object is the text of one. -/
theorem Means.exists_isObject {pairs : List (String × Document)} (h : Means token (record pairs)) :
    ∃ entries, IsObject token entries ∧ entries.map Entry.pair = pairs := by
  generalize hd : record pairs = d at h
  cases h with
  | leaf h => subst hd; cases h
  | array => cases hd
  | @object _ entries hbody hentries =>
    exact ⟨entries, .mk hbody hentries, (record_injective hd).symm⟩

/-- In the text of an object with a value, every entry has a value. -/
theorem IsObject.exists_value? (h : IsObject token entries) (hmeans : Means token d) {node : Value}
    (hnode : d.value? = some node) {entry : Entry} (hentry : entry ∈ entries) :
    ∃ value, entry.document.value? = some value := by
  obtain rfl := hmeans.unique h.means
  have hsome := (isSome_valueWithin?_record 126 _).1 (Option.isSome_of_eq_some hnode) entry.pair
    (List.mem_map_of_mem hentry)
  obtain ⟨value, hvalue⟩ := Option.isSome_iff_exists.1 hsome
  exact ⟨value, valueWithin?_succ hvalue⟩

/-- Only texts of objects lead on. -/
theorem IsObject.head?_eq (h : IsObject token entries) : token.head? = some '\x7b' := by
  cases h
  rfl

end Document

namespace Value

open Document

variable {node reached : Value} {token : List Char} {d : Document}

theorem foldl_bind_get? (keys : List String) (start : Option Value) :
    keys.foldl (fun reached key => reached.bind (get? key)) start = start.bind (find? keys) := by
  cases start with
  | some node => rfl
  | none =>
    induction keys with
    | nil => rfl
    | cons key keys ih => exact ih

theorem find?_cons (key : String) (keys : List String) (node : Value) :
    node.find? (key :: keys) = (node.get? key).bind (find? keys) :=
  foldl_bind_get? keys (node.get? key)

theorem find?_append (keys more : List String) (node : Value) :
    node.find? (keys ++ more) = (node.find? keys).bind (find? more) := by
  rw [find?, List.foldl_append]
  exact foldl_bind_get? more (node.find? keys)

/-! ## One key -/

/-- What a node has under a key is what the last entry with that key means in the text of the node. -/
theorem get?_eq_some_iff_of_means (h : Means token d) (hnode : d.value? = some node) {key : String} :
    node.get? key = some reached ↔
      ∃ before entry after, IsObject token (before ++ entry :: after) ∧ entry.key = key ∧
        (∀ other ∈ after, other.key ≠ key) ∧ entry.document.value? = some reached := by
  constructor
  · intro hget
    cases node with
    | object fields =>
      obtain ⟨pairs, -, rfl, -⟩ := exists_record_of_value? hnode
      obtain ⟨before, last, after, rfl, hafter, hlast⟩ := exists_last_of_record hnode hget
      obtain ⟨entries, hobject, hentries⟩ := h.exists_isObject
      -- the pairs before and behind the last one come from the entries there
      obtain ⟨before, entries', rfl, rfl, hlater⟩ := List.map_eq_append_iff.1 hentries
      obtain ⟨entry, after, rfl, hentry, rfl⟩ := List.map_eq_cons_iff.1 hlater
      obtain ⟨rfl, rfl⟩ : entry.key = key ∧ entry.document = last := Prod.mk.inj hentry
      exact ⟨before, entry, after, hobject, rfl,
        fun other hother => hafter other.pair (List.mem_map_of_mem hother), hlast⟩
    | _ => cases hget
  · rintro ⟨before, entry, after, hobject, rfl, hafter, hlast⟩
    obtain rfl := h.unique hobject.means
    obtain ⟨-, fields, rfl, -⟩ := valueWithin?_object_eq_some_iff.1 hnode
    have hlookup := map_lookup_of_record hnode entry.key
    -- no entry behind it has the key, so it is found first in the reversed list
    have hreverse : ((before ++ entry :: after).map Entry.pair).reverse.lookup entry.key =
        some entry.document := by
      rw [List.lookup_eq_some_iff]
      refine ⟨(after.map Entry.pair).reverse, (before.map Entry.pair).reverse, by simp [Entry.pair], ?_⟩
      intro pair hpair
      obtain ⟨other, hother, rfl⟩ := List.mem_map.1 (List.mem_reverse.1 hpair)
      exact bne_iff_ne.2 (hafter other hother).symm
    rw [hreverse, Option.map_some, hlast] at hlookup
    obtain ⟨value, hvalue, heq⟩ := Option.map_eq_some_iff.1 hlookup.symm
    rw [get?, hvalue, Option.some.inj heq]

/-- Only the text of an object has something under a key. -/
theorem get?_eq_none_of_means (h : Means token d) (hnode : d.value? = some node)
    (hhead : token.head? ≠ some '\x7b') (key : String) : node.get? key = none := by
  by_contra hne
  obtain ⟨next, hnext⟩ := Option.ne_none_iff_exists'.1 hne
  obtain ⟨_, _, _, hobject, -⟩ := (get?_eq_some_iff_of_means h hnode).1 hnext
  exact hhead hobject.head?_eq

/-! ## Paths -/

/-- From what means a document with a value, keys lead to what means a document with a value. -/
theorem exists_value_of_leads {keys : List String} {target : List Char} (h : Leads keys token target)
    (hmeans : Means token d) (hnode : d.value? = some node) :
    ∃ d' reached, Means target d' ∧ d'.value? = some reached := by
  induction h generalizing d node with
  | nil token => exact ⟨d, node, hmeans, hnode⟩
  | @cons keys token target before after entry hobject hlast _ ih =>
    have hentry : entry ∈ before ++ entry :: after := by simp
    obtain ⟨value, hvalue⟩ := hobject.exists_value? hmeans hnode hentry
    exact ih (hobject.means_of_mem hentry) hvalue

/-- The node that keys lead to is what the keys lead to in the text of the node. -/
theorem find?_eq_some_iff_of_means {keys : List String} (h : Means token d) (hnode : d.value? = some node) :
    node.find? keys = some reached ↔
      ∃ target d', Leads keys token target ∧ Means target d' ∧ d'.value? = some reached := by
  induction keys generalizing token d node with
  | nil =>
    constructor
    · intro hreached
      obtain rfl : node = reached := Option.some.inj hreached
      exact ⟨token, d, .nil token, h, hnode⟩
    · rintro ⟨_, d', ⟨⟩, hmeans, hreached⟩
      obtain rfl := hmeans.unique h
      exact hnode.symm.trans hreached
  | cons key keys ih =>
    rw [find?_cons, Option.bind_eq_some_iff]
    constructor
    -- from the node to the text: what stands under the first key is meant by the text of an entry
    · rintro ⟨next, hnext, hreached⟩
      obtain ⟨before, entry, after, hobject, rfl, hlast, hvalue⟩ :=
        (get?_eq_some_iff_of_means h hnode).1 hnext
      have hmeans := hobject.means_of_mem (by simp : entry ∈ before ++ entry :: after)
      obtain ⟨target, d', hleads, hd'⟩ := (ih hmeans hvalue).1 hreached
      exact ⟨target, d', .cons hobject hlast hleads, hd'⟩
    -- and back: the entry on the way has a value, which is the node under the first key
    · rintro ⟨target, d', hleads, hd'⟩
      cases hleads with
      | @cons _ _ _ before after entry hobject hlast hleads =>
        have hentry : entry ∈ before ++ entry :: after := by simp
        obtain ⟨next, hnext⟩ := hobject.exists_value? h hnode hentry
        refine ⟨next, (get?_eq_some_iff_of_means h hnode).2
          ⟨before, entry, after, hobject, rfl, hlast, hnext⟩, ?_⟩
        exact (ih (hobject.means_of_mem hentry) hnext).2 ⟨target, d', hleads, hd'⟩

/-- A token on its own reads as what the document that it means denotes. -/
theorem parse_ofList_eq_ok_iff_of_means (h : Means token d) :
    parse (String.ofList token) = .ok node ↔ d.value? = some node := by
  rw [parse_eq_ok_iff_means, String.toList_ofList, h.strip_eq]
  constructor
  · rintro ⟨d', hmeans, hvalue⟩
    rwa [h.unique hmeans]
  · exact fun hvalue => ⟨d, h, hvalue⟩

/-- **Lookup by a path follows the last value under each key in the text.** Keys lead to a node exactly if
they lead through the text, from object to object, to the text of a value, and the node is that text read
on its own. No key leads on from the text of anything but an object. If pairs with different keys change
places in the text, at any level, it stays well-formed and keys lead to the same nodes. -/
theorem find?_iff_leads {text : String} {node : Value} (h : parse text = .ok node)
    (keys : List String) :
    (∀ reached, node.find? keys = some reached ↔
      ∃ token, Leads keys (strip isSpace text.toList) token ∧
        parse (String.ofList token) = .ok reached) ∧
    ((node.find? keys).isSome ↔ ∃ token, Leads keys (strip isSpace text.toList) token) ∧
    (∀ token, Leads keys (strip isSpace text.toList) token → token.head? ≠ some '\x7b' →
      ∀ key more, node.find? (keys ++ key :: more) = none) ∧
    ∀ text', (Document.read text').complete = true →
      Reordered (Document.read text).document (Document.read text').document →
      ∃ node', parse text' = .ok node' ∧ node'.find? keys = node.find? keys := by
  obtain ⟨d, hmeans, hnode⟩ := parse_eq_ok_iff_means.1 h
  have hfind : ∀ reached, node.find? keys = some reached ↔
      ∃ token, Leads keys (strip isSpace text.toList) token ∧
        parse (String.ofList token) = .ok reached := by
    intro reached
    rw [find?_eq_some_iff_of_means hmeans hnode]
    refine exists_congr fun token => ?_
    constructor
    · rintro ⟨d', hleads, hd', hvalue⟩
      exact ⟨hleads, (parse_ofList_eq_ok_iff_of_means hd').2 hvalue⟩
    · rintro ⟨hleads, hparse⟩
      obtain ⟨d', _, hd', -⟩ := exists_value_of_leads hleads hmeans hnode
      exact ⟨d', hleads, hd', (parse_ofList_eq_ok_iff_of_means hd').1 hparse⟩
  -- a target has a value since the whole text has one, so keys that lead on always reach a node
  have hreached : ∀ token, Leads keys (strip isSpace text.toList) token →
      ∃ d' reached, Means token d' ∧ d'.value? = some reached ∧ node.find? keys = some reached := by
    intro token hleads
    obtain ⟨d', reached, hd', hvalue⟩ := exists_value_of_leads hleads hmeans hnode
    exact ⟨d', reached, hd', hvalue,
      (find?_eq_some_iff_of_means hmeans hnode).2 ⟨token, d', hleads, hd', hvalue⟩⟩
  refine ⟨hfind, ?_, ?_, ?_⟩
  · rw [Option.isSome_iff_exists]
    constructor
    · rintro ⟨reached, hsome⟩
      obtain ⟨token, hleads, -⟩ := (hfind reached).1 hsome
      exact ⟨token, hleads⟩
    · rintro ⟨token, hleads⟩
      obtain ⟨_, reached, -, -, hsome⟩ := hreached token hleads
      exact ⟨reached, hsome⟩
  · intro token hleads hhead key more
    obtain ⟨d', reached, hd', hvalue, hsome⟩ := hreached token hleads
    rw [find?_append, hsome, Option.bind_some, find?_cons, get?_eq_none_of_means hd' hvalue hhead,
      Option.bind_none]
  · intro text' hcomplete hreordered
    have hvalue := hreordered.valueWithin?_eq (parse_eq_ok_iff.1 h).1
    exact ⟨node, parse_eq_ok_iff.2 ⟨hvalue, hcomplete⟩, rfl⟩

/-- An object with a key that stands twice, in which another key stands twice; the path ends at an array,
and a pair can change places with its neighbours. -/
theorem find?_iff_leads_repeated_key :
    let d := record [("a", .null), ("a", record [("b", .int 1), ("b", record [("0", .list [])]),
      ("c", .int 2)])]
    let d' := record [("a", .null), ("a", record [("b", .int 1), ("c", .int 2),
      ("b", record [("0", .list [])])])]
    let node : Value := .object [("a", .object [("b", .object [("0", .array [])]), ("c", .int 2)])]
    let keys := ["a", "b", "0"]
    parse d.compact = .ok node ∧ node.find? keys = some (.array []) ∧
      (∃ token, Leads keys (strip isSpace d.compact.toList) token ∧
        parse (String.ofList token) = .ok (.array [])) ∧
      ∃ node', parse d'.compact = .ok node' ∧ node'.find? keys = some (.array []) := by
  intro d d' node keys
  have hplain : d.IsPlain ∧ d'.IsPlain := by
    simp [d, d', isPlain_record_iff, Document.list, Document.int, Document.IsPlain, ArePlain]
  have hread : Document.read d.compact = ⟨d, true⟩ := Document.read_compact hplain.1
  have hread' : Document.read d'.compact = ⟨d', true⟩ := Document.read_compact hplain.2
  have hparse : parse d.compact = .ok node := by decide +kernel
  have hfind : node.find? keys = some (.array []) := by decide +kernel
  have hreordered : Reordered d d' :=
    .value [("a", .null)] [] "a" (.swap [("b", .int 1)] [] (by decide))
  obtain ⟨hleads, -, -, hany⟩ := find?_iff_leads hparse keys
  obtain ⟨node', hnode', hsame⟩ := hany d'.compact (by rw [hread']) (by rwa [hread, hread'])
  exact ⟨hparse, hfind, (hleads _).1 hfind, node', hnode', hsame.trans hfind⟩

end Value

end KeywordRules.Json
