import KeywordRules.Form.Config
import KeywordRules.Options.Load
import KeywordRules.Proofs.FlagSettings
import KeywordRules.Proofs.TomlTables

/-!
# One configuration in two languages

A sheet is what a configuration holds, whatever the language: plain values under bare keys, at the top and
in the table for code generation. It has a TOML text, line by line, and JSON texts, which have its pairs
in any order. Both are read alike (`Sheet.parse_toml_iff_parseJson`), since in both the pairs of the table
choose the options (`Plain.Choose`) and nothing else counts.
-/

namespace KeywordRules

open KeywordRules.Json (Document)
open KeywordRules.Toml

/-! ## Steps that may fail -/

theorem Except.exists_eq_error_iff {ε α : Type} {x : Except ε α} :
    (∃ e, x = .error e) ↔ ¬ ∃ a, x = .ok a := by
  cases x <;> simp

/-- Items that each leave a state alone leave it alone together. -/
theorem foldlM_eq_pure {m : Type → Type} [Monad m] [LawfulMonad m] {σ α : Type} {step : σ → α → m σ}
    {state : σ} {items : List α} (h : ∀ item ∈ items, step state item = pure state) :
    items.foldlM step state = pure state := by
  induction items with
  | nil => rfl
  | cons item items ih =>
    obtain ⟨hitem, hitems⟩ := List.forall_mem_cons.1 h
    rw [List.foldlM_cons, hitem, pure_bind, ih hitems]

theorem Config.map_mk_eq_ok_iff {ε : Type} {x : Except ε Options} {config : Config} :
    x.map Config.mk = .ok config ↔ x = .ok config.generation := by
  obtain ⟨options⟩ := config
  cases x <;> simp [Except.map]

/-! ## Options that pairs choose -/

namespace Toml.Plain

/-- The boolean that a plain value is, if it is one. -/
def bool? : Plain → Option Bool
  | .bool b => some b
  | _ => none

theorem bool?_eq_some_iff {value : Plain} {b : Bool} : value.bool? = some b ↔ value = .bool b := by
  cases value <;> simp [bool?]

/-- Pairs choose options: they can be taken one after another, and set the flags that are on. -/
def Choose (pairs : List (String × Plain)) (options : Options) : Prop :=
  ∃ settings, Settings.SetBy bool? pairs .blank settings ∧ settings.toOptions = options

theorem Choose.perm {pairs pairs' : List (String × Plain)} {options : Options}
    (hperm : pairs.Perm pairs') (h : Choose pairs options) : Choose pairs' options :=
  h.imp fun _ hsettings => hsettings.imp_left fun h => h.perm hperm

/-- Pairs are at odds about a flag with two names: both stand there, or one with a value that is no
boolean. -/
def Clash (pairs : List (String × Plain)) (name older : String) : Prop :=
  (name ∈ pairs.map Prod.fst ∧ older ∈ pairs.map Prod.fst) ∨
    ∃ pair ∈ pairs, (pair.1 = name ∨ pair.1 = older) ∧ ∀ b, pair.2 ≠ .bool b

/-- Pairs set a flag with two names to true. -/
def TurnOn (pairs : List (String × Plain)) (name older : String) : Prop :=
  (name, .bool true) ∈ pairs ∨ (older, .bool true) ∈ pairs

/-- Pairs with keys that differ are apart exactly if no flag has both of its names among them. -/
theorem pairwise_apart_iff {pairs : List (String × Plain)} (h : (pairs.map Prod.fst).Nodup) :
    pairs.Pairwise Flag.Apart ↔
      ∀ flag : Flag, ¬ (flag.key ∈ pairs.map Prod.fst ∧ flag.olderKey ∈ pairs.map Prod.fst) := by
  constructor
  · rintro hapart flag ⟨hkey, holder⟩
    obtain ⟨pair, hpair, hkey⟩ := List.mem_map.1 hkey
    obtain ⟨pair', hpair', holder⟩ := List.mem_map.1 holder
    -- one pair has one name, and the two names of a flag differ
    have hne : pair ≠ pair' := by
      rintro rfl
      rw [hkey] at holder
      cases flag <;> revert holder <;> decide
    exact hapart.forall hpair hpair' hne flag (Flag.ofKey?_eq_some_iff.2 (.inl hkey))
      (Flag.ofKey?_eq_some_iff.2 (.inr holder))
  · intro hnames
    -- two pairs about one flag have its two names, as their keys differ
    refine (List.pairwise_map.1 h).imp_of_mem fun {pair pair'} hpair hpair' hne flag hflag hflag' => ?_
    have hmem := List.mem_map_of_mem (f := Prod.fst) hpair
    have hmem' := List.mem_map_of_mem (f := Prod.fst) hpair'
    obtain hkey | hkey := Flag.ofKey?_eq_some_iff.1 hflag <;>
      obtain hkey' | hkey' := Flag.ofKey?_eq_some_iff.1 hflag'
    · exact hne (hkey.trans hkey'.symm)
    · exact hnames flag ⟨hkey ▸ hmem, hkey' ▸ hmem'⟩
    · exact hnames flag ⟨hkey' ▸ hmem', hkey ▸ hmem⟩
    · exact hne (hkey.trans hkey'.symm)

/-- Pairs with keys that differ choose options exactly if they are at odds about no flag. -/
theorem exists_choose_iff {pairs : List (String × Plain)} (h : (pairs.map Prod.fst).Nodup) :
    (∃ options, Choose pairs options) ↔ ∀ flag : Flag, ¬ Clash pairs flag.key flag.olderKey := by
  have hsettings : (∃ options, Choose pairs options) ↔
      ∃ settings, Settings.SetBy bool? pairs .blank settings := by
    constructor
    · rintro ⟨_, settings, hset, -⟩
      exact ⟨settings, hset⟩
    · rintro ⟨settings, hset⟩
      exact ⟨_, settings, hset, rfl⟩
  rw [hsettings, Settings.exists_setBy_iff, pairwise_apart_iff h]
  -- at odds about a flag means both of its names, or a value that is no boolean
  constructor
  · rintro ⟨hnames, hbool⟩ flag (hboth | ⟨pair, hpair, hname, hno⟩)
    · exact hnames flag hboth
    · obtain ⟨-, b, hb⟩ := hbool pair hpair flag (Flag.ofKey?_eq_some_iff.2 hname)
      exact hno b (bool?_eq_some_iff.1 hb)
  · intro h
    refine ⟨fun flag hboth => h flag (.inl hboth), fun pair hpair flag hflag => ⟨?_, ?_⟩⟩
    · exact Settings.get?_blank flag
    · by_contra hno
      refine h flag (.inr ⟨pair, hpair, Flag.ofKey?_eq_some_iff.1 hflag, fun b hb => hno ⟨b, ?_⟩⟩)
      exact bool?_eq_some_iff.2 hb

/-- A flag is set to true if one of its names stands there with it. -/
theorem get?_eq_some_true_iff {pairs : List (String × Plain)} {settings : Settings}
    (h : Settings.SetBy bool? pairs .blank settings) (flag : Flag) :
    settings.get? flag = some true ↔ TurnOn pairs flag.key flag.olderKey := by
  rw [h.get?_eq_some_iff flag true, Settings.get?_blank]
  simp only [reduceCtorEq, false_or, bool?_eq_some_iff, Flag.ofKey?_eq_some_iff]
  constructor
  · rintro ⟨⟨key, value⟩, hpair, rfl | rfl, rfl⟩
    · exact .inl hpair
    · exact .inr hpair
  · rintro (hpair | hpair)
    · exact ⟨_, hpair, .inl rfl, rfl⟩
    · exact ⟨_, hpair, .inr rfl, rfl⟩

end Toml.Plain

/-! ## Sheets -/

/-- What a configuration consists of: pairs at its top, and pairs of its table for code generation. All
keys are bare and all values plain. -/
structure Sheet where
  /-- The pairs at the top, the table aside. -/
  top : List (String × Plain)
  /-- The pairs of the table. -/
  generation : List (String × Plain)
  /-- Keys need no quotes. -/
  isBare : ∀ pair ∈ top ++ generation, IsBare pair.1
  /-- No key stands twice at the top, where the table has its key too. -/
  nodup_top : ("generation" :: top.map Prod.fst).Nodup
  /-- No key stands twice in the table. -/
  nodup_generation : (generation.map Prod.fst).Nodup

namespace Sheet

theorem ne_of_mem_top (sheet : Sheet) : ∀ pair ∈ sheet.top, pair.1 ≠ "generation" := by
  intro pair hpair hkey
  exact (List.nodup_cons.1 sheet.nodup_top).1 (hkey ▸ List.mem_map_of_mem hpair)

/-- The table of a sheet is at odds about one of the flags. -/
def Clashes (sheet : Sheet) : Prop :=
  Plain.Clash sheet.generation "include_not_null_annotations" "include_jsr303_annotations" ∨
    Plain.Clash sheet.generation "include_nullability_annotations" "include_jsr305_annotations"

/-- The table of a sheet chooses options exactly if it is at odds about no flag. -/
theorem exists_choose_iff (sheet : Sheet) :
    (∃ options, Plain.Choose sheet.generation options) ↔ ¬ sheet.Clashes := by
  rw [Plain.exists_choose_iff sheet.nodup_generation, Clashes, not_or]
  constructor
  · exact fun h => ⟨h .notNull, h .nullability⟩
  · rintro ⟨hnotNull, hnullability⟩ flag
    cases flag with
    | notNull => exact hnotNull
    | nullability => exact hnullability

end Sheet

/-! ## In TOML -/

namespace Toml.Plain

theorem item_asBool_eq_ok_iff (value : Plain) (on : Bool) :
    (Item.scalar value.scalar).asBool = .ok on ↔ value.bool? = some on := by
  cases value <;> simp [scalar, Item.asBool, bool?]

/-- The integers are small enough to be passed over. -/
theorem passOver_eq_ok (value : Plain) : (Item.scalar value.scalar).passOver = .ok () := by
  -- 64 bits fit into the 128 that are checked
  have hrange : (Item.scalar value.scalar).isInRange = true := by
    cases value with
    | bool b => rfl
    | string s hplain => rfl
    | integer n hlow hhigh =>
      have hsize : UInt64.size / 2 = 9223372036854775808 := rfl
      have hpow127 : Nat.pow 2 127 = 170141183460469231731687303715884105728 := rfl
      have hpow128 : Nat.pow 2 128 = 340282366920938463463374607431768211456 := rfl
      simp only [scalar, Item.isInRange, hpow127, hpow128, Bool.and_eq_true, decide_eq_true_eq]
      omega
  rw [Item.passOver, if_pos hrange]

theorem ofItem_eq_ok_iff {pairs : List (String × Plain)} (origin : Origin) {options : Options} :
    Options.ofItem (.table origin (pairs.map entry)) = .ok options ↔ Choose pairs options := by
  have htake : ∀ settings pair, Options.takeEntry settings (entry pair) =
      settings.take (fun _ => .content) pair.1 (Item.scalar pair.2.scalar).asBool (.ok ()) := by
    intro settings pair
    rw [Options.takeEntry, entry, passOver_eq_ok]
  rw [Options.ofItem, List.foldlM_map, Except.map_eq_ok_iff]
  simp only [htake, Settings.foldlM_take_eq_ok_iff item_asBool_eq_ok_iff, Choose]

/-- Entries with other keys are passed over. -/
theorem foldlM_takeEntry {pairs : List (String × Plain)} (h : ∀ pair ∈ pairs, pair.1 ≠ "generation")
    (found : Option Options) :
    (pairs.map entry).foldlM Config.takeEntry found = pure found := by
  refine foldlM_eq_pure (List.forall_mem_map.2 fun pair hpair => ?_)
  have hkey : (entry pair).1 ≠ Config.generationKey := h pair hpair
  rw [Config.takeEntry, if_neg hkey, entry, passOver_eq_ok]
  rfl

end Toml.Plain

namespace Sheet

/-- The lines of a sheet: its pairs at the top, the header of its table, and the pairs of that. -/
def lines (sheet : Sheet) : List (List Char) :=
  sheet.top.map assignLine ++ headerLine "generation" :: sheet.generation.map assignLine

/-- The TOML text of a sheet, with or without a line feed after the last line. -/
def toml (sheet : Sheet) (ended : Bool) : String :=
  String.ofList (List.intercalate ['\n'] sheet.lines ++ if ended then ['\n'] else [])

/-- The statements that the lines of a sheet stand for. -/
def statements (sheet : Sheet) : List Statement :=
  sheet.top.map Plain.statement ++
    .header (.table ["generation"]) :: sheet.generation.map Plain.statement

theorem forall₂_isLine_assign {pairs : List (String × Plain)} (h : ∀ pair ∈ pairs, IsBare pair.1) :
    List.Forall₂ IsLine (pairs.map assignLine) (pairs.map Plain.statement) := by
  rw [List.forall₂_map_left_iff, List.forall₂_map_right_iff, List.forall₂_same]
  exact fun pair hpair => isLine_assign (h pair hpair)

theorem statements?_toml (sheet : Sheet) (ended : Bool) :
    statements? (sheet.toml ended) = some sheet.statements := by
  have hlines : List.Forall₂ IsLine sheet.lines sheet.statements := by
    refine List.rel_append (forall₂_isLine_assign fun pair hpair => ?_)
      (.cons (isLine_header (by decide)) (forall₂_isLine_assign fun pair hpair => ?_))
    · exact sheet.isBare pair (List.mem_append_left _ hpair)
    · exact sheet.isBare pair (List.mem_append_right _ hpair)
  refine statements?_lines hlines ?_
  cases ended
  · exact .inl rfl
  · exact .inr rfl

/-- The entries of a sheet: those at its top, and then its table. -/
def entries (sheet : Sheet) : Entries :=
  sheet.top.map Plain.entry ++
    [("generation", .table .header (sheet.generation.map Plain.entry))]

/-- The TOML text of a sheet is read as the entries of the sheet. -/
theorem read_toml (sheet : Sheet) (ended : Bool) : Toml.read (sheet.toml ended) = .ok sheet.entries := by
  have hbuild : build? sheet.statements = some sheet.entries :=
    Plain.build?_statements sheet.nodup_top sheet.nodup_generation
  rw [Toml.read, statements?_toml]
  simp only [hbuild]

theorem ofEntries_entries (sheet : Sheet) :
    Config.ofEntries sheet.entries =
      (Options.ofItem (.table .header (sheet.generation.map Plain.entry))).map Config.mk := by
  have htake : Config.takeEntry none
      ("generation", .table .header (sheet.generation.map Plain.entry)) =
        (Options.ofItem (.table .header (sheet.generation.map Plain.entry))).map some := if_pos rfl
  rw [Config.ofEntries, entries, List.foldlM_append, Plain.foldlM_takeEntry sheet.ne_of_mem_top, pure_bind,
    List.foldlM_cons, htake]
  cases Options.ofItem (.table .header (sheet.generation.map Plain.entry)) <;> rfl

/-- The TOML text of a sheet is a configuration with the options that its table chooses. -/
theorem parse_toml_eq_ok_iff (sheet : Sheet) (path : String) (ended : Bool) {config : Config} :
    Config.parse path (sheet.toml ended) = .ok config ↔
      Plain.Choose sheet.generation config.generation := by
  have hparse : Config.parseToml (sheet.toml ended) = Config.ofEntries sheet.entries := by
    rw [Config.parseToml, read_toml]
    rfl
  rw [← Plain.ofItem_eq_ok_iff .header, ← Config.map_mk_eq_ok_iff, ← ofEntries_entries, ← hparse,
    Config.parse]
  cases Config.parseToml (sheet.toml ended) <;> simp

end Sheet

/-! ## In JSON -/

namespace Toml.Plain

/-- The document of a plain value. -/
def document : Plain → Document
  | .bool b => .bool b
  | .integer n _ _ => .int n
  | .string s _ => .text s

/-- The pair of a key with a plain value. -/
def field (pair : String × Plain) : String × Document :=
  (pair.1, pair.2.document)

theorem document_asBool_eq_ok_iff (value : Plain) (on : Bool) :
    value.document.asBool = .ok on ↔ value.bool? = some on := by
  cases value <;> simp [document, Document.asBool, Document.int, Document.text, bool?]

theorem isPlain_document (value : Plain) : value.document.IsPlain := by
  cases value with
  | bool b => trivial
  | integer n hlow hhigh => exact ⟨n, rfl⟩
  | string s hplain => trivial

theorem ofDocument_eq_ok_iff {pairs : List (String × Plain)} {options : Options} :
    Options.ofDocument (.record (pairs.map field)) = .ok options ↔ Choose pairs options := by
  have htake : ∀ settings (pair : String × Plain),
      Options.takePair settings (Document.text pair.1, pair.2.document) =
        settings.take Options.repeatedFault pair.1 pair.2.document.asBool (.ok ()) := fun _ _ => rfl
  rw [Document.record, Options.ofDocument, List.map_map, List.foldlM_map, Except.bind_eq_ok_iff]
  simp only [Function.comp, field, htake, Settings.foldlM_take_eq_ok_iff document_asBool_eq_ok_iff,
    if_true, pure, Except.pure, Except.ok.injEq, Choose]

end Toml.Plain

/-- Pairs with other keys are passed over. -/
theorem Config.foldlM_takePair {pairs : List (String × Document)}
    (h : ∀ pair ∈ pairs, pair.1 ≠ "generation") (found : Option Options) :
    (pairs.map fun pair => (Document.text pair.1, pair.2)).foldlM Config.takePair found =
      pure found :=
  foldlM_eq_pure (List.forall_mem_map.2 fun pair hpair => if_neg (h pair hpair))

namespace Sheet

/-- The object with a table between pairs at the top. -/
def documentOf (before table after : List (String × Plain)) : Document :=
  .record (before.map Plain.field ++
    ("generation", .record (table.map Plain.field)) :: after.map Plain.field)

/-- A JSON text holds what a sheet holds: it is an object with the pairs at the top of the sheet and with
the table, an object with the pairs of the table, in whatever order and however it is spelled. -/
def IsJson (sheet : Sheet) (text : String) : Prop :=
  ∃ before table after, Document.read text = ⟨documentOf before table after, true⟩ ∧
    (before ++ after).Perm sheet.top ∧ table.Perm sheet.generation

theorem isPlain_documentOf (before table after : List (String × Plain)) :
    (documentOf before table after).IsPlain := by
  have hfields : ∀ pairs : List (String × Plain), ∀ pair ∈ pairs.map Plain.field, pair.2.IsPlain :=
    fun pairs => List.forall_mem_map.2 fun pair _ => pair.2.isPlain_document
  rw [documentOf, Document.isPlain_record_iff, List.forall_mem_append, List.forall_mem_cons]
  exact ⟨hfields before, Document.isPlain_record_iff.2 (hfields table), hfields after⟩

/-- Every sheet has a JSON text: the compact one, with the table at the end. -/
theorem isJson_compact (sheet : Sheet) :
    sheet.IsJson (documentOf sheet.top sheet.generation []).compact :=
  ⟨sheet.top, sheet.generation, [], Document.read_compact (isPlain_documentOf _ _ _),
    .of_eq (List.append_nil _), .refl _⟩

theorem ofDocument_documentOf {before table after : List (String × Plain)}
    (h : ∀ pair ∈ before ++ after, pair.1 ≠ "generation") :
    Config.ofDocument (documentOf before table after) =
      (Options.ofDocument (.record (table.map Plain.field))).map Config.mk := by
  obtain ⟨hbefore, hafter⟩ := List.forall_mem_append.1 h
  have htake : Config.takePair none (Document.text "generation", .record (table.map Plain.field)) =
      (Options.ofDocument (.record (table.map Plain.field))).map some := by
    simp only [Document.text, Config.takePair, Config.generationKey, if_true]
  rw [documentOf, Document.record, Config.ofDocument, List.map_append, List.foldlM_append,
    Config.foldlM_takePair (List.forall_mem_map.2 hbefore), pure_bind, List.map_cons, List.foldlM_cons, htake]
  cases Options.ofDocument (.record (table.map Plain.field)) with
  | error fault => rfl
  | ok options =>
    have hfound : (Except.ok options : Except Fault Options).map some = pure (some options) := rfl
    rw [hfound, pure_bind, Config.foldlM_takePair (List.forall_mem_map.2 hafter), pure_bind]
    rfl

/-- A JSON text that holds what a sheet holds is a configuration with the options that its table
chooses. -/
theorem parseJson_eq_ok_iff (sheet : Sheet) {text : String} (h : sheet.IsJson text) {config : Config} :
    Config.parseJson text = .ok config ↔ Plain.Choose sheet.generation config.generation := by
  obtain ⟨before, table, after, hread, htop, htable⟩ := h
  have hkeys : ∀ pair ∈ before ++ after, pair.1 ≠ "generation" := fun pair hpair =>
    sheet.ne_of_mem_top pair (htop.mem_iff.1 hpair)
  rw [Config.parseJson, Document.parse_eq_ok_iff, hread, ofDocument_documentOf hkeys,
    Config.map_mk_eq_ok_iff, Plain.ofDocument_eq_ok_iff]
  simp only [and_true]
  exact ⟨Plain.Choose.perm htable, Plain.Choose.perm htable.symm⟩

end Sheet

/-! ## Agreement -/

namespace Sheet

theorem exists_config_iff (sheet : Sheet) :
    (∃ config : Config, Plain.Choose sheet.generation config.generation) ↔ ¬ sheet.Clashes := by
  rw [← sheet.exists_choose_iff]
  exact ⟨fun ⟨config, h⟩ => ⟨config.generation, h⟩, fun ⟨options, h⟩ => ⟨⟨options⟩, h⟩⟩

/-- **A configuration is read alike from both languages.** What a sheet holds is read from its TOML text as
it is from a JSON text: to the same configuration, or not at all. It is refused exactly if the table
names a flag in both ways or gives it anything but a boolean; otherwise a flag is on if the table has one
of its names with `true`. -/
theorem parse_toml_iff_parseJson (sheet : Sheet) (path : String) (ended : Bool) {json : String}
    (hjson : sheet.IsJson json) :
    (∀ config, Config.parse path (sheet.toml ended) = .ok config ↔
      Config.parseJson json = .ok config) ∧
    ((∃ e, Config.parse path (sheet.toml ended) = .error e) ↔ sheet.Clashes) ∧
    ((∃ fault, Config.parseJson json = .error fault) ↔ sheet.Clashes) ∧
    ∀ config, Config.parse path (sheet.toml ended) = .ok config →
      (config.generation.notNull = true ↔ Plain.TurnOn sheet.generation
        "include_not_null_annotations" "include_jsr303_annotations") ∧
      (config.generation.nullability = true ↔ Plain.TurnOn sheet.generation
        "include_nullability_annotations" "include_jsr305_annotations") := by
  refine ⟨fun config => ?_, ?_, ?_, fun config hconfig => ?_⟩
  · rw [sheet.parse_toml_eq_ok_iff, sheet.parseJson_eq_ok_iff hjson]
  · simp only [Except.exists_eq_error_iff, sheet.parse_toml_eq_ok_iff, sheet.exists_config_iff, not_not]
  · simp only [Except.exists_eq_error_iff, sheet.parseJson_eq_ok_iff hjson, sheet.exists_config_iff,
      not_not]
  · obtain ⟨settings, hsettings, hoptions⟩ := (sheet.parse_toml_eq_ok_iff path ended).1 hconfig
    rw [← hoptions, Settings.notNull_toOptions_iff, Settings.nullability_toOptions_iff]
    exact ⟨Plain.get?_eq_some_true_iff hsettings .notNull,
      Plain.get?_eq_some_true_iff hsettings .nullability⟩

/-- A sheet whose table names a flag in the older way. The JSON text has the table first, with its pairs in
another order. -/
theorem parse_toml_iff_parseJson_older_name :
    let sheet : Sheet :=
      { top := [("title", .string "it's" (by decide)),
          ("include_not_null_annotations", .integer 7 (by decide) (by decide))]
        generation := [("include_jsr303_annotations", .bool true),
          ("limit", .integer (-9223372036854775808) (by decide) (by decide))]
        isBare := by decide
        nodup_top := by decide
        nodup_generation := by decide }
    let json := (documentOf [] sheet.generation.reverse sheet.top).compact
    sheet.IsJson json ∧ Config.parseJson json = .ok ⟨⟨true, false⟩⟩ ∧
      Config.parse "rules.toml" (sheet.toml true) = .ok ⟨⟨true, false⟩⟩ ∧ ¬ sheet.Clashes := by
  intro sheet json
  have hread : Document.read json = ⟨documentOf [] sheet.generation.reverse sheet.top, true⟩ :=
    Document.read_compact (isPlain_documentOf _ _ _)
  have hjson : sheet.IsJson json := ⟨[], _, _, hread, .refl _, List.reverse_perm _⟩
  have hparse : Config.parseJson json = .ok ⟨⟨true, false⟩⟩ := by
    rw [Config.parseJson, Document.parse_eq_ok_iff, hread]
    decide +kernel
  obtain ⟨hagree, -, hfail, -⟩ := parse_toml_iff_parseJson sheet "rules.toml" true hjson
  refine ⟨hjson, hparse, (hagree _).2 hparse, fun hclash => ?_⟩
  obtain ⟨fault, hfault⟩ := hfail.2 hclash
  rw [hparse] at hfault
  cases hfault

end Sheet

end KeywordRules
