import KeywordRules.Options.Load
import KeywordRules.Proofs.PathResolution

/-!
# Loading, case by case

What is at a path decides what loading from it gives (`Comes`): nothing, something without a text, or a
text. There is always one of these (`exists_holds`), and no two of them, because a path leads to one node
at most. A given path with nothing at it is not found, one with no text at it is unreadable, and a text is
parsed. Without a path the default file is loaded if something is there, and otherwise the default
configuration is the result. `load_decides` puts this together with the log, and says that nothing else
in the file system matters.
-/

namespace KeywordRules

namespace FileSystem

/-- Nothing is at a path. -/
def IsMissing (system : FileSystem) (path : String) : Prop :=
  ∀ node, ¬system.Leads path node

/-- What is at a path has no text: it is a directory, or a file whose bytes are not valid. -/
def IsTextless (system : FileSystem) (path : String) : Prop :=
  (∃ entries, system.Leads path (.directory entries)) ∨
    ∃ bytes, system.Leads path (.file bytes) ∧ ¬bytes.IsValidUTF8

/-- A file with a text is at a path. -/
def Holds (system : FileSystem) (path text : String) : Prop :=
  system.Leads path (.file text.toUTF8)

variable {system : FileSystem} {path text : String}

theorem not_isMissing_iff : ¬system.IsMissing path ↔ ∃ node, system.Leads path node :=
  Classical.not_forall.trans (exists_congr fun _ => Classical.not_not)

/-- What is neither missing nor without a text is a file with a text. -/
theorem exists_holds (hmissing : ¬system.IsMissing path) (htextless : ¬system.IsTextless path) :
    ∃ text, system.Holds path text := by
  obtain ⟨node, hnode⟩ := not_isMissing_iff.1 hmissing
  cases node with
  | directory entries => exact absurd (.inl ⟨entries, hnode⟩) htextless
  | file bytes =>
    have hvalid : bytes.IsValidUTF8 :=
      Classical.byContradiction fun h => htextless (.inr ⟨bytes, hnode, h⟩)
    exact ⟨String.fromUTF8 bytes hvalid, hnode⟩

theorem Holds.not_isMissing (h : system.Holds path text) : ¬system.IsMissing path :=
  fun hmissing => hmissing _ h

theorem IsTextless.not_isMissing (h : system.IsTextless path) : ¬system.IsMissing path := by
  intro hmissing
  rcases h with ⟨entries, h⟩ | ⟨bytes, h, -⟩
  · exact hmissing _ h
  · exact hmissing _ h

theorem Holds.not_isTextless (h : system.Holds path text) : ¬system.IsTextless path := by
  rintro (⟨entries, hdirectory⟩ | ⟨bytes, hfile, hinvalid⟩)
  · cases h.unique hdirectory
  · cases h.unique hfile
    exact hinvalid text.isValidUTF8

theorem Holds.unique {text' : String} (h : system.Holds path text) (h' : system.Holds path text') :
    text = text' := by
  have hbytes : text.toUTF8 = text'.toUTF8 := FileTree.file.inj (Leads.unique h h')
  exact String.toByteArray_inj.1 hbytes

end FileSystem

namespace Config

open FileSystem

variable {system : FileSystem} {path : String}

/-- What can come of loading from a given path: the result and the events on the way. -/
inductive Comes (system : FileSystem) (path : String) : Except ConfigError Config × List Event → Prop where
  | missing (h : system.IsMissing path) : Comes system path (.error (.notFound path), [])
  | textless (detail : String) (h : system.IsTextless path) :
    Comes system path (.error (.unreadable path detail), [])
  | invalid (text detail : String) (h : system.Holds path text)
    (hparse : parse path text = .error (.invalidToml path detail)) :
    Comes system path (.error (.invalidToml path detail), [])
  | loaded (text : String) (config : Config) (h : system.Holds path text)
    (hparse : parse path text = .ok config) :
    Comes system path
      (.ok config, [.loaded path config.generation.notNull config.generation.nullability])

/-! ## One path -/

/-- Parsing gives a configuration, or says that the text at the path is invalid. -/
theorem exists_parse (path text : String) :
    (∃ config, parse path text = .ok config) ∨
      ∃ detail, parse path text = .error (.invalidToml path detail) := by
  rw [parse]
  cases parseToml text with
  | ok config => exact .inl ⟨config, rfl⟩
  | error refusal => exact .inr ⟨refusal.message, rfl⟩

theorem comes_of_holds (text : String) (h : system.Holds path text) :
    Comes system path (loadFrom path (.file text.toUTF8)) := by
  have hread : readText path (.file text.toUTF8) = .ok text := by
    rw [readText, String.fromUTF8?, String.toUTF8_eq_toByteArray, dif_pos text.isValidUTF8]
    rfl
  rw [loadFrom, hread]
  rcases exists_parse path text with ⟨config, hparse⟩ | ⟨detail, hparse⟩
  · simp only [hparse]
    exact .loaded text config h hparse
  · simp only [hparse]
    exact .invalid text detail h hparse

theorem comes_load (system : FileSystem) (path : String) :
    Comes system path (load system (some path)) := by
  rw [load]
  -- nothing there, a directory, a file with a text, or one without
  cases hresolve : system.resolve? path with
  | none => exact .missing (resolve?_eq_none_iff.1 hresolve)
  | some node =>
    have hleads : system.Leads path node := resolve?_eq_some_iff.1 hresolve
    cases node with
    | directory entries => exact .textless _ (.inl ⟨entries, hleads⟩)
    | file bytes =>
      by_cases hvalid : bytes.IsValidUTF8
      · exact comes_of_holds (String.fromUTF8 bytes hvalid) hleads
      · have hread : readText path (.file bytes) = .error (.unreadable path "it is not UTF-8") := by
          rw [readText, String.fromUTF8?, dif_neg hvalid]
        simp only [loadFrom, hread]
        exact .textless _ (.inr ⟨bytes, hleads, hvalid⟩)

namespace Comes

variable {outcome : Except ConfigError Config × List Event}

theorem notFound_iff (h : Comes system path outcome) :
    outcome.1 = .error (.notFound path) ↔ system.IsMissing path := by
  cases h with
  | missing h => exact iff_of_true rfl h
  | textless detail h => exact iff_of_false (by simp) h.not_isMissing
  | invalid text detail h hparse => exact iff_of_false (by simp) h.not_isMissing
  | loaded text config h hparse => exact iff_of_false (by simp) h.not_isMissing

theorem unreadable_iff (h : Comes system path outcome) :
    (∃ detail, outcome.1 = .error (.unreadable path detail)) ↔ system.IsTextless path := by
  cases h with
  | missing h => exact iff_of_false (by simp) fun htextless => htextless.not_isMissing h
  | textless detail h => exact iff_of_true ⟨detail, rfl⟩ h
  | invalid text detail h hparse => exact iff_of_false (by simp) h.not_isTextless
  | loaded text config h hparse => exact iff_of_false (by simp) h.not_isTextless

theorem eq_parse {text : String} (h : Comes system path outcome) (htext : system.Holds path text) :
    outcome.1 = parse path text := by
  cases h with
  | missing h => exact absurd h htext.not_isMissing
  | textless detail h => exact absurd h htext.not_isTextless
  | invalid text' detail h hparse =>
    obtain rfl := htext.unique h
    exact hparse.symm
  | loaded text' config h hparse =>
    obtain rfl := htext.unique h
    exact hparse.symm

/-- A success is logged once, with its path and flags. -/
theorem events_of_ok (h : Comes system path outcome) {config : Config} (hok : outcome.1 = .ok config) :
    outcome.2 = [.loaded path config.generation.notNull config.generation.nullability] := by
  cases h with
  | missing h => cases hok
  | textless detail h => cases hok
  | invalid text detail h hparse => cases hok
  | loaded text config' h hparse =>
    obtain rfl := Except.ok.inj hok
    rfl

theorem events_of_error (h : Comes system path outcome) {e : ConfigError} (herror : outcome.1 = .error e) :
    outcome.2 = [] := by
  cases h with
  | missing h => rfl
  | textless detail h => rfl
  | invalid text detail h hparse => rfl
  | loaded text config h hparse => cases herror

end Comes

/-! ## The default file -/

/-- The default file is an entry of the working directory. -/
theorem leads_filename_iff {node : FileTree} :
    system.Leads filename node ↔
      ∃ entries, system.root.LeadsFrom [] system.working (.directory entries) ∧
        entries.lookup filename = some node := by
  -- the name of the file is relative and has one part, which is followed as it is
  have hroute : system.route filename = system.working ++ [filename] := by
    have hfront : filename.front ≠ '/' := by decide
    have hnames : FileTree.names filename = [filename] := by decide
    rw [route, if_neg hfront, hnames]
  have hstep : ∀ {entries}, system.root.LeadsFrom [] system.working (.directory entries) →
      system.root.at? (FileTree.next (system.working.foldl FileTree.next []) filename) =
        entries.lookup filename := by
    intro entries h
    have hnext : ∀ here, FileTree.next here filename = here ++ [filename] := fun here => by
      rw [FileTree.next, if_neg (by decide), if_neg (by decide)]
    rw [hnext, FileTree.at?_concat, h.arrives]
    rfl
  constructor
  · rintro ⟨-, h⟩
    rw [hroute, FileTree.leadsFrom_concat] at h
    obtain ⟨⟨entries, hworking⟩, hnode⟩ := h
    exact ⟨entries, hworking, (hstep hworking).symm.trans hnode⟩
  · rintro ⟨entries, hworking, hnode⟩
    refine ⟨by decide, ?_⟩
    rw [hroute, FileTree.leadsFrom_concat]
    exact ⟨⟨entries, hworking⟩, (hstep hworking).trans hnode⟩

theorem load_none_of_isMissing (h : system.IsMissing filename) :
    load system none = (.ok .default, [.noConfiguration filename]) := by
  rw [load, resolve?_eq_none_iff.2 h]

/-- The default file is loaded like a given one if something is there. -/
theorem load_none_of_not_isMissing (h : ¬system.IsMissing filename) :
    load system none = load system (some filename) := by
  obtain ⟨node, hnode⟩ := not_isMissing_iff.1 h
  rw [load, load, resolve?_eq_some_iff.2 hnode]

theorem load_none_eq_default_iff :
    (load system none).1 = .ok .default ↔
      system.IsMissing filename ∨
        ∃ text, system.Holds filename text ∧ parse filename text = .ok .default := by
  by_cases hmissing : system.IsMissing filename
  · rw [load_none_of_isMissing hmissing]
    exact iff_of_true rfl (.inl hmissing)
  rw [or_iff_right hmissing, load_none_of_not_isMissing hmissing]
  have hcomes := comes_load system filename
  constructor
  · intro hdefault
    -- the default configuration was not an error, so the file has a text
    have htextless : ¬system.IsTextless filename := fun h => by
      obtain ⟨detail, hdetail⟩ := hcomes.unreadable_iff.2 h
      cases hdetail.symm.trans hdefault
    obtain ⟨text, htext⟩ := exists_holds hmissing htextless
    exact ⟨text, htext, (hcomes.eq_parse htext).symm.trans hdefault⟩
  · rintro ⟨text, htext, hparse⟩
    exact (hcomes.eq_parse htext).trans hparse

/-! ## Any path and none -/

/-- Except for an absent default file, loading is loading from the path that is used. -/
theorem load_eq_some_getD {given : Option String} (h : ¬(given = none ∧ system.IsMissing filename)) :
    load system given = load system (some (given.getD filename)) := by
  cases given with
  | some path => rfl
  | none => exact load_none_of_not_isMissing fun hmissing => h ⟨rfl, hmissing⟩

/-- A success is logged once: with the path that was used and the flags, or with the absence of the
default file. -/
theorem events_of_ok {given : Option String} {config : Config} {events : List Event}
    (h : load system given = (.ok config, events)) :
    (given = none ∧ system.IsMissing filename ∧ events = [.noConfiguration filename]) ∨
      ¬(given = none ∧ system.IsMissing filename) ∧
        events = [.loaded (given.getD filename) config.generation.notNull
          config.generation.nullability] := by
  by_cases habsent : given = none ∧ system.IsMissing filename
  · obtain ⟨rfl, hmissing⟩ := habsent
    rw [load_none_of_isMissing hmissing] at h
    exact .inl ⟨rfl, hmissing, (congrArg Prod.snd h).symm⟩
  · have hcomes := comes_load system (given.getD filename)
    rw [← load_eq_some_getD habsent, h] at hcomes
    exact .inr ⟨habsent, hcomes.events_of_ok rfl⟩

/-- A failure is not logged. -/
theorem events_of_error {given : Option String} {e : ConfigError} {events : List Event}
    (h : load system given = (.error e, events)) : events = [] := by
  by_cases habsent : given = none ∧ system.IsMissing filename
  · obtain ⟨rfl, hmissing⟩ := habsent
    rw [load_none_of_isMissing hmissing] at h
    cases congrArg Prod.fst h
  · have hcomes := comes_load system (given.getD filename)
    rw [← load_eq_some_getD habsent, h] at hcomes
    exact hcomes.events_of_error rfl

/-- Loading depends on nothing but what is at the path that is used. -/
theorem load_congr {system' : FileSystem} {given : Option String}
    (h : ∀ node, system.Leads (given.getD filename) node ↔ system'.Leads (given.getD filename) node) :
    load system given = load system' given := by
  -- what the path resolves to is all that loading reads of the file system
  have hresolve : system.resolve? (given.getD filename) = system'.resolve? (given.getD filename) :=
    Option.ext fun node => by rw [resolve?_eq_some_iff, resolve?_eq_some_iff, h]
  cases given with
  | none =>
    rw [Option.getD_none] at hresolve
    rw [load, load, hresolve]
  | some path =>
    rw [Option.getD_some] at hresolve
    rw [load, load, hresolve]

/-- **What is at the path decides what loading gives.** From a given path, the configuration is not found
exactly if nothing is there, and unreadable exactly if a directory is there or a file whose bytes are not
valid; in every other case there is a file with a text, and the result is that of parsing the text, a
configuration or a complaint about that path. Without a path the default file is used, the entry of the
working directory with that name: the default configuration comes out exactly if the file is absent or
its text parses to it, and if something is there, loading is the same as from its name. Every success is
one debug event, about the path and the flags or about the absence of the default file, and a failure is
none. In two file systems where the path that is used leads to the same, loading is the same. -/
theorem load_decides (system : FileSystem) :
    (∀ path,
      ((load system (some path)).1 = .error (.notFound path) ↔ system.IsMissing path) ∧
      ((∃ detail, (load system (some path)).1 = .error (.unreadable path detail)) ↔
        system.IsTextless path) ∧
      (¬system.IsMissing path → ¬system.IsTextless path → ∃ text, system.Holds path text) ∧
      ∀ text, system.Holds path text →
        (load system (some path)).1 = parse path text ∧
          ((∃ config, parse path text = .ok config) ∨
            ∃ detail, parse path text = .error (.invalidToml path detail))) ∧
    (∀ node, system.Leads filename node ↔
      ∃ entries, system.root.LeadsFrom [] system.working (.directory entries) ∧
        entries.lookup filename = some node) ∧
    ((load system none).1 = .ok .default ↔
      system.IsMissing filename ∨
        ∃ text, system.Holds filename text ∧ parse filename text = .ok .default) ∧
    (¬system.IsMissing filename → load system none = load system (some filename)) ∧
    (∀ given config events, load system given = (.ok config, events) →
      ∃ event, events = [event] ∧ event.level = .debug ∧
        ((given = none ∧ system.IsMissing filename ∧ event = .noConfiguration filename ∧
            event.message = "no jsonschema-rules.toml found, using defaults") ∨
          (¬(given = none ∧ system.IsMissing filename) ∧
            event = .loaded (given.getD filename) config.generation.notNull
              config.generation.nullability ∧
            event.message = "loaded configuration"))) ∧
    (∀ given e events, load system given = (.error e, events) → events = []) ∧
    ∀ (system' : FileSystem) (given : Option String),
      (∀ node, system.Leads (given.getD filename) node ↔ system'.Leads (given.getD filename) node) →
        load system given = load system' given := by
  refine ⟨fun path => ?_, fun node => leads_filename_iff, load_none_eq_default_iff,
    load_none_of_not_isMissing, fun given config events h => ?_, fun given e events => events_of_error,
    fun system' given => load_congr⟩
  · have hcomes := comes_load system path
    exact ⟨hcomes.notFound_iff, hcomes.unreadable_iff, exists_holds,
      fun text htext => ⟨hcomes.eq_parse htext, exists_parse path text⟩⟩
  · rcases events_of_ok h with ⟨hgiven, hmissing, rfl⟩ | ⟨hused, rfl⟩
    · exact ⟨_, rfl, rfl, .inl ⟨hgiven, hmissing, rfl, by decide⟩⟩
    · exact ⟨_, rfl, rfl, .inr ⟨hused, rfl, rfl⟩⟩

/-- A default file that cannot be read, and a file in a directory of its own. A path that leads out of
that directory and back loads the file, in another system with a different default file too. -/
theorem load_decides_out_and_back :
    let text := "[generation]\ninclude_jsr305_annotations = true\n"
    let entries : List (String × FileTree) := [("c.toml", .file text.toUTF8)]
    let holding (bytes : ByteArray) : FileSystem :=
      ⟨.directory [("work", .directory [("conf", .directory entries), (filename, .file bytes)])], ["work"]⟩
    let system := holding ⟨#[255]⟩
    let path := "conf/../../work/conf//c.toml"
    (load system (some "/conf")).1 = .error (.notFound "/conf") ∧
      (∃ detail, (load system (some "conf/.")).1 = .error (.unreadable "conf/." detail)) ∧
      (∃ detail, (load system none).1 = .error (.unreadable filename detail)) ∧
      (load system (some path)).1 = .ok ⟨⟨false, true⟩⟩ ∧
      (load system (some path)).2 = [.loaded path false true] ∧
      load system (some path) = load (holding .empty) (some path) := by
  intro text entries holding system path
  obtain ⟨hgiven, -, -, hdefault, hlogged, -, hcongr⟩ := load_decides system
  have hdirectory : system.Leads "conf/." (.directory entries) := resolve?_eq_some_iff.1 rfl
  have hbytes : system.Leads filename (.file ⟨#[255]⟩) := resolve?_eq_some_iff.1 rfl
  -- the byte 255 starts no character
  have hinvalid : ¬(ByteArray.mk #[255]).IsValidUTF8 := by decide +kernel
  have hholds : system.Holds path text := by
    subst text path
    exact resolve?_eq_some_iff.1 rfl
  have hother : (holding .empty).Holds path text := by
    subst text path
    exact resolve?_eq_some_iff.1 rfl
  have hparse : (parse path text).toOption = some ⟨⟨false, true⟩⟩ := by decide +kernel
  have hload : (load system (some path)).1 = .ok ⟨⟨false, true⟩⟩ := by
    obtain ⟨hequal, hresult⟩ := (hgiven path).2.2.2 text hholds
    rw [hequal]
    rcases hresult with ⟨config, hok⟩ | ⟨detail, herror⟩
    · rw [hok] at hparse ⊢
      exact congrArg Except.ok (Option.some.inj hparse)
    · rw [herror] at hparse
      cases hparse
  refine ⟨(hgiven "/conf").1.2 (resolve?_eq_none_iff.1 rfl), (hgiven "conf/.").2.1.2 (.inl ⟨_, hdirectory⟩),
    ?_, hload, ?_, hcongr (holding .empty) (some path) fun node => ?_⟩
  · rw [hdefault fun hmissing => hmissing _ hbytes]
    exact (hgiven filename).2.1.2 (.inr ⟨_, hbytes, hinvalid⟩)
  · obtain ⟨event, hevent, -, hwhich⟩ := hlogged (some path) _ _ (Prod.ext hload rfl)
    rcases hwhich with ⟨hnone, -⟩ | ⟨-, rfl, -⟩
    · cases hnone
    · exact hevent
  · constructor
    · intro h
      rwa [h.unique hholds]
    · intro h
      rwa [h.unique hother]

end Config

end KeywordRules
