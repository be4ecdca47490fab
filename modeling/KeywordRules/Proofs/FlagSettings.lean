import KeywordRules.Options.Basic
import KeywordRules.Proofs.WellFormed
import Mathlib.Data.List.Pairwise
import Mathlib.Data.List.Perm.Basic

/-!
# Flags set by pairs

Taking pairs one after another, seen from the outside: they can be taken exactly if no flag is named twice
and each that is named is free and gets a boolean, and then they set what they say (`Settings.SetBy`,
`Settings.foldlM_take_eq_ok_iff`). The order of the pairs has no part in it (`Settings.SetBy.perm`).
-/

namespace KeywordRules

namespace Flag

theorem ofKey?_eq_some_iff {key : String} {flag : Flag} :
    ofKey? key = some flag ↔ key = flag.key ∨ key = flag.olderKey := by
  constructor
  · intro h
    rw [ofKey?] at h
    have hnames := List.find?_some h
    simp only [Bool.or_eq_true, beq_iff_eq] at hnames
    exact hnames.imp Eq.symm Eq.symm
  · rintro (rfl | rfl) <;> cases flag <;> decide

/-- No flag is named by both of two pairs. -/
def Apart {α : Type} (pair pair' : String × α) : Prop :=
  ∀ flag, ofKey? pair.1 = some flag → ofKey? pair'.1 ≠ some flag

theorem apart_of_ofKey?_eq_none {α : Type} {pair : String × α} (h : ofKey? pair.1 = none)
    (pair' : String × α) : Apart pair pair' :=
  fun _ hflag => absurd (h.symm.trans hflag) nofun

theorem Apart.symm {α : Type} {pair pair' : String × α} (h : Apart pair pair') : Apart pair' pair :=
  fun flag hflag' hflag => h flag hflag hflag'

instance {α : Type} : Std.Symm (@Apart α) :=
  ⟨fun _ _ => Apart.symm⟩

end Flag

namespace Settings

/-- Settings are determined by the setting of each flag. -/
theorem ext_get? {settings settings' : Settings}
    (h : ∀ flag, settings.get? flag = settings'.get? flag) : settings = settings' := by
  have hnotNull : settings.notNull = settings'.notNull := h .notNull
  have hnullability : settings.nullability = settings'.nullability := h .nullability
  obtain ⟨notNull, nullability⟩ := settings
  simp only at hnotNull hnullability
  rw [hnotNull, hnullability]

theorem get?_blank (flag : Flag) : blank.get? flag = none := by
  cases flag <;> rfl

theorem notNull_toOptions_iff {settings : Settings} :
    settings.toOptions.notNull = true ↔ settings.get? .notNull = some true := by
  cases h : settings.notNull <;> simp [toOptions, get?, h]

theorem nullability_toOptions_iff {settings : Settings} :
    settings.toOptions.nullability = true ↔ settings.get? .nullability = some true := by
  cases h : settings.nullability <;> simp [toOptions, get?, h]

/-! ## Taking one pair -/

/-- A pair that names no flag is passed over. -/
theorem take_of_ofKey?_eq_none {ε : Type} {repeated : Flag → ε} {key : String} {value : Except ε Bool}
    (h : Flag.ofKey? key = none) (settings : Settings) :
    settings.take repeated key value (.ok ()) = .ok settings := by
  rw [take, h]
  rfl

/-- A pair that names a flag is taken exactly if the flag is free and the value is a boolean. -/
theorem take_eq_ok_iff {ε : Type} {repeated : Flag → ε} {key : String} {value : Except ε Bool}
    {other : Except ε Unit} {flag : Flag} (h : Flag.ofKey? key = some flag)
    (settings settings' : Settings) :
    settings.take repeated key value other = .ok settings' ↔
      settings.get? flag = none ∧ ∃ on, value = .ok on ∧ settings.set on flag = settings' := by
  rw [take, h]
  simp only [← Except.map_eq_ok_iff]
  cases settings.get? flag <;> simp

/-! ## What pairs set -/

variable {α : Type} {bool? : α → Option Bool}

/-- New settings are the old ones with what pairs say; `bool?` gives the boolean that a value is, if it is
one. -/
structure SetBy (bool? : α → Option Bool) (pairs : List (String × α)) (old new : Settings) : Prop where
  /-- No flag is named twice. -/
  apart : pairs.Pairwise Flag.Apart
  /-- A flag that is named was free, and its value is a boolean. -/
  reads : ∀ pair ∈ pairs, ∀ flag, Flag.ofKey? pair.1 = some flag →
    old.get? flag = none ∧ ∃ on, bool? pair.2 = some on
  /-- A flag is as it was, or as the pair has it that names it. -/
  get?_eq_some_iff : ∀ flag on, new.get? flag = some on ↔ old.get? flag = some on ∨
    ∃ pair ∈ pairs, Flag.ofKey? pair.1 = some flag ∧ bool? pair.2 = some on

theorem setBy_nil_iff {old new : Settings} : SetBy bool? [] old new ↔ old = new := by
  constructor
  · intro h
    refine ext_get? fun flag => Option.ext fun on => ?_
    simpa using (h.get?_eq_some_iff flag on).symm
  · rintro rfl
    exact ⟨.nil, nofun, fun flag on => by simp⟩

theorem setBy_cons_iff_of_none {pair : String × α} {pairs : List (String × α)} {old new : Settings}
    (h : Flag.ofKey? pair.1 = none) :
    SetBy bool? (pair :: pairs) old new ↔ SetBy bool? pairs old new := by
  constructor
  · rintro ⟨hapart, hreads, hget⟩
    refine ⟨hapart.of_cons, fun p hp => hreads p (List.mem_cons_of_mem pair hp), fun flag on => ?_⟩
    simpa [h] using hget flag on
  · rintro ⟨hapart, hreads, hget⟩
    refine ⟨.cons (fun p _ => Flag.apart_of_ofKey?_eq_none h p) hapart,
      List.forall_mem_cons.2 ⟨fun flag hflag => absurd (h.symm.trans hflag) nofun, hreads⟩,
      fun flag on => ?_⟩
    simpa [h] using hget flag on

/-- What is set once a flag is set from a pair, or by further pairs, is set by the pair or by these. -/
theorem get?_set_or_iff {pair : String × α} {pairs : List (String × α)} {old : Settings} {flag : Flag}
    {on : Bool} (h : Flag.ofKey? pair.1 = some flag) (hfree : old.get? flag = none)
    (hon : bool? pair.2 = some on) (other : Flag) (on' : Bool) :
    ((old.set on flag).get? other = some on' ∨
        ∃ p ∈ pairs, Flag.ofKey? p.1 = some other ∧ bool? p.2 = some on') ↔
      old.get? other = some on' ∨
        ∃ p ∈ pair :: pairs, Flag.ofKey? p.1 = some other ∧ bool? p.2 = some on' := by
  rw [get?_set]
  simp only [List.mem_cons, exists_eq_or_imp, h, Option.some.injEq, hon]
  by_cases he : flag = other
  · subst he
    simp [hfree]
  · simp [he]

/-- A pair that names a flag sets it before the other pairs do. -/
theorem setBy_cons_iff_of_some {pair : String × α} {pairs : List (String × α)} {old new : Settings}
    {flag : Flag} (h : Flag.ofKey? pair.1 = some flag) :
    SetBy bool? (pair :: pairs) old new ↔
      old.get? flag = none ∧ ∃ on, bool? pair.2 = some on ∧ SetBy bool? pairs (old.set on flag) new := by
  constructor
  · rintro ⟨hapart, hreads, hget⟩
    obtain ⟨hfirst, hapart⟩ := List.pairwise_cons.1 hapart
    obtain ⟨hread, hreads⟩ := List.forall_mem_cons.1 hreads
    obtain ⟨hfree, on, hon⟩ := hread flag h
    refine ⟨hfree, on, hon, hapart, fun p hp other hother => ?_, fun other on' => ?_⟩
    · -- another pair names another flag
      have hne : flag ≠ other := fun he => hfirst p hp flag h (he ▸ hother)
      rw [get?_set, if_neg hne]
      exact hreads p hp other hother
    · rw [hget other on', get?_set_or_iff h hfree hon]
  · rintro ⟨hfree, on, hon, hapart, hreads, hget⟩
    -- a later pair about the flag would find it set
    have hfirst : ∀ p ∈ pairs, Flag.Apart pair p := by
      intro p hp other hother hp'
      obtain rfl : flag = other := Option.some.inj (h.symm.trans hother)
      have hset := (hreads p hp flag hp').1
      rw [get?_set, if_pos rfl] at hset
      cases hset
    refine ⟨.cons hfirst hapart, List.forall_mem_cons.2 ⟨?_, fun p hp other hother => ?_⟩, ?_⟩
    · intro other hother
      obtain rfl : flag = other := Option.some.inj (h.symm.trans hother)
      exact ⟨hfree, on, hon⟩
    · obtain ⟨hset, hread⟩ := hreads p hp other hother
      have hne : flag ≠ other := fun he => hfirst p hp flag h (he ▸ hother)
      rw [get?_set, if_neg hne] at hset
      exact ⟨hset, hread⟩
    · intro other on'
      rw [hget other on', get?_set_or_iff h hfree hon]

/-- Nothing but a flag that is named twice, or set already, or to no boolean, keeps pairs from being
taken. -/
theorem exists_setBy_iff {pairs : List (String × α)} {old : Settings} :
    (∃ new, SetBy bool? pairs old new) ↔
      pairs.Pairwise Flag.Apart ∧ ∀ pair ∈ pairs, ∀ flag, Flag.ofKey? pair.1 = some flag →
        old.get? flag = none ∧ ∃ on, bool? pair.2 = some on := by
  refine ⟨fun ⟨_, h⟩ => ⟨h.apart, h.reads⟩, ?_⟩
  rintro ⟨hapart, hreads⟩
  induction pairs generalizing old with
  | nil => exact ⟨old, setBy_nil_iff.2 rfl⟩
  | cons pair pairs ih =>
    obtain ⟨hfirst, hapart⟩ := List.pairwise_cons.1 hapart
    obtain ⟨hread, hreads⟩ := List.forall_mem_cons.1 hreads
    cases hflag : Flag.ofKey? pair.1 with
    | none =>
      obtain ⟨new, hnew⟩ := ih hapart hreads
      exact ⟨new, (setBy_cons_iff_of_none hflag).2 hnew⟩
    | some flag =>
      obtain ⟨hfree, on, hon⟩ := hread flag hflag
      -- the other pairs name other flags, which are as free as before
      have hrest : ∀ p ∈ pairs, ∀ other, Flag.ofKey? p.1 = some other →
          (old.set on flag).get? other = none ∧ ∃ on, bool? p.2 = some on := by
        intro p hp other hother
        have hne : flag ≠ other := fun he => hfirst p hp flag hflag (he ▸ hother)
        rw [get?_set, if_neg hne]
        exact hreads p hp other hother
      obtain ⟨new, hnew⟩ := ih hapart hrest
      exact ⟨new, (setBy_cons_iff_of_some hflag).2 ⟨hfree, on, hon, hnew⟩⟩

/-- The order of the pairs has no part in it. -/
theorem SetBy.perm {pairs pairs' : List (String × α)} {old new : Settings} (hperm : pairs.Perm pairs')
    (h : SetBy bool? pairs old new) : SetBy bool? pairs' old new where
  apart := hperm.pairwise h.apart fun hapart => hapart.symm
  reads pair hpair := h.reads pair (hperm.mem_iff.2 hpair)
  get?_eq_some_iff flag on := by
    rw [h.get?_eq_some_iff flag on]
    simp only [hperm.mem_iff]

/-! ## Taking pairs -/

/-- Pairs are taken one after another exactly if they are apart and set flags to booleans, and then they
set what they say. -/
theorem foldlM_take_eq_ok_iff {ε : Type} {repeated : Flag → ε} {read : α → Except ε Bool}
    (hread : ∀ value on, read value = .ok on ↔ bool? value = some on) {pairs : List (String × α)}
    {old new : Settings} :
    pairs.foldlM (fun settings pair => settings.take repeated pair.1 (read pair.2) (.ok ())) old =
      .ok new ↔ SetBy bool? pairs old new := by
  induction pairs generalizing old with
  | nil =>
    rw [setBy_nil_iff, List.foldlM_nil]
    exact ⟨Except.ok.inj, congrArg Except.ok⟩
  | cons pair pairs ih =>
    rw [List.foldlM_cons, Except.bind_eq_ok_iff]
    -- the fold and what the pairs set follow the same two laws
    cases hflag : Flag.ofKey? pair.1 with
    | none =>
      rw [setBy_cons_iff_of_none hflag]
      simp [take_of_ofKey?_eq_none hflag, ih]
    | some flag =>
      rw [setBy_cons_iff_of_some hflag]
      simp only [take_eq_ok_iff hflag, ih, hread]
      constructor
      · rintro ⟨_, ⟨hfree, on, hon, rfl⟩, hrest⟩
        exact ⟨hfree, on, hon, hrest⟩
      · rintro ⟨hfree, on, hon, hrest⟩
        exact ⟨_, ⟨hfree, on, hon, rfl⟩, hrest⟩

end Settings

end KeywordRules
