import KeywordRules.Proofs.Denotation
import KeywordRules.Proofs.Edits
import KeywordRules.Proofs.Positional

/-!
# Annotations without repetition

Attaching never repeats an annotation, but reading keeps the repetitions of a text. A member that was
made without annotations never carries one twice, whatever is done to it; a member that was read from a
text carries one twice, now and after any changes, exactly if the text lists it twice
(`nodup_annotations_of_origin`). That no field holds an annotation twice is therefore not true of the
fields that come from texts (`parse_repeated_annotation`).
-/

namespace KeywordRules

open KeywordRules.Json

/-! ## Changes -/

/-- A change of one member: an edit, or another comment in the place of its own. -/
inductive Change where
  | edit (edit : Edit)
  | replaceJavadoc (javadoc : Javadoc)

namespace Change

/-- The member after a change. -/
def run : Change → Member → Member
  | .edit e, m => e.run m
  | .replaceJavadoc javadoc, m => { m with javadoc := javadoc }

/-- The member after a list of changes, made in its order. -/
def runAll (changes : List Change) (m : Member) : Member :=
  changes.foldl (fun m change => change.run m) m

/-- A change neither adds a repetition nor removes one. -/
theorem nodup_annotations_run_iff (change : Change) (m : Member) :
    (change.run m).annotations.Nodup ↔ m.annotations.Nodup := by
  cases change with
  | replaceJavadoc javadoc => rw [run, Member.annotations, Member.annotations]
  | edit e =>
    rw [run, Edit.annotations_run]
    split
    · -- what is fresh is not held, and stands there once
      rw [List.nodup_append]
      refine ⟨And.left, fun hm => ⟨hm, nodup_fresh _ _, fun a ha b hb hab => ?_⟩⟩
      exact (mem_fresh.1 hb).2 (hab ▸ ha)
    · rw [List.append_nil]

theorem nodup_annotations_runAll_iff (changes : List Change) (m : Member) :
    (runAll changes m).annotations.Nodup ↔ m.annotations.Nodup := by
  induction changes generalizing m with
  | nil => exact Iff.rfl
  | cons change changes ih => exact (ih (change.run m)).trans (nodup_annotations_run_iff change m)

end Change

/-! ## What a text lists -/

/-- A document spells at most one annotation. -/
theorem Annotation.Spells.unique {d : Document} {a b : Annotation} (ha : Spells d a)
    (hb : Spells d b) : a = b := by
  have hd : d.HasValue := by
    cases ha <;> exact ⟨2, rfl⟩
  have hread := (ofDocument_eq_ok_iff hd).2 ha
  rw [(ofDocument_eq_ok_iff hd).2 hb] at hread
  exact (Except.ok.inj hread).symm

/-- What is read item by item has no repetition exactly if no two items read as the same. -/
theorem nodup_iff_of_forall₂ {α β : Type} {R : α → β → Prop}
    (hunique : ∀ a b b', R a b → R a b' → b = b') {as : List α} {bs : List β}
    (h : List.Forall₂ R as bs) : bs.Nodup ↔ as.Pairwise fun a a' => ∀ b, R a b → ¬ R a' b := by
  induction h with
  | nil => simp
  | @cons a b as bs hab hrest ih =>
    rw [List.nodup_cons, List.pairwise_cons, ih]
    refine and_congr_left fun _ => ⟨fun hnotMem a' ha' c hac ha'c => ?_, fun hapart hmem => ?_⟩
    · obtain rfl := hunique a b c hab hac
      have hflip : List.Forall₂ (flip R) bs as := List.Forall₂.flip hrest
      obtain ⟨b', hb', ha'b'⟩ := exists_rel_of_mem_right hflip ha'
      exact hnotMem (hunique a' b b' ha'c ha'b' ▸ hb')
    · obtain ⟨a', ha', ha'b⟩ := exists_rel_of_mem_right hrest hmem
      exact hapart a' ha' b hab ha'b

namespace Member

variable {kind : Kind} {pairs : List (String × Document)} {m : Member}

/-- The pairs that give a member of a kind list no annotation twice: where a field has a list of
annotations, no two of its items spell the same one. -/
def ListsOnce (kind : Kind) (pairs : List (String × Document)) : Prop :=
  kind = .field → ∀ items, valuesOf "annotations" pairs = [.list items] →
    items.Pairwise fun d d' => ∀ a, Annotation.Spells d a → ¬ Annotation.Spells d' a

/-- A member that was read carries no annotation twice exactly if none was listed twice. -/
theorem HasParts.nodup_annotations_iff (h : HasParts pairs m) :
    m.annotations.Nodup ↔ ListsOnce m.role.kind pairs := by
  rw [ListsOnce]
  by_cases hfield : m.isField = true
  · have hkind : m.role.kind = .field := by
      rw [isField_eq] at hfield
      exact of_decide_eq_true hfield
    rw [imp_iff_right hkind]
    obtain ⟨hvalues, hnone⟩ | ⟨items, hvalues, hspells⟩ := h.annotations hfield
    · simp [hvalues, hnone]
    · have hunique : ∀ d a b, Annotation.Spells d a → Annotation.Spells d b → a = b :=
        fun _ _ _ => Annotation.Spells.unique
      rw [nodup_iff_of_forall₂ hunique hspells]
      simp [hvalues, Document.list]
  · have hkind : m.role.kind ≠ .field := by
      rw [isField_eq, decide_eq_true_eq] at hfield
      exact hfield
    simp [annotations_of_not_isField (Bool.eq_false_iff.2 hfield), hkind]

/-- **A member carries an annotation twice exactly if a text has listed it twice.** A member that was
made without annotations carries none twice after any changes. A member that was read from a text has
its parts from the pairs that the text gives, in the one form or the other, and after any changes it
carries no annotation twice exactly if these list none twice. -/
theorem nodup_annotations_of_origin (changes : List Change) :
    (∀ (name typeName : String) (javadoc : Javadoc),
      (Change.runAll changes { ofClass name with javadoc }).annotations.Nodup ∧
      (Change.runAll changes { ofMethod name with javadoc }).annotations.Nodup ∧
      (Change.runAll changes { ofField name typeName with javadoc }).annotations.Nodup) ∧
    ∀ (text : String) (m : Member), parse text = .ok m →
      ∃ pairs, IsGivenBy m.role.kind (Document.read text).document pairs ∧ HasParts pairs m ∧
        ((Change.runAll changes m).annotations.Nodup ↔ ListsOnce m.role.kind pairs) := by
  simp only [Change.nodup_annotations_runAll_iff]
  refine ⟨fun name typeName javadoc => ?_, fun text m h => ?_⟩
  · exact ⟨List.nodup_nil, List.nodup_nil, List.nodup_nil⟩
  · obtain ⟨pairs, hpairs, hparts⟩ := exists_hasParts_of_parse h
    exact ⟨pairs, hpairs, hparts, hparts.nodup_annotations_iff⟩

/-- A field in the positional form whose two annotations are spelled differently. -/
theorem nodup_annotations_of_origin_positional :
    let text := "[\"field\", \"id\", \"Long\", [], [\"NotNull\", \x7b\"Nonnull\": null\x7d]]"
    let m : Member := ⟨"id", .empty, .field "Long" [.notNull, .nonnull]⟩
    parse text = .ok m ∧ ∀ changes : List Change, (Change.runAll changes m).annotations.Nodup := by
  intro text m
  have hparse : parse text = .ok m := by decide +kernel
  refine ⟨hparse, fun changes => ?_⟩
  obtain ⟨pairs, -, hparts, hnodup⟩ := (nodup_annotations_of_origin changes).2 text m hparse
  exact hnodup.2 (hparts.nodup_annotations_iff.1 (by decide))

/-- A text that lists an annotation twice is read as a field that carries it twice, and no change mends
that. -/
theorem parse_repeated_annotation :
    let text := "\x7b\"kind\":\"field\",\"name\":\"id\",\"type_name\":\"Long\"," ++
      "\"annotations\":[\"NotNull\",\"NotNull\"]\x7d"
    let m : Member := ⟨"id", .empty, .field "Long" [.notNull, .notNull]⟩
    parse text = .ok m ∧ ∀ changes : List Change, ¬ (Change.runAll changes m).annotations.Nodup := by
  intro text m
  refine ⟨by decide +kernel, fun changes hnodup => ?_⟩
  rw [Change.nodup_annotations_runAll_iff] at hnodup
  revert hnodup
  decide

end Member

end KeywordRules
