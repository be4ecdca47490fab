import KeywordRules.Member.Basic

/-!
# Attaching annotations one after another

`Member.attachAll` attaches a list of annotations in its order. A field keeps the annotations it has,
repeated ones included, and gains those of the list that it does not have yet, each once and in the
order of their first occurrences (`annotations_attachAll`). Everything else about the member stays.
-/

namespace KeywordRules

/-- What no step of a fold changes, the fold does not change. -/
theorem foldl_view {α β γ : Type} {step : β → α → β} (view : β → γ)
    (hview : ∀ b a, view (step b a) = view b) (as : List α) (b : β) :
    view (as.foldl step b) = view b := by
  induction as generalizing b with
  | nil => rfl
  | cons a as ih => rw [List.foldl_cons, ih, hview]

/-! ## What a list of calls adds -/

/-- The annotations that are called for but not held, each at its first occurrence. -/
def fresh (held called : List Annotation) : List Annotation :=
  (called.removeAll held).eraseDups

@[simp] theorem fresh_nil (held : List Annotation) : fresh held [] = [] := by
  simp [fresh]

/-- A call for an annotation that is held adds nothing. -/
theorem fresh_cons_of_mem {held : List Annotation} {a : Annotation} (ha : a ∈ held)
    (called : List Annotation) : fresh held (a :: called) = fresh held called := by
  simp [fresh, List.cons_removeAll, ha]

/-- A call for an annotation that is not held adds it, and from then on it is held. -/
theorem fresh_cons_of_notMem {held : List Annotation} {a : Annotation} (ha : a ∉ held)
    (called : List Annotation) :
    fresh held (a :: called) = a :: fresh (held ++ [a]) called := by
  have hrest : called.removeAll (held ++ [a]) = (called.removeAll held).filter fun b => !b == a := by
    rw [List.removeAll, List.removeAll, List.filter_filter]
    refine List.filter_congr fun b _ => ?_
    by_cases hb : b = a <;> simp [hb]
  rw [fresh, List.cons_removeAll, fresh, hrest]
  simp [ha, List.eraseDups_cons]

/-- Two lists of calls one after the other: the second adds to what is held after the first. -/
theorem fresh_append (held first second : List Annotation) :
    fresh held (first ++ second) =
      fresh held first ++ fresh (held ++ fresh held first) second := by
  -- what is held grows with every call that is fresh
  induction first generalizing held with
  | nil => simp
  | cons a first ih =>
    rw [List.cons_append]
    by_cases ha : a ∈ held
    · rw [fresh_cons_of_mem ha, fresh_cons_of_mem ha, ih]
    · rw [fresh_cons_of_notMem ha, fresh_cons_of_notMem ha, ih]
      simp

theorem mem_fresh {held called : List Annotation} {a : Annotation} :
    a ∈ fresh held called ↔ a ∈ called ∧ a ∉ held := by
  simp [fresh, List.removeAll]

/-- No annotation is fresh twice. -/
theorem nodup_fresh (held called : List Annotation) : (fresh held called).Nodup := by
  induction called generalizing held with
  | nil => simp
  | cons a called ih =>
    by_cases ha : a ∈ held
    · rw [fresh_cons_of_mem ha]
      exact ih held
    · rw [fresh_cons_of_notMem ha, List.nodup_cons]
      exact ⟨fun hmem => (mem_fresh.1 hmem).2 (by simp), ih (held ++ [a])⟩

/-- What is fresh is called for, in the order of the calls. -/
theorem fresh_sublist (held called : List Annotation) : (fresh held called).Sublist called := by
  induction called generalizing held with
  | nil => simp
  | cons a called ih =>
    by_cases ha : a ∈ held
    · rw [fresh_cons_of_mem ha]
      exact (ih held).cons a
    · rw [fresh_cons_of_notMem ha]
      exact (ih (held ++ [a])).cons_cons a

namespace Member

/-! ## What attaching and documenting leave alone -/

@[simp] theorem role_document (part : String) (m : Member) : (m.document part).role = m.role := rfl

/-- Attaching changes a member only where a field lacks the annotation. -/
theorem attach_eq (a : Annotation) (m : Member) :
    m.attach a = m ∨
      ∃ typeName as, m.role = .field typeName as ∧ a ∉ as ∧
        m.attach a = { m with role := .field typeName (as ++ [a]) } := by
  obtain ⟨name, javadoc, role⟩ := m
  cases role with
  | classType => exact .inl rfl
  | method => exact .inl rfl
  | field typeName as =>
    by_cases ha : a ∈ as
    · exact .inl (by simp [attach, ha])
    · exact .inr ⟨typeName, as, rfl, ha, by simp [attach, ha]⟩

@[simp] theorem name_attach (a : Annotation) (m : Member) : (m.attach a).name = m.name := by
  obtain h | ⟨_, _, -, -, h⟩ := attach_eq a m <;> rw [h]

@[simp] theorem javadoc_attach (a : Annotation) (m : Member) : (m.attach a).javadoc = m.javadoc := by
  obtain h | ⟨_, _, -, -, h⟩ := attach_eq a m <;> rw [h]

@[simp] theorem kind_attach (a : Annotation) (m : Member) :
    (m.attach a).role.kind = m.role.kind := by
  obtain h | ⟨_, _, hrole, -, h⟩ := attach_eq a m
  · rw [h]
  · rw [h, hrole, Role.kind, Role.kind]

@[simp] theorem typeName?_attach (a : Annotation) (m : Member) :
    (m.attach a).typeName? = m.typeName? := by
  obtain h | ⟨_, _, hrole, -, h⟩ := attach_eq a m
  · rw [h]
  · rw [h, typeName?, typeName?, hrole]

/-- A field is recognised by its kind. -/
theorem isField_eq (m : Member) : m.isField = decide (m.role.kind = .field) := by
  obtain ⟨name, javadoc, role⟩ := m
  cases role <;> rfl

theorem isField_congr {m m' : Member} (h : m.role = m'.role) : m.isField = m'.isField := by
  rw [isField_eq, isField_eq, h]

theorem annotations_congr {m m' : Member} (h : m.role = m'.role) :
    m.annotations = m'.annotations := by
  rw [annotations, annotations, h]

/-- Only fields have annotations. -/
theorem annotations_of_not_isField {m : Member} (hm : m.isField = false) : m.annotations = [] := by
  obtain ⟨name, javadoc, role⟩ := m
  cases role with
  | classType => rfl
  | method => rfl
  | field typeName as => cases hm

/-! ## Attaching a list -/

/-- The member after a list of annotations was attached in its order. -/
def attachAll (as : List Annotation) (m : Member) : Member :=
  as.foldl (fun m a => m.attach a) m

@[simp] theorem attachAll_nil (m : Member) : m.attachAll [] = m := rfl

@[simp] theorem attachAll_cons (a : Annotation) (as : List Annotation) (m : Member) :
    m.attachAll (a :: as) = (m.attach a).attachAll as := rfl

@[simp] theorem javadoc_attachAll (as : List Annotation) (m : Member) :
    (m.attachAll as).javadoc = m.javadoc :=
  foldl_view (fun m => m.javadoc) (fun m a => javadoc_attach a m) as m

/-- A field gains what is fresh of the list, behind what it has; other members gain nothing. -/
theorem annotations_attachAll (as : List Annotation) (m : Member) :
    (m.attachAll as).annotations =
      m.annotations ++ if m.isField = true then fresh m.annotations as else [] := by
  induction as generalizing m with
  | nil => simp
  | cons a as ih =>
    have hfield : (m.attach a).isField = m.isField := by
      rw [isField_eq, isField_eq, kind_attach]
    rw [attachAll_cons, ih, hfield, annotations_attach]
    by_cases hm : m.isField = true
    · by_cases ha : a ∈ m.annotations
      · simp [hm, ha, fresh_cons_of_mem ha]
      · simp [hm, ha, fresh_cons_of_notMem ha]
    · simp [hm]

end Member

end KeywordRules
