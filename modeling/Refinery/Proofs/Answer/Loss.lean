import Mathlib.Data.List.Forall2
import Refinery.Answer.Declared
import Refinery.Proofs.Answer.Filled

/-!
Loss of names. A text declares what its filled lines declare, one by one. A revision that has all
the filled lines of a text loses no name of it, and texts that lose none lose none when they are
joined.
-/

namespace Refinery.Declared

open Text Similarity

/-- A revision has every name of a text, trivial variables aside. -/
def Keeps (before after : Text) : Prop := (lost before after).isEmpty = true

instance (before after : Text) : Decidable (Keeps before after) :=
  inferInstanceAs (Decidable ((lost before after).isEmpty = true))

/-- What a blank line does not have, a text has on a filled line. -/
theorem exists_trimmed_iff {P : Text → Prop} (hP : ¬ P []) (t : Text) :
    (∃ l ∈ (lines t).map trim, P l) ↔ ∃ l ∈ filledLines t, P l := by
  constructor
  · rintro ⟨l, hl, h⟩
    have hne : l ≠ [] := fun e => hP (e ▸ h)
    exact ⟨l, List.mem_filter.2 ⟨hl, by simpa using hne⟩, h⟩
  · rintro ⟨l, hl, h⟩
    exact ⟨l, (List.mem_filter.1 hl).1, h⟩

/-- The kinds of names that are declared at any place of a line. -/
inductive Kind where
  | vars
  | functions
  | classes

namespace Kind

/-- What recognises a declaration at a place. -/
def recogniser : Kind → Recogniser Text
  | vars => variableName
  | functions => functionName
  | classes => className

/-- The names of the kind among all names. -/
def names : Kind → Declared → List Text
  | vars, d => d.vars
  | functions, d => d.functions
  | classes, d => d.classes

/-- Whether a revision may drop the name. -/
def spares : Kind → Text → Bool
  | vars, name => isTrivial name
  | _, _ => false

variable {k : Kind} {name : Text}

theorem mem_names_trimmed {t : Text} :
    name ∈ k.names (ofText t) ↔
      ∃ l ∈ (lines t).map trim, findValue k.recogniser l = some name := by
  have hnames : k.names (ofText t) =
      (((lines t).map trim).filterMap (findValue k.recogniser)).eraseDups := by
    cases k <;> rfl
  rw [hnames, List.mem_eraseDups, List.mem_filterMap]

theorem mem_names_iff {t : Text} :
    name ∈ k.names (ofText t) ↔ ∃ l ∈ filledLines t, findValue k.recogniser l = some name := by
  have hnone : findValue k.recogniser [] = none := by
    cases k <;> rfl
  rw [mem_names_trimmed]
  refine exists_trimmed_iff (P := fun l => findValue k.recogniser l = some name) ?_ t
  rw [hnone]
  exact (Option.some_ne_none name).symm

theorem mem_names_missing {d e : Declared} :
    name ∈ k.names (missing d e) ↔
      name ∈ k.names d ∧ name ∉ k.names e ∧ k.spares name = false := by
  cases k <;> simp [names, missing, spares]

end Kind

theorem mem_imports_iff {v t : Text} :
    v ∈ (ofText t).imports ↔ ∃ l ∈ filledLines t, v ∈ importsOf l := by
  rw [ofText, List.mem_eraseDups, List.mem_flatMap]
  exact exists_trimmed_iff (P := fun l => v ∈ importsOf l) List.not_mem_nil t

theorem mem_imports_missing {v : Text} {d e : Declared} :
    v ∈ (missing d e).imports ↔ v ∈ d.imports ∧ v ∉ e.imports := by
  simp [missing]

theorem isEmpty_iff (d : Declared) :
    d.isEmpty = true ↔ (∀ k : Kind, k.names d = []) ∧ d.imports = [] := by
  rw [isEmpty, Bool.and_eq_true, Bool.and_eq_true, Bool.and_eq_true]
  simp only [List.isEmpty_iff]
  constructor
  · rintro ⟨⟨⟨hvars, hfunctions⟩, hclasses⟩, himports⟩
    refine ⟨fun k => ?_, himports⟩
    cases k with
    | vars => exact hvars
    | functions => exact hfunctions
    | classes => exact hclasses
  · rintro ⟨hnames, himports⟩
    exact ⟨⟨⟨hnames .vars, hnames .functions⟩, hnames .classes⟩, himports⟩

/-- Nothing is lost when every name is found again. -/
theorem keeps_iff {before after : Text} :
    Keeps before after ↔
      (∀ (k : Kind), ∀ name ∈ k.names (ofText before),
        name ∈ k.names (ofText after) ∨ k.spares name = true) ∧
      ∀ name ∈ (ofText before).imports, name ∈ (ofText after).imports := by
  rw [Keeps, lost, isEmpty_iff]
  simp only [List.eq_nil_iff_forall_not_mem, Kind.mem_names_missing, mem_imports_missing, not_and,
    not_not, Bool.not_eq_false, or_iff_not_imp_left]

/-- A revision with all the filled lines of a text loses no name of it. -/
theorem keeps_of_filledLines_subset {before after : Text}
    (h : filledLines before ⊆ filledLines after) : Keeps before after := by
  refine keeps_iff.2 ⟨fun k name hname => Or.inl ?_, fun name hname => ?_⟩
  · obtain ⟨l, hl, hf⟩ := Kind.mem_names_iff.1 hname
    exact Kind.mem_names_iff.2 ⟨l, h hl, hf⟩
  · obtain ⟨l, hl, hf⟩ := mem_imports_iff.1 hname
    exact mem_imports_iff.2 ⟨l, h hl, hf⟩

theorem Keeps.refl (t : Text) : Keeps t t := keeps_of_filledLines_subset fun _ h => h

/-- Names survive in every text that has the filled lines of the revision. -/
theorem Keeps.mono {before after later : Text} (h : Keeps before after)
    (hs : filledLines after ⊆ filledLines later) : Keeps before later := by
  obtain ⟨hnames, himports⟩ := keeps_iff.1 h
  obtain ⟨hnames', himports'⟩ := keeps_iff.1 (keeps_of_filledLines_subset hs)
  refine keeps_iff.2 ⟨fun k name hname => ?_, fun name hname => ?_⟩
  · rcases hnames k name hname with hafter | hspared
    · exact hnames' k name hafter
    · exact Or.inr hspared
  · exact himports' name (himports name hname)

private theorem exists_filledLines_unlines_iff {P : Text → Prop} (ts : List Text) :
    (∃ l ∈ filledLines (unlines ts), P l) ↔ ∃ t ∈ ts, ∃ l ∈ filledLines t, P l := by
  rw [filledLines_unlines]
  constructor
  · rintro ⟨l, hl, h⟩
    obtain ⟨t, ht, hlt⟩ := List.mem_flatMap.1 hl
    exact ⟨t, ht, l, hlt, h⟩
  · rintro ⟨t, ht, l, hl, h⟩
    exact ⟨l, List.mem_flatMap.2 ⟨t, ht, hl⟩, h⟩

/-- Joined texts declare what the texts declare. -/
theorem Kind.mem_names_unlines {k : Kind} {name : Text} {ts : List Text} :
    name ∈ k.names (ofText (unlines ts)) ↔ ∃ t ∈ ts, name ∈ k.names (ofText t) := by
  simp only [mem_names_iff, exists_filledLines_unlines_iff]

theorem mem_imports_unlines {v : Text} {ts : List Text} :
    v ∈ (ofText (unlines ts)).imports ↔ ∃ t ∈ ts, v ∈ (ofText t).imports := by
  simp only [mem_imports_iff, exists_filledLines_unlines_iff]

private theorem exists_right {R : Text → Text → Prop} {ts us : List Text}
    (h : List.Forall₂ R ts us) {t : Text} (ht : t ∈ ts) : ∃ u ∈ us, R t u := by
  induction h with
  | nil => exact absurd ht List.not_mem_nil
  | cons hr _ ih =>
      rcases List.mem_cons.1 ht with rfl | ht
      · exact ⟨_, List.mem_cons_self, hr⟩
      · obtain ⟨u, hu, hr⟩ := ih ht
        exact ⟨u, List.mem_cons_of_mem _ hu, hr⟩

/-- **Pieces that lose no name lose none when they are joined.** -/
theorem keeps_unlines {before after : List Text} (h : List.Forall₂ Keeps before after) :
    Keeps (unlines before) (unlines after) := by
  refine keeps_iff.2 ⟨fun k name hname => ?_, fun name hname => ?_⟩
  · obtain ⟨t, ht, hname⟩ := Kind.mem_names_unlines.1 hname
    obtain ⟨u, hu, hkeeps⟩ := exists_right h ht
    rcases (keeps_iff.1 hkeeps).1 k name hname with hafter | hspared
    · exact Or.inl (Kind.mem_names_unlines.2 ⟨u, hu, hafter⟩)
    · exact Or.inr hspared
  · obtain ⟨t, ht, hname⟩ := mem_imports_unlines.1 hname
    obtain ⟨u, hu, hkeeps⟩ := exists_right h ht
    exact mem_imports_unlines.2 ⟨u, hu, (keeps_iff.1 hkeeps).2 name hname⟩

end Refinery.Declared
