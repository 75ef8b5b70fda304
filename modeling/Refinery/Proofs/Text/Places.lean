import Mathlib.Data.List.Infix
import Mathlib.Data.Set.Card
import Refinery.Proofs.Text.Scan

/-!
Places of a text. A place is the text in front of it. The answers of a recogniser are as many as the
places at which it answers, so counting answers is counting places, and a search succeeds where
there is such a place.
-/

namespace Refinery.Text

variable {α : Type}

/-- The places in a text that stands behind `front` at which a recogniser answers. The end of the
text is none of them. -/
def placesOf (r : Recogniser α) (front t : Text) : Set Text :=
  {v | ∃ w, v ++ w = t ∧ w ≠ [] ∧ (r (front ++ v).getLast? w).isSome = true}

variable {r : Recogniser α}

theorem placesOf_nil (front : Text) : placesOf r front [] = ∅ := by
  rw [Set.eq_empty_iff_forall_notMem]
  rintro v ⟨w, hw, hne, -⟩
  exact hne (List.append_eq_nil_iff.1 hw).2

theorem nil_mem_placesOf_cons {front t : Text} {c : Char} :
    [] ∈ placesOf r front (c :: t) ↔ (r front.getLast? (c :: t)).isSome = true := by
  constructor
  · rintro ⟨w, rfl, -, hanswer⟩
    rwa [List.append_nil] at hanswer
  · intro hanswer
    exact ⟨c :: t, rfl, List.cons_ne_nil c t, by rwa [List.append_nil]⟩

theorem cons_mem_placesOf_cons {front t v : Text} {c d : Char} :
    d :: v ∈ placesOf r front (c :: t) ↔ d = c ∧ v ∈ placesOf r (front ++ [c]) t := by
  constructor
  · rintro ⟨w, hw, hne, hanswer⟩
    obtain ⟨rfl, rfl⟩ := List.cons.inj hw
    refine ⟨rfl, w, rfl, hne, ?_⟩
    rwa [← List.append_cons]
  · rintro ⟨rfl, w, rfl, hne, hanswer⟩
    refine ⟨w, rfl, hne, ?_⟩
    rwa [List.append_cons]

theorem finite_placesOf (front t : Text) : (placesOf r front t).Finite := by
  refine (List.finite_toSet t.inits).subset ?_
  rintro v ⟨w, rfl, -, -⟩
  exact (List.mem_inits v (v ++ w)).2 (List.prefix_append v w)

/-- **A recogniser has as many answers in a text as there are places at which it answers.** -/
theorem length_everyFrom (front t : Text) :
    (everyFrom r front.getLast? t).length = (placesOf r front t).ncard := by
  induction t generalizing front with
  | nil => rw [placesOf_nil, Set.ncard_empty, everyFrom, List.length_nil]
  | cons c t ih =>
      -- The places behind the first character are those of the rest.
      have hlater : ((c :: ·) '' placesOf r (front ++ [c]) t).ncard =
          (everyFrom r (some c) t).length := by
        rw [Set.ncard_image_of_injective _ (List.cons_injective), ← ih, List.getLast?_concat]
      have hcons : ∀ d v, d :: v ∈ placesOf r front (c :: t) ↔
          d :: v ∈ (c :: ·) '' placesOf r (front ++ [c]) t := by
        intro d v
        simp [cons_mem_placesOf_cons, and_comm, eq_comm]
      rw [everyFrom]
      cases hhere : r front.getLast? (c :: t) with
      | none =>
          have hplaces : placesOf r front (c :: t) = (c :: ·) '' placesOf r (front ++ [c]) t := by
            ext v
            cases v with
            | nil => simp [nil_mem_placesOf_cons, hhere]
            | cons d v => exact hcons d v
          rw [hplaces, hlater]
      | some a =>
          have hplaces : placesOf r front (c :: t) =
              insert [] ((c :: ·) '' placesOf r (front ++ [c]) t) := by
            ext v
            cases v with
            | nil => simp [nil_mem_placesOf_cons, hhere]
            | cons d v => rw [hcons, Set.mem_insert_iff, or_iff_right (List.cons_ne_nil d v)]
          rw [hplaces, Set.ncard_insert_of_notMem (by simp)
            ((finite_placesOf (front ++ [c]) t).image _), hlater, List.length_cons]

/-- A search succeeds where the recogniser answers somewhere. -/
theorem occurs_iff (hnil : ∀ before, r before [] = none) (t : Text) :
    occurs r t = true ↔ (placesOf r [] t).Nonempty := by
  have hsome : occurs r t = ((findFrom r none t).map (·.2)).isSome := by
    rw [occurs, find, Option.isSome_map]
  have hlength : (everyFrom r none t).length = (placesOf r [] t).ncard := length_everyFrom [] t
  rw [hsome, map_findFrom hnil, List.isSome_head?, ← Set.ncard_pos (finite_placesOf [] t),
    ← hlength, List.length_pos_iff]

theorem exists_of_mem_everyFrom {before : Option Char} {t : Text} {a : α}
    (h : a ∈ everyFrom r before t) : ∃ b u, r b u = some a := by
  induction t generalizing before with
  | nil => cases h
  | cons c t ih =>
      rw [everyFrom] at h
      cases hhere : r before (c :: t) with
      | none => exact ih (by simpa only [hhere] using h)
      | some d =>
          simp only [hhere] at h
          rcases List.mem_cons.1 h with rfl | h
          · exact ⟨before, c :: t, hhere⟩
          · exact ih h

theorem exists_of_mem_pieces {r : Recogniser (α × Nat)} {before : Option Char} {skip : Nat}
    {t : Text} {a : α} (h : a ∈ pieces r before skip t) : ∃ b u n, r b u = some (a, n) := by
  induction t generalizing before skip with
  | nil => cases h
  | cons c t ih =>
      cases skip with
      | succ k => exact ih h
      | zero =>
          rw [pieces] at h
          cases hhere : r before (c :: t) with
          | none => exact ih (by simpa only [hhere] using h)
          | some pair =>
              simp only [hhere] at h
              rcases List.mem_cons.1 h with rfl | h
              · exact ⟨before, c :: t, pair.2, hhere⟩
              · exact ih h

end Refinery.Text
