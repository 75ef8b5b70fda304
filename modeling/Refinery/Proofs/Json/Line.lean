import Mathlib.Data.Nat.Digits.Defs
import Refinery.Json.Printer
import Refinery.Proofs.Text.Lines

/-!
A printed value stands on one line: the newlines of its strings are escaped, and nothing else that
is written has one. So texts of printed values, each with a newline behind it, are cut at the
newlines into the values again.
-/

namespace Refinery

theorem Text.newline_not_mem_ofNat (n : Nat) : '\n' ∉ Text.ofNat n := by
  intro h
  have hmem : '\n' ∈ Nat.toDigits 10 n := by
    simpa [Text.ofNat, Nat.toString_eq_repr, Nat.repr] using h
  exact absurd (Nat.isDigit_of_mem_toDigits (by decide) (Nat.le_refl 10) hmem) (by decide)

theorem Text.newline_not_mem_ofInt (i : Int) : '\n' ∉ Text.ofInt i := by
  cases i with
  | ofNat n => exact newline_not_mem_ofNat n
  | negSucc n =>
      have hsign : Text.ofInt (Int.negSucc n) = '-' :: Text.ofNat (n + 1) := by
        simp [Text.ofInt, Text.ofNat, Int.toString_eq_repr, Int.repr]
      rw [hsign, List.mem_cons, not_or]
      exact ⟨by decide, newline_not_mem_ofNat _⟩

theorem Text.newline_not_mem_join {sep : Text} (hsep : '\n' ∉ sep) :
    ∀ {ts : List Text}, (∀ t ∈ ts, '\n' ∉ t) → '\n' ∉ join sep ts
  | [], _ => List.not_mem_nil
  | [t], h => h t List.mem_cons_self
  | t :: u :: ts, h => by
    have hrest := newline_not_mem_join hsep fun v hv => h v (List.mem_cons_of_mem t hv)
    simp only [join, List.mem_append, not_or]
    exact ⟨⟨h t List.mem_cons_self, hsep⟩, hrest⟩

namespace Number.Decimal

/-- A decimal comes from a grid. -/
theorem exists_shortest (x : Rat) : ∃ n place, shortest x = ofGrid n place := by
  have hgrid : ∀ {count : Nat} {d : Decimal}, onGrid? count x = some d →
      ∃ n place, d = ofGrid n place := by
    intro count d h
    simp only [onGrid?] at h
    split at h
    · exact ⟨_, _, (Option.some.inj h).symm⟩
    · exact ⟨_, _, (Option.some.inj h).symm⟩
    · exact ⟨_, _, (Option.some.inj h).symm⟩
    · cases h
  unfold shortest
  cases hfound : (List.range 17).findSome? fun n => onGrid? (n + 1) x with
  | none => exact ⟨_, _, rfl⟩
  | some d =>
      obtain ⟨n, -, hd⟩ := List.exists_of_findSome?_eq_some hfound
      exact hgrid hd

theorem newline_not_mem_strip (n : Nat) (place : Int) :
    '\n' ∉ (ofGrid n place).strip.digits := by
  unfold strip
  split
  · exact fun h => absurd (List.mem_singleton.1 h) (by decide)
  · intro h
    have hmem : '\n' ∈ (ofGrid n place).digits :=
      List.mem_reverse.1 ((List.dropWhile_suffix _).subset (List.mem_reverse.1 h))
    exact Text.newline_not_mem_ofNat n hmem

variable {d : Decimal}

theorem newline_not_mem_positional (hd : '\n' ∉ d.digits) {whole : Text} (hwhole : '\n' ∉ whole) :
    '\n' ∉ d.positional whole := by
  have htake : ∀ k, '\n' ∉ d.digits.take k := fun k h => hd (List.mem_of_mem_take h)
  have hdrop : ∀ k, '\n' ∉ d.digits.drop k := fun k h => hd (List.mem_of_mem_drop h)
  simp only [positional]
  split
  · simp [List.mem_replicate, hd]
  · split <;> simp [List.mem_replicate, hd, hwhole, htake, hdrop]

theorem newline_not_mem_scientific (hd : '\n' ∉ d.digits) : '\n' ∉ d.scientific := by
  have htake : '\n' ∉ d.digits.take 1 := fun h => hd (List.mem_of_mem_take h)
  have hdrop : '\n' ∉ d.digits.drop 1 := fun h => hd (List.mem_of_mem_drop h)
  have hsize := Text.newline_not_mem_ofNat d.magnitude.natAbs
  simp only [scientific]
  split <;> split <;> split <;> simp_all

end Number.Decimal

theorem Real64.newline_not_mem_signed {x : Rat} {write : Rat → Text}
    (h : ∀ y, '\n' ∉ write y) : '\n' ∉ signed x write := by
  unfold signed
  split
  · rw [List.mem_cons, not_or]
    exact ⟨by decide, h _⟩
  · exact h x

theorem Real64.newline_not_mem_toText (r : Real64) : '\n' ∉ r.toText := by
  cases r with
  | finite x =>
      unfold toText
      refine newline_not_mem_signed fun y => ?_
      obtain ⟨n, place, hgrid⟩ := Number.Decimal.exists_shortest y
      have hdigits := Number.Decimal.newline_not_mem_strip n place
      simp only [hgrid]
      split
      · decide
      · split
        · exact Number.Decimal.newline_not_mem_positional hdigits (by decide)
        · exact Number.Decimal.newline_not_mem_scientific hdigits
  | negZero => decide
  | infinite negative => cases negative <;> decide
  | notANumber => decide

namespace Json
open Printer

theorem newline_not_mem_hex4 (n : Nat) : '\n' ∉ hex4 n := by
  have hdigit : ∀ m < 16, hexChar m ≠ '\n' := by decide
  have hne : ∀ k, '\n' ≠ hexChar (k % 16) := fun k => (hdigit _ (Nat.mod_lt _ (by decide))).symm
  simp [hex4, hne]

theorem newline_not_mem_unitEscape (n : Nat) : '\n' ∉ unitEscape n := by
  simp [unitEscape, newline_not_mem_hex4]

theorem newline_not_mem_charText (c : Char) : '\n' ∉ charText c := by
  by_cases hc : c = '\n'
  · rw [hc]
    decide
  · simp only [charText]
    repeat' split
    all_goals simp [newline_not_mem_unitEscape, Ne.symm hc]

theorem newline_not_mem_quoted (s : Text) : '\n' ∉ quoted s := by
  simp [quoted, newline_not_mem_charText]

theorem newline_not_mem_realText (r : Real64) : '\n' ∉ realText r := by
  unfold realText
  split
  · split <;> decide
  · decide
  · exact r.newline_not_mem_toText

theorem newline_not_mem_comma : '\n' ∉ ", ".toList := by decide

mutual

/-- **A printed value stands on one line.** -/
theorem newline_not_mem_print : ∀ v : Json, '\n' ∉ print v
  | .null => by decide
  | .bool b => by cases b <;> decide
  | .int i => Text.newline_not_mem_ofInt i
  | .real r => newline_not_mem_realText r
  | .str s => newline_not_mem_quoted s
  | .arr items => by
    have hitems := Text.newline_not_mem_join newline_not_mem_comma
      (newline_not_mem_printItems items)
    rw [print, List.mem_cons, List.mem_append, List.mem_singleton]
    simp only [hitems]
    decide
  | .obj fields => by
    have hfields := Text.newline_not_mem_join newline_not_mem_comma
      (newline_not_mem_printFields fields)
    rw [print, List.mem_cons, List.mem_append, List.mem_singleton]
    simp only [hfields]
    decide

theorem newline_not_mem_printItems : ∀ vs : List Json, ∀ t ∈ print.printItems vs, '\n' ∉ t
  | [] => by simp [print.printItems]
  | v :: vs => by
    simp only [print.printItems, List.forall_mem_cons]
    exact ⟨newline_not_mem_print v, newline_not_mem_printItems vs⟩

theorem newline_not_mem_printFields :
    ∀ fs : List (Text × Json), ∀ t ∈ print.printFields fs, '\n' ∉ t
  | [] => by simp [print.printFields]
  | (k, v) :: fs => by
    simp only [print.printFields, List.forall_mem_cons]
    refine ⟨?_, newline_not_mem_printFields fs⟩
    simp [newline_not_mem_quoted, newline_not_mem_print v]

end

/-- Printed values with a newline behind each are the lines of the text. -/
theorem lines_flatMap_print {α : Type} (toJson : α → Json) (vs : List α) :
    Text.lines (vs.flatMap fun v => print (toJson v) ++ ['\n']) =
      vs.map (fun v => print (toJson v)) ++ [[]] := by
  induction vs with
  | nil => rfl
  | cons v vs ih =>
      rw [List.flatMap_cons, List.append_assoc, List.singleton_append, Text.lines_append_newline,
        Text.lines_of_newline_not_mem (newline_not_mem_print _), ih]
      rfl

end Json
end Refinery
