import Refinery.Proofs.Answer.Loss
import Refinery.Proofs.Text.Scan

/-!
Names on a line. Of each kind a text is found to have the names that lead its lines, that is the
first one that a line declares, and blanks around a line do not matter. So a revision that has lost
a name is noticed exactly where the name leads a line of the text; a name that stands behind another
of its kind on every line that declares it is overlooked.
-/

namespace Refinery.Declared

open Text

theorem not_identifier_of_isBlank (c : Char) (h : isBlank c = true) :
    (nameStart c || c == '$') = false ∧ (namePart c || c == '$') = false :=
  ⟨not_of_isBlank (p := fun c => nameStart c || c == '$') (by decide +kernel) c h,
    not_of_isBlank (p := fun c => namePart c || c == '$') (by decide +kernel) c h⟩

theorem leavesRest_identifier : LeavesRest identifier? :=
  leavesRest_name (fun c h => (not_identifier_of_isBlank c h).1)
    fun c h => (not_identifier_of_isBlank c h).2

theorem leavesRest_plainName : LeavesRest plainName? :=
  leavesRest_name (fun c h => (Bool.or_eq_false_iff.1 (not_identifier_of_isBlank c h).1).1)
    fun c h => (Bool.or_eq_false_iff.1 (not_identifier_of_isBlank c h).2).1

/-- Words of which none is empty and none has a blank in it. -/
def Unbroken (fronts : List String) : Prop :=
  ∀ front ∈ fronts, front.toList ≠ [] ∧ front.toList.any isBlank = false

instance (fronts : List String) : Decidable (Unbroken fronts) :=
  inferInstanceAs (Decidable (∀ front ∈ fronts, _ ∧ _))

theorem bind_some_orElse {α β : Type} (x y : Option α) (b : β) :
    ((x <|> y).bind fun _ => some b) = ((x.bind fun _ => some b) <|> y.bind fun _ => some b) := by
  cases x <;> rfl

section Unbroken

variable {fronts : List String} (h : Unbroken fronts)

include h

theorem leaves_afterOneOf : Leaves (afterOneOf? fronts) := by
  intro t b hb
  rw [afterOneOf?, afterOneOf?]
  induction fronts with
  | nil => rfl
  | cons front fronts ih =>
      have hfront : after? front.toList (t ++ b) = (after? front.toList t).map (· ++ b) :=
        leaves_after (h front List.mem_cons_self).2 t b hb
      rw [List.findSome?_cons, List.findSome?_cons, hfront,
        ih fun f hf => h f (List.mem_cons_of_mem front hf)]
      cases after? front.toList t <;> rfl

theorem afterOneOf?_cons_of_isBlank {c : Char} (t : Text) (hc : isBlank c = true) :
    afterOneOf? fronts (c :: t) = none := by
  rw [afterOneOf?, List.findSome?_eq_none_iff]
  intro front hfront
  exact after?_cons_of_isBlank (h front hfront).1 (h front hfront).2 t hc

/-- A word, blanks and an identifier. -/
theorem solid_announced : Solid (announced fronts) := by
  refine ⟨fun _ _ => rfl, fun c t hc => ?_, ?_⟩
  · simp only [announced, afterOneOf?_cons_of_isBlank h t hc, Option.bind_eq_bind, Option.bind_none]
  · refine (leaves_afterOneOf h).steady_bind (Firm.someBlanks ⟨?_, rfl⟩).steady
    exact leavesRest_identifier.steady_bind fun name => steady_const (some name)

end Unbroken

theorem solid_definedName : Solid definedName := by
  have hword : "def".toList.any isBlank = false := by decide
  refine ⟨fun _ _ => rfl, fun c t hc => ?_, ?_⟩
  · rw [definedName, after?_cons_of_isBlank (by decide) hword t hc]
    rfl
  · refine (leaves_after hword).steady_bind (Firm.someBlanks ⟨?_, rfl⟩).steady
    refine leavesRest_plainName.steady_bind fun name => ?_
    exact ((leaves_char (by decide)).steady_bind (steady_const (some name))).trimLeft

/-- An identifier, the equals sign, and the word or an arrow behind parentheses. -/
theorem solid_assignedName : Solid assignedName := by
  have hword : "function".toList.any isBlank = false := by decide
  have harrow : "=>".toList.any isBlank = false := by decide
  refine ⟨fun _ _ => rfl, fun c t hc => ?_, ?_⟩
  · have hname : identifier? (c :: t) = none := by
      simp [identifier?, name?, (not_identifier_of_isBlank c hc).1]
    rw [assignedName, hname]
    rfl
  · refine leavesRest_identifier.steady_bind fun name => ?_
    have hfunction : Steady fun t => (after? "function".toList t).bind fun _ => some name :=
      (leaves_after hword).steady_bind (steady_const _)
    have harrows : Steady fun t => (after? "=>".toList t).bind fun _ => some name :=
      (leaves_after harrow).steady_bind (steady_const _)
    have hparentheses : Steady fun t => (char? '(' t).bind fun t => (upTo? ')' t).bind fun closed =>
        (after? "=>".toList (trimLeft closed.2)).bind fun _ => some name :=
      (leaves_char rfl).steady_bind
        ((leavesRest_upTo rfl).steady_bind fun _ => harrows.trimLeft)
    have hvalue : Steady fun t => (after? "function".toList t <|>
        (char? '(' t).bind fun t => (upTo? ')' t).bind fun closed =>
          after? "=>".toList (trimLeft closed.2)).bind fun _ => some name := by
      have hboth := hfunction.orElse hparentheses
      simpa only [bind_some_orElse, Option.bind_assoc] using hboth
    exact ((leaves_char (c := '=') rfl).steady_bind hvalue.trimLeft).trimLeft

theorem firm_typedName : Firm typedName? := by
  refine ⟨?_, rfl⟩
  have hrest : Firm fun t => (someBlanks? t).bind fun t => (plainName? t).bind fun named =>
      (char? '(' (trimLeft named.2)).bind fun _ => some named.1 := by
    refine Firm.someBlanks ⟨?_, rfl⟩
    refine leavesRest_plainName.steady_bind fun name => ?_
    exact ((leaves_char (by decide)).steady_bind (steady_const (some name))).trimLeft
  intro t b hb
  have hspan := span_append_blank (not_of_isBlank (p := isTypeChar) (by decide +kernel)) hb t
  rw [typedName?, typedName?, hspan]
  cases ht : t.span isTypeChar with
  | mk type rest =>
      cases type with
      | nil => rfl
      | cons c type => exact hrest.steady rest b hb

theorem unbroken_modifiers : Unbroken modifiers := by decide

theorem methodName_succ (n : Nat) (t : Text) :
    methodName (n + 1) t = (afterOneOf? modifiers t).bind fun t =>
      (someBlanks? t).bind fun t => methodName n t <|> typedName? t :=
  Option.bind_assoc _ _ _

theorem firm_methodName (n : Nat) : Firm (methodName n) := by
  induction n with
  | zero => exact ⟨steady_const none, rfl⟩
  | succ n ih =>
      refine ⟨?_, rfl⟩
      have hrest := (Firm.someBlanks (ih.orElse firm_typedName)).steady
      intro t b hb
      rw [methodName_succ, methodName_succ]
      exact (leaves_afterOneOf unbroken_modifiers).steady_bind hrest t b hb

/-- What is read is taken away. -/
theorem length_afterOneOf?_le {fronts : List String} {t u : Text}
    (h : afterOneOf? fronts t = some u) : u.length ≤ t.length := by
  obtain ⟨front, -, hfront⟩ := List.exists_of_findSome?_eq_some h
  rw [after?_eq_some_iff.1 hfront, List.length_append]
  omega

theorem length_someBlanks?_lt {t u : Text} (h : someBlanks? t = some u) : u.length < t.length := by
  cases t with
  | nil => cases h
  | cons c t =>
      rw [someBlanks?] at h
      split at h
      · rw [← Option.some.inj h, trimLeft, List.length_cons]
        exact Nat.lt_succ_of_le (List.dropWhile_suffix _).length_le
      · cases h

/-- Each modifier takes a part of the text away, so that more rounds than characters change
nothing. -/
theorem methodName_of_length_le {n m : Nat} {t : Text} (hn : t.length ≤ n) (hm : t.length ≤ m) :
    methodName n t = methodName m t := by
  have hzero : ∀ k, methodName k ([] : Text) = none := fun k => (firm_methodName k).nil
  induction n generalizing m t with
  | zero => rw [List.length_eq_zero_iff.1 (Nat.le_zero.1 hn), hzero, hzero]
  | succ n ih =>
      cases m with
      | zero => rw [List.length_eq_zero_iff.1 (Nat.le_zero.1 hm), hzero, hzero]
      | succ m =>
          rw [methodName_succ, methodName_succ]
          refine Option.bind_congr fun u hu => Option.bind_congr fun v hv => ?_
          have hu' := length_afterOneOf?_le hu
          have hv' := length_someBlanks?_lt hv
          rw [ih (by omega) (by omega : v.length ≤ m)]

theorem solid_functionName : Solid functionName := by
  have hword : Unbroken ["function"] := by decide
  have hmethod : Steady fun t => methodName t.length t := by
    intro t b hb
    have hlength : t.length ≤ (t ++ b).length := by
      rw [List.length_append]
      omega
    simp only
    rw [(firm_methodName _).steady t b hb, methodName_of_length_le hlength (Nat.le_refl _)]
  refine ⟨fun _ _ => rfl, fun c t hc => ?_, ?_⟩
  · have hnone : methodName (c :: t).length (c :: t) = none := by
      rw [List.length_cons, methodName_succ, afterOneOf?_cons_of_isBlank unbroken_modifiers t hc,
        Option.bind_none]
    rw [functionName, (solid_announced hword).begins c t hc, solid_definedName.begins c t hc,
      solid_assignedName.begins c t hc, hnone]
    rfl
  · exact (solid_announced hword).steady.orElse
      (solid_definedName.steady.orElse (solid_assignedName.steady.orElse hmethod))

namespace Kind

/-- The names that a line declares, at all places from left to right. -/
def declaredOn (k : Kind) (line : Text) : List Text := everyFrom k.recogniser none line

/-- The first name of the kind that a line declares. -/
def Leads (k : Kind) (name line : Text) : Prop := (k.declaredOn line).head? = some name

instance (k : Kind) (name line : Text) : Decidable (k.Leads name line) :=
  inferInstanceAs (Decidable (_ = _))

variable {k : Kind} {name : Text}

theorem solid (k : Kind) : Solid k.recogniser := by
  cases k with
  | vars => exact solid_announced (by decide)
  | functions => exact solid_functionName
  | classes => exact solid_announced (by decide)

theorem Leads.mem {line : Text} (h : k.Leads name line) : name ∈ k.declaredOn line :=
  List.mem_of_mem_head? h

/-- A text has the names that lead its lines. -/
theorem mem_names_ofText {t : Text} :
    name ∈ k.names (ofText t) ↔ ∃ line ∈ lines t, k.Leads name line := by
  rw [mem_names_trimmed]
  constructor
  · rintro ⟨_, hmem, hfind⟩
    obtain ⟨line, hline, rfl⟩ := List.mem_map.1 hmem
    exact ⟨line, hline, (k.solid.findValue_trim line).symm.trans hfind⟩
  · rintro ⟨line, hline, hleads⟩
    exact ⟨trim line, List.mem_map_of_mem hline, (k.solid.findValue_trim line).trans hleads⟩

/-- What is found to be lost leads a line of the text and none of the revision. -/
theorem mem_names_lost {before after : Text} :
    name ∈ k.names (lost before after) ↔
      k.spares name = false ∧ (∃ line ∈ lines before, k.Leads name line) ∧
        ∀ line ∈ lines after, ¬ k.Leads name line := by
  have hafter : name ∉ k.names (ofText after) ↔ ∀ line ∈ lines after, ¬ k.Leads name line := by
    rw [mem_names_ofText]
    simp only [not_exists, not_and]
  rw [lost, mem_names_missing, mem_names_ofText, hafter]
  constructor
  · rintro ⟨hleads, hnone, hspares⟩
    exact ⟨hspares, hleads, hnone⟩
  · rintro ⟨hspares, hleads, hnone⟩
    exact ⟨hleads, hnone, hspares⟩

end Kind

/-- **A name of a kind that a revision declares nowhere is found to be lost exactly where it leads a
line of the text**, trivial variables aside. One that stands behind others of its kind on all of
its lines is overlooked. -/
theorem lost_iff_leads (k : Kind) {before after name : Text}
    (hafter : ∀ line ∈ lines after, name ∉ k.declaredOn line) :
    name ∈ k.names (lost before after) ↔
      k.spares name = false ∧ ∃ line ∈ lines before, k.Leads name line := by
  have hnone : ∀ line ∈ lines after, ¬ k.Leads name line := by
    intro line hline hleads
    exact hafter line hline hleads.mem
  rw [Kind.mem_names_lost]
  constructor
  · rintro ⟨hspares, hleads, -⟩
    exact ⟨hspares, hleads⟩
  · rintro ⟨hspares, hleads⟩
    exact ⟨hspares, hleads, hnone⟩

/-- A class, a variable and a function share a line, and each of them leads it. -/
theorem lost_of_shared_line :
    let before : Text := "  class Cache {} const size = 3; function load(key) {}  ".toList
    let after : Text := "class Cache {}".toList
    (∀ line ∈ lines after, "load".toList ∉ Kind.functions.declaredOn line) ∧
      (∀ line ∈ lines after, "size".toList ∉ Kind.vars.declaredOn line) ∧
      "load".toList ∈ (lost before after).functions ∧ "size".toList ∈ (lost before after).vars := by
  intro before after
  have hload : ∀ line ∈ lines after, "load".toList ∉ Kind.functions.declaredOn line := by decide
  have hsize : ∀ line ∈ lines after, "size".toList ∉ Kind.vars.declaredOn line := by decide
  exact ⟨hload, hsize, (lost_iff_leads .functions hload).2 (by decide),
    (lost_iff_leads .vars hsize).2 (by decide)⟩

/-- Of two functions on one line the second is dropped without notice. -/
theorem second_function_overlooked :
    let before : Text := "function add(a, b) {} function multiply(a, b) {}".toList
    let after : Text := "function add(a, b) {}".toList
    (∃ line ∈ lines before, "multiply".toList ∈ Kind.functions.declaredOn line) ∧
      (∀ line ∈ lines after, "multiply".toList ∉ Kind.functions.declaredOn line) ∧
      Kind.functions.spares "multiply".toList = false ∧
      "multiply".toList ∉ Kind.functions.names (lost before after) := by
  decide

end Refinery.Declared
