import Refinery.Session.Event

/-!
The vocabulary of written events, as a grammar: which value an event of each name carries. The check
of a JSON value answers whether it belongs to the vocabulary, whatever shapes its name and its value
have, with one exception: a name that is a list or an object cannot be looked up among the names,
and the check fails on it.
-/

namespace Refinery.Notice

open Text

/-- Events that carry a text. -/
def textNames : List Text := words ["stage", "substage", "chunk", "error"]

/-- Events that carry nothing. -/
def signalNames : List Text := words ["stream_active", "stream_idle", "retry_clear"]

/-- The value that an event of a name carries. A name that is none of the vocabulary has none. -/
inductive Carried : Text → Json → Prop
  | text {name : Text} (h : name ∈ textNames) (t : Text) : Carried name (.str t)
  | progress {fields : List (Text × Json)} {current total : Int}
      (current_eq : (Json.obj fields).field? "current".toList = some (.int current))
      (total_eq : (Json.obj fields).field? "total".toList = some (.int total))
      (nonneg : 0 ≤ current) (le : current ≤ total) :
      Carried "chunk_progress".toList (.obj fields)
  | done {fields : List (Text × Json)} {code : Text} {parsed same : Bool}
      (code_eq : (Json.obj fields).field? "optimized_code".toList = some (.str code))
      (parsed_eq : (Json.obj fields).field? "_parsed".toList = some (.bool parsed))
      (same_eq : (Json.obj fields).field? "_no_change".toList = some (.bool same)) :
      Carried "done".toList (.obj fields)
  | signal {name : Text} (h : name ∈ signalNames) : Carried name .null

/-- An object with a name of the vocabulary and the value that the name carries; a value that is
absent counts as null. -/
def InVocabulary (data : Json) : Prop :=
  ∃ fields name, data = .obj fields ∧ data.field? "type".toList = some (.str name) ∧
    Carried name ((data.field? "value".toList).getD .null)

/-- An object whose name is a list or an object. -/
def HasCompoundName (data : Json) : Prop :=
  (∃ items, data.field? "type".toList = some (.arr items)) ∨
    ∃ fields, data.field? "type".toList = some (.obj fields)

theorem exists_of_field? {key : Text} {v w : Json} (h : v.field? key = some w) :
    ∃ fields, v = .obj fields := by
  cases v with
  | obj fields => exact ⟨fields, rfl⟩
  | _ => cases h

theorem isText_eq_true_iff {v : Option Json} : isText v = true ↔ ∃ t, v = some (.str t) := by
  constructor
  · intro h
    unfold isText at h
    split at h
    · exact ⟨_, rfl⟩
    · cases h
  · rintro ⟨t, rfl⟩
    rfl

theorem isBool_eq_true_iff {v : Option Json} : isBool v = true ↔ ∃ b, v = some (.bool b) := by
  constructor
  · intro h
    unfold isBool at h
    split at h
    · exact ⟨_, rfl⟩
    · cases h
  · rintro ⟨b, rfl⟩
    rfl

theorem isNull_eq_true_iff {v : Json} : isNull v = true ↔ v = .null := by
  constructor
  · intro h
    cases v with
    | null => rfl
    | _ => cases h
  · rintro rfl
    rfl

theorem count?_eq_some_iff {v : Option Json} {i : Int} :
    count? v = some i ↔ v = some (.int i) ∧ 0 ≤ i := by
  constructor
  · intro h
    unfold count? at h
    split at h
    · split at h
      · next h₀ =>
          obtain rfl := Option.some.inj h
          exact ⟨rfl, h₀⟩
      · cases h
    · cases h
  · rintro ⟨rfl, h₀⟩
    exact if_pos h₀

theorem carried_of_carries {name : Text} {value : Json} (h : carries name value = true) :
    Carried name value := by
  simp only [carries, Bool.or_eq_true, beq_iff_eq] at h
  split at h
  · next hname =>
      obtain ⟨t, ht⟩ := isText_eq_true_iff.1 h
      obtain rfl := Option.some.inj ht
      exact .text (by simpa [textNames, words, or_assoc] using hname) t
  · split at h
    · next hname =>
        split at h
        · next current total hcurrent htotal =>
            rw [count?_eq_some_iff] at hcurrent htotal
            obtain ⟨fields, rfl⟩ := exists_of_field? hcurrent.1
            exact hname ▸ .progress hcurrent.1 htotal.1 hcurrent.2 (of_decide_eq_true h)
        · cases h
    · split at h
      · next hname =>
          simp only [Bool.and_eq_true, isText_eq_true_iff, isBool_eq_true_iff] at h
          obtain ⟨⟨⟨code, hcode⟩, parsed, hparsed⟩, same, hsame⟩ := h
          obtain ⟨fields, rfl⟩ := exists_of_field? hcode
          exact hname ▸ .done hcode hparsed hsame
      · split at h
        · next hname =>
            obtain rfl := isNull_eq_true_iff.1 h
            exact .signal (by simpa [signalNames, words, or_assoc] using hname)
        · cases h

theorem carries_of_carried {name : Text} {value : Json} (h : Carried name value) :
    carries name value = true := by
  cases h with
  | text hname t =>
      have hall : ∀ n ∈ textNames, carries n (.str t) = true := by
        intro n hn
        simp only [textNames, words, List.map_cons, List.map_nil, List.mem_cons,
          List.not_mem_nil, or_false] at hn
        rcases hn with rfl | rfl | rfl | rfl <;> rfl
      exact hall name hname
  | progress hcurrent htotal h₀ hle =>
      have hcount := count?_eq_some_iff.2 ⟨hcurrent, h₀⟩
      have hcount' := count?_eq_some_iff.2 ⟨htotal, Int.le_trans h₀ hle⟩
      simp only [carries, hcount, hcount']
      simpa using hle
  | done hcode hparsed hsame =>
      simp only [carries, hcode, hparsed, hsame]
      rfl
  | signal hname =>
      have hall : ∀ n ∈ signalNames, carries n .null = true := by decide
      exact hall name hname

/-- The check of a value accepts exactly what the name carries. -/
theorem carries_iff {name : Text} {value : Json} : carries name value = true ↔ Carried name value :=
  ⟨carried_of_carries, carries_of_carried⟩

theorem isValid_of_name {data : Json} {name : Text}
    (h : data.field? "type".toList = some (.str name)) :
    isValid data = .ok (carries name ((data.field? "value".toList).getD .null)) := by
  obtain ⟨fields, rfl⟩ := exists_of_field? h
  simp only [isValid, h]

theorem isValid_of_hasCompoundName {data : Json} (h : HasCompoundName data) :
    isValid data = .error .compound := by
  rcases h with ⟨items, h⟩ | ⟨entries, h⟩
  · obtain ⟨fields, rfl⟩ := exists_of_field? h
    simp only [isValid, h]
  · obtain ⟨fields, rfl⟩ := exists_of_field? h
    simp only [isValid, h]

/-- Without a name that is a text or cannot be looked up a value is none of the vocabulary. -/
theorem isValid_of_no_name {data : Json}
    (h : ∀ name, data.field? "type".toList ≠ some (.str name))
    (hcompound : ¬ HasCompoundName data) : isValid data = .ok false := by
  unfold isValid
  split
  · split
    · next name hname => exact absurd hname (h name)
    · next items hitems => exact absurd (.inl ⟨items, hitems⟩) hcompound
    · next entries hentries => exact absurd (.inr ⟨entries, hentries⟩) hcompound
    · rfl
  · rfl

theorem inVocabulary_iff_of_name {data : Json} {name : Text}
    (h : data.field? "type".toList = some (.str name)) :
    InVocabulary data ↔ Carried name ((data.field? "value".toList).getD .null) := by
  constructor
  · rintro ⟨fields, name', rfl, hname', hcarried⟩
    obtain rfl : name' = name := Json.str.inj (Option.some.inj (hname'.symm.trans h))
    exact hcarried
  · intro hcarried
    obtain ⟨fields, rfl⟩ := exists_of_field? h
    exact ⟨fields, name, rfl, h, hcarried⟩

/-- **The check of a value knows the vocabulary.** It answers, and answers whether the value is an
object with a name of the vocabulary and the value that the name carries, exactly if the value is no
object whose name is a list or an object; on such a name it fails. -/
theorem isValid_answers_iff (data : Json) :
    ((∃ b, isValid data = .ok b ∧ (b = true ↔ InVocabulary data)) ↔ ¬ HasCompoundName data) ∧
    (isValid data = .error .compound ↔ HasCompoundName data) := by
  by_cases hcompound : HasCompoundName data
  · have hfails := isValid_of_hasCompoundName hcompound
    refine ⟨iff_of_false ?_ fun h => h hcompound, iff_of_true hfails hcompound⟩
    rintro ⟨b, hb, -⟩
    rw [hfails] at hb
    cases hb
  · have hanswers : ∃ b, isValid data = .ok b ∧ (b = true ↔ InVocabulary data) := by
      by_cases hname : ∃ name, data.field? "type".toList = some (.str name)
      · obtain ⟨name, hname⟩ := hname
        exact ⟨_, isValid_of_name hname, carries_iff.trans (inVocabulary_iff_of_name hname).symm⟩
      · have hnone : ¬ InVocabulary data := fun ⟨_, name, _, h, _⟩ => hname ⟨name, h⟩
        exact ⟨false, isValid_of_no_name (fun name h => hname ⟨name, h⟩) hcompound,
          iff_of_false Bool.false_ne_true hnone⟩
    refine ⟨iff_of_true hanswers hcompound, iff_of_false ?_ hcompound⟩
    obtain ⟨b, hb, -⟩ := hanswers
    rw [hb]
    exact nofun

/-- A list for a name is not looked up. -/
theorem list_for_name_fails :
    let data : Json := .mkObj [("type", .arr [])]
    isValid data = .error .compound ∧
      ¬ ∃ b, isValid data = .ok b ∧ (b = true ↔ InVocabulary data) := by
  refine ⟨rfl, ?_⟩
  rintro ⟨b, hb, -⟩
  cases hb

end Refinery.Notice
