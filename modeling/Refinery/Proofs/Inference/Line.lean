import Refinery.Inference.Fragment

/-!
The ways in which the reading of a line can go. A line is meant to carry a text that is not empty,
the mark of the end, or nothing, and to fail with an error that the backend reports. The reader looks
into a payload as if all of its values had the right kinds, so another failure, or a value that is no
text, comes of exactly the payloads in which one of them has not.
-/

namespace Refinery

namespace Json

/-- The value of a key; null where there is none. -/
def get (key : String) (v : Json) : Json := (v.field? key.toList).getD .null

def isObject : Json → Bool
  | obj _ => true
  | _ => false

/-- A text, or a value that does not count as present. -/
def isTextual (v : Json) : Bool := !v.truthy || v.text?.isSome

/-- The place of a choice's text, or that of its delta where it has none, holds a text or nothing. -/
def isTextualChoice (choice : Json) : Bool :=
  choice.isObject &&
    match choice.get "text" with
    | .null =>
      let delta := choice.get "delta"
      !delta.truthy || (delta.isObject && (delta.get "content").isTextual)
    | text => text.isTextual

/-- There are no choices, or the first of them is such a choice. -/
def hasTextualChoice (data : Json) : Bool :=
  match data.get "choices" with
  | .arr (choice :: _) => choice.isTextualChoice
  | choices => !choices.truthy

theorem get_of_not_isObject {v : Json} (h : v.isObject = false) (key : String) :
    v.get key = .null := by
  cases v with
  | obj fields => cases h
  | _ => rfl

theorem isObject_of_truthy_get {v : Json} {key : String} (h : (v.get key).truthy = true) :
    v.isObject = true := by
  cases hobject : v.isObject with
  | true => rfl
  | false =>
      rw [get_of_not_isObject hobject] at h
      cases h

end Json

namespace Inference.Line

open Text

/-- The readings that a line is meant for. -/
inductive Proper : Except Failure Line → Prop
  | reports (message : Text) (cause : Option TransportFault) :
      Proper (.error (.inference message cause))
  | nothing : Proper (.ok .nothing)
  | ends : Proper (.ok .endMark)
  | text {t : Text} (h : t ≠ []) : Proper (.ok (.fragment (.text t)))

instance : (reading : Except Failure Line) → Decidable (Proper reading)
  | .error (.inference message cause) => isTrue (.reports message cause)
  | .error (.pipeline _) | .error (.emptyOutput _) | .error (.cancelled _)
  | .error (.timedOut _) | .error (.other ..) => isFalse nofun
  | .ok .nothing => isTrue .nothing
  | .ok .endMark => isTrue .ends
  | .ok (.fragment (.text []) ) => isFalse fun h => by cases h; contradiction
  | .ok (.fragment (.text (_ :: _))) => isTrue (.text (List.cons_ne_nil _ _))
  | .ok (.fragment (.value _)) => isFalse nofun

/-- What stands on a line behind its lead, without the blanks around it. -/
def payloadText? (line : Text) : Option Text := (after? dataLead (trim line)).map trim

/-- The payload of a line is this value. -/
def Carries (line : Text) (data : Json) : Prop :=
  ∃ text, payloadText? line = some text ∧ Json.read text = .ok data

/-- The payload of a line has an integer in it of more digits than the reader converts. -/
def Overflows (line : Text) : Prop :=
  ∃ text, payloadText? line = some text ∧ Json.read text = .error .hugeInteger

/-- The line that a payload comes to. -/
def ofFragment : Option Fragment → Line
  | none => .nothing
  | some (.text t) => if t == endText then .endMark else .fragment (.text t)
  | some f => .fragment f

theorem read_eq (line : Text) : read line =
    match payloadText? line with
    | none => .ok .nothing
    | some text =>
      if text == endText then .ok .endMark
      else match Json.read text with
        | .error (.malformed _) => .ok .nothing
        | .error .hugeInteger => .error (.other .value
            "Exceeds the limit (4300 digits) for integer string conversion".toList)
        | .ok data => (payload data).map ofFragment := by
  unfold read payloadText?
  cases after? dataLead (trim line) <;> rfl

/-- The mark of the end is no JSON. -/
theorem read_endText : Json.read endText = .error (.malformed 5) := rfl

theorem Carries.read_eq {line : Text} {data : Json} (h : Carries line data) :
    read line = (payload data).map ofFragment := by
  obtain ⟨text, htext, hread⟩ := h
  have hmark : (text == endText) = false := by
    rw [beq_eq_false_iff_ne]
    rintro rfl
    rw [read_endText] at hread
    cases hread
  rw [Line.read_eq, htext]
  simp only [hmark, Bool.false_eq_true, if_false, hread]

theorem lookup_of_isObject {v : Json} (h : v.isObject = true) (key : String) :
    lookup key v = .ok (v.get key) := by
  cases v with
  | obj fields => rfl
  | _ => cases h

theorem exists_lookup_of_not_isObject {v : Json} (h : v.isObject = false) (key : String) :
    ∃ message, lookup key v = .error (.other .attribute message) := by
  cases v with
  | obj fields => cases h
  | _ => exact ⟨_, rfl⟩

/-- What looking for a text comes to: a value, or a failure that no backend reports; `proper` says
whether it is a text or nothing. -/
inductive Found (proper : Bool) : Except Failure Json → Prop
  | value {v : Json} (h : v.isTextual = proper) : Found proper (.ok v)
  | fails (h : proper = false) (kind : FailureKind) (message : Text) :
      Found proper (.error (.other kind message))

theorem found_delta {delta : Json} :
    Found (!delta.truthy || (delta.isObject && (delta.get "content").isTextual))
      (lookup "content" (orEmpty delta)) := by
  unfold orEmpty
  cases htruthy : delta.truthy with
  | false => exact .value rfl
  | true =>
      rw [if_pos rfl]
      cases hobject : delta.isObject with
      | true =>
          rw [lookup_of_isObject hobject]
          exact .value rfl
      | false =>
          obtain ⟨message, hlookup⟩ := exists_lookup_of_not_isObject hobject "content"
          rw [hlookup]
          exact .fails rfl _ _

theorem found_choice (choice : Json) (rest : List Json) :
    Found choice.isTextualChoice (choiceText (.arr (choice :: rest))) := by
  have hfirst : choiceText (.arr (choice :: rest)) = (lookup "text" choice).bind fun
      | .null => (lookup "delta" choice).bind fun delta => lookup "content" (orEmpty delta)
      | text => .ok text := rfl
  rw [hfirst]
  unfold Json.isTextualChoice
  cases hobject : choice.isObject with
  | false =>
      obtain ⟨message, hlookup⟩ := exists_lookup_of_not_isObject hobject "text"
      rw [hlookup]
      exact .fails rfl _ _
  | true =>
      rw [lookup_of_isObject hobject, lookup_of_isObject hobject]
      cases choice.get "text" with
      | null => exact found_delta
      | _ => exact .value rfl

theorem found_choices {data : Json} (h : (data.get "choices").truthy = true) :
    Found data.hasTextualChoice (choiceText (data.get "choices")) := by
  unfold Json.hasTextualChoice
  cases hchoices : data.get "choices" with
  | arr items =>
      cases items with
      | nil =>
          rw [hchoices] at h
          cases h
      | cons choice rest => exact found_choice choice rest
  | str s =>
      cases s with
      | nil =>
          rw [hchoices] at h
          cases h
      | cons c s => exact .fails rfl _ _
  | null =>
      rw [hchoices] at h
      cases h
  | obj fields =>
      rw [hchoices] at h
      exact .fails (by simp only [h, Bool.not_true]) _ _
  | _ =>
      rw [hchoices] at h
      exact .fails (by simp only [h, Bool.not_true]) _ _

theorem hasTextualChoice_of_not_truthy {data : Json}
    (h : (data.get "choices").truthy = false) : data.hasTextualChoice = true := by
  unfold Json.hasTextualChoice
  split
  · next hchoices =>
      rw [hchoices] at h
      cases h
  · rw [h]
    rfl

theorem payload_of_error {data : Json} (h : (data.get "error").truthy = true) :
    ∃ message, payload data = .error (.inference message none) := by
  have hobject := Json.isObject_of_truthy_get h
  unfold Json.isObject at hobject
  split at hobject
  · exact ⟨_, if_pos h⟩
  · cases hobject

theorem payload_of_no_error {data : Json} (h : (data.get "error").truthy = false) :
    payload data = if (data.get "choices").truthy then
      (choiceText (data.get "choices")).map Fragment.ofJson? else .ok none := by
  cases data with
  | obj fields => exact if_neg (by rw [Bool.not_eq_true]; exact h)
  | _ => rfl

theorem ne_nil_of_ofJson {v : Json} {t : Text} (h : Fragment.ofJson? v = some (.text t)) :
    t ≠ [] := by
  unfold Fragment.ofJson? at h
  split at h
  · next htruthy =>
    split at h
    · cases h
      rintro rfl
      cases htruthy
    · cases h
  · cases h

theorem ne_nil_of_payload {data : Json} {t : Text} (h : payload data = .ok (some (.text t))) :
    t ≠ [] := by
  cases herror : (data.get "error").truthy with
  | true =>
      obtain ⟨message, hpayload⟩ := payload_of_error herror
      cases hpayload.symm.trans h
  | false =>
      rw [payload_of_no_error herror] at h
      split at h
      · cases hfound : choiceText (data.get "choices") with
        | error why =>
            rw [hfound] at h
            cases h
        | ok v =>
            rw [hfound] at h
            exact ne_nil_of_ofJson (Except.ok.inj h)
      · cases h

/-- A value that is found makes a proper line exactly if it is a text or nothing. -/
theorem proper_ofFragment_iff (v : Json) :
    Proper (.ok (ofFragment (Fragment.ofJson? v))) ↔ v.isTextual = true := by
  unfold Fragment.ofJson? Json.isTextual
  cases htruthy : v.truthy with
  | false => exact iff_of_true .nothing rfl
  | true =>
      rw [if_pos rfl]
      cases v with
      | str t =>
          refine iff_of_true ?_ rfl
          simp only [ofFragment]
          split
          · exact .ends
          · refine .text fun h => ?_
            rw [h] at htruthy
            cases htruthy
      | _ => exact iff_of_false nofun nofun

/-- Where a payload reports no error, its line is read as something, or the reader fails on its
shape. -/
theorem Carries.read_of_no_error {line : Text} {data : Json} (h : Carries line data)
    (herror : (data.get "error").truthy = false) :
    (∃ l, read line = .ok l ∧ (Proper (.ok l) ↔ data.hasTextualChoice = true)) ∨
      (data.hasTextualChoice = false ∧ ∃ kind message, read line = .error (.other kind message)) := by
  rw [h.read_eq, payload_of_no_error herror]
  cases hchoices : (data.get "choices").truthy with
  | false =>
      exact Or.inl ⟨_, rfl, iff_of_true .nothing (hasTextualChoice_of_not_truthy hchoices)⟩
  | true =>
      rw [if_pos rfl]
      have hfound := found_choices hchoices
      generalize choiceText (data.get "choices") = found at hfound
      cases hfound with
      | value hv => exact Or.inl ⟨_, rfl, hv ▸ proper_ofFragment_iff _⟩
      | fails hshape kind message => exact Or.inr ⟨hshape, kind, message, rfl⟩

theorem Carries.unique {line : Text} {data data' : Json} (h : Carries line data)
    (h' : Carries line data') : data = data' := by
  obtain ⟨text, htext, hread⟩ := h
  obtain ⟨text', htext', hread'⟩ := h'
  obtain rfl : text = text' := Option.some.inj (htext.symm.trans htext')
  exact Except.ok.inj (hread.symm.trans hread')

theorem Carries.not_overflows {line : Text} {data : Json} (h : Carries line data) :
    ¬ Overflows line := by
  rintro ⟨text', htext', hread'⟩
  obtain ⟨text, htext, hread⟩ := h
  obtain rfl : text = text' := Option.some.inj (htext.symm.trans htext')
  rw [hread] at hread'
  cases hread'

/-- A line carries a value, or its payload is too much for the reader, or it is one that nothing is
looked into for. -/
theorem read_cases (line : Text) : (∃ data, Carries line data) ∨
    (Overflows line ∧ ∃ message, read line = .error (.other .value message)) ∨
    (¬ Overflows line ∧ (∀ data, ¬ Carries line data) ∧
      (read line = .ok .nothing ∨ read line = .ok .endMark)) := by
  rw [read_eq]
  cases htext : payloadText? line with
  | none =>
      refine Or.inr (Or.inr ⟨?_, ?_, Or.inl rfl⟩)
      · rintro ⟨text, h, -⟩
        cases htext.symm.trans h
      · rintro data ⟨text, h, -⟩
        cases htext.symm.trans h
  | some text =>
      have hsame : ∀ {text'}, payloadText? line = some text' → text' = text :=
        fun h => Option.some.inj (h.symm.trans htext)
      cases hread : Json.read text with
      | ok data => exact Or.inl ⟨data, text, htext, hread⟩
      | error refusal =>
          have hnone : ∀ data, ¬ Carries line data := by
            rintro data ⟨text', h, hdata⟩
            rw [hsame h, hread] at hdata
            cases hdata
          cases refusal with
          | malformed n =>
              refine Or.inr (Or.inr ⟨?_, hnone, ?_⟩)
              · rintro ⟨text', h, hhuge⟩
                rw [hsame h, hread] at hhuge
                cases hhuge
              · by_cases hmark : (text == endText) = true
                · exact Or.inr (by simp only [hmark, if_true])
                · exact Or.inl (by simp only [hmark, if_false, hread, Bool.false_eq_true])
          | hugeInteger =>
              have hmark : ¬ (text == endText) = true := by
                intro h
                rw [eq_of_beq h, read_endText] at hread
                cases hread
              refine Or.inr (Or.inl ⟨⟨text, htext, hread⟩, ?_⟩)
              simp only [hmark, if_false, hread, Bool.false_eq_true]
              exact ⟨_, rfl⟩

/-- A text that a line carries is not empty. -/
theorem ne_nil_of_read {line t : Text} (h : read line = .ok (.fragment (.text t))) : t ≠ [] := by
  rcases read_cases line with ⟨data, hdata⟩ | ⟨-, message, hread⟩ | ⟨-, -, hread⟩
  · have hmap := hdata.read_eq.symm.trans h
    cases hpayload : payload data with
    | error why =>
        rw [hpayload] at hmap
        cases hmap
    | ok found =>
        rw [hpayload] at hmap
        have hfound : found = some (.text t) := by
          have hline : ofFragment found = .fragment (.text t) := Except.ok.inj hmap
          unfold ofFragment at hline
          split at hline
          · cases hline
          · split at hline
            · cases hline
            · cases hline
              rfl
          · cases hline
            rfl
        exact ne_nil_of_payload (hfound ▸ hpayload)
  · cases hread.symm.trans h
  · rcases hread with hread | hread <;> cases hread.symm.trans h

/-- **When a line is read as it is meant to.** Its reading answers with nothing, the mark of the end
or a text that is not empty, or fails with an error of the backend, exactly if no integer in its
payload is too long for the reader and, where the payload reports no error, the first of its choices
has a text or nothing at the place of the text. An error of the backend is reported exactly for the
payloads with an error that counts as present. -/
theorem proper_read_iff (line : Text) :
    (Proper (read line) ↔ ¬ Overflows line ∧ ∀ data, Carries line data →
      (data.get "error").truthy = false → data.hasTextualChoice = true) ∧
    ((∃ message cause, read line = .error (.inference message cause)) ↔
      ∃ data, Carries line data ∧ (data.get "error").truthy = true) := by
  rcases read_cases line with ⟨data, hdata⟩ | ⟨hlong, message, hread⟩ | ⟨hshort, hnone, hread⟩
  · have hunique : ∀ {data'}, Carries line data' → data' = data := fun h => h.unique hdata
    cases herror : (data.get "error").truthy with
    | true =>
        obtain ⟨message, hpayload⟩ := payload_of_error herror
        have hread : read line = .error (.inference message none) := by
          rw [hdata.read_eq, hpayload]
          rfl
        rw [hread]
        refine ⟨iff_of_true (.reports _ _) ⟨hdata.not_overflows, fun data' h hquiet => ?_⟩,
          iff_of_true ⟨_, _, rfl⟩ ⟨data, hdata, herror⟩⟩
        rw [hunique h, herror] at hquiet
        cases hquiet
    | false =>
        have hquiet : ¬ ∃ data, Carries line data ∧ (data.get "error").truthy = true := by
          rintro ⟨data', h, hloud⟩
          rw [hunique h, herror] at hloud
          cases hloud
        have hshape : (¬ Overflows line ∧ ∀ data, Carries line data →
            (data.get "error").truthy = false → data.hasTextualChoice = true) ↔
              data.hasTextualChoice = true :=
          ⟨fun h => h.2 data hdata herror, fun h => ⟨hdata.not_overflows, fun _ h' _ => hunique h' ▸ h⟩⟩
        rw [hshape]
        rcases hdata.read_of_no_error herror with ⟨l, hread, hproper⟩ | ⟨hbad, kind, message, hread⟩
        · rw [hread]
          exact ⟨hproper, iff_of_false nofun hquiet⟩
        · rw [hread, hbad]
          exact ⟨iff_of_false nofun nofun, iff_of_false nofun hquiet⟩
  · rw [hread]
    refine ⟨iff_of_false nofun fun h => h.1 hlong, iff_of_false ?_ ?_⟩
    · rintro ⟨_, _, h⟩
      cases h
    · rintro ⟨data, h, -⟩
      exact h.not_overflows hlong
  · refine ⟨iff_of_true ?_ ⟨hshort, fun data h => absurd h (hnone data)⟩, iff_of_false ?_ ?_⟩
    · rcases hread with hread | hread
      · exact hread ▸ .nothing
      · exact hread ▸ .ends
    · rintro ⟨_, _, h⟩
      rcases hread with hread | hread <;> cases hread.symm.trans h
    · rintro ⟨data, h, -⟩
      exact hnone data h

/-- A number in place of the first choice makes the reading of a line fail, and one in place of its
text comes out of it. -/
theorem number_for_choice_and_text :
    let first : Text := "data: \x7b\x22choices\x22: [5]\x7d".toList
    let second : Text := "data: \x7b\x22choices\x22: [\x7b\x22text\x22: 5\x7d]\x7d".toList
    (read first).isOk = false ∧ ¬ Proper (read first) ∧
      (read second).isOk = true ∧ ¬ Proper (read second) := by
  intro first second
  exact ⟨by decide +kernel, by decide +kernel, by decide +kernel, by decide +kernel⟩

end Inference.Line
end Refinery
