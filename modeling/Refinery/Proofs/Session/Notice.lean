import Refinery.Session.Event

/-!
Written events follow their own rules, whatever they carry.
-/

namespace Refinery

theorem Text.toList_beq (a b : String) : (a.toList == b.toList) = (a == b) := by
  rw [Bool.eq_iff_iff, beq_iff_eq, beq_iff_eq, String.toList_inj]

namespace Json

theorem field?_mkObj (key : String) (fields : List (String × Json)) :
    (mkObj fields).field? key.toList = (fields.find? fun f => f.1 == key).map (·.2) := by
  simp only [mkObj, field?, List.find?_map, Option.map_map, Function.comp_def, Text.toList_beq]

end Json

namespace Notice

theorem isValid_toJson (name : String) (value : Json) :
    isValid (toJson ⟨name.toList, value⟩) = .ok (carries name.toList value) := by
  have htype : (toJson ⟨name.toList, value⟩).field? "type".toList = some (.str name.toList) := by
    rw [toJson, Json.field?_mkObj]
    rfl
  have hvalue : ((toJson ⟨name.toList, value⟩).field? "value".toList).getD .null = value := by
    rw [toJson, Json.field?_mkObj]
    cases value <;> simp [isNull]
  unfold isValid
  rw [htype, hvalue]
  rfl

end Notice

/-- Progress is not past the end. -/
def Event.InOrder : Event → Prop
  | .chunkProgress current total => current ≤ total
  | _ => True

/-- **Every event is written as the rules want it**, if its progress is not past the end. -/
theorem Event.isValid_toJson {e : Event} (h : e.InOrder) : Notice.isValid e.toJson = .ok true := by
  rw [toJson, Notice.ofEvent, Notice.isValid_toJson]
  congr 1
  cases e with
  | chunkProgress current total =>
      have hcurrent : (value (.chunkProgress current total)).field? "current".toList =
          some (.int current) := by
        rw [value, Json.field?_mkObj]
        rfl
      have htotal : (value (.chunkProgress current total)).field? "total".toList =
          some (.int total) := by
        rw [value, Json.field?_mkObj]
        rfl
      have hle : (current : Int) ≤ total := Int.ofNat_le.2 h
      simp only [Notice.carries, name, Text.toList_beq, hcurrent, htotal]
      simp [Notice.count?, hle]
  | done o =>
      have hcode : o.toJson.field? "optimized_code".toList = some (.str o.code) := by
        rw [Outcome.toJson, Json.field?_mkObj]
        rfl
      have hparsed : o.toJson.field? "_parsed".toList = some (.bool o.parsed) := by
        rw [Outcome.toJson, Json.field?_mkObj]
        rfl
      have hsame : o.toJson.field? "_no_change".toList = some (.bool o.noChange) := by
        rw [Outcome.toJson, Json.field?_mkObj]
        rfl
      simp only [Notice.carries, name, value, Text.toList_beq, hcode, hparsed, hsame]
      simp [Notice.isText, Notice.isBool]
  | _ =>
      simp only [Notice.carries, name, value, Text.toList_beq]
      simp [Notice.isText, Notice.isNull, Json.ofString]

end Refinery
