import Refinery.Proofs.Text.Trim
import Refinery.Review.Report

/-!
The language of a request, once it is settled, stays the language of every piece of its text: asking
for it again gives it back, whatever the piece seems to be in.
-/

namespace Refinery

theorem Report.language_ofText (code requested : Text) (chunkSize : Int) :
    (Report.ofText code requested chunkSize).language = Language.resolve code requested := rfl

namespace Language

open Text

/-- Whether asking for a language is asking for that very language. -/
def isNamed (l : Language) : Bool :=
  trim l == l && !(["".toList, "auto".toList].contains (lower l))

theorem isNamed_signatures : ∀ row ∈ signatures, isNamed row.2.toList = true := by decide

theorem isNamed_ofText (code : Text) : isNamed (ofText code) = true := by
  unfold ofText
  split
  · next row hfind => exact isNamed_signatures row (List.mem_of_find?_eq_some hfind)
  · decide

theorem isNamed_resolve (code requested : Text) : isNamed (resolve code requested) = true := by
  unfold resolve
  simp only
  split
  · exact isNamed_ofText code
  · next hkept =>
      simp only [isNamed, trim_trim, hkept, beq_self_eq_true, Bool.not_false, Bool.and_true]

theorem resolve_of_isNamed {l : Language} (h : isNamed l = true) (code : Text) :
    resolve code l = l := by
  rw [isNamed, Bool.and_eq_true, beq_iff_eq, Bool.not_eq_true'] at h
  obtain ⟨htrim, hasks⟩ := h
  rw [resolve, htrim]
  simp only [hasks, Bool.false_eq_true, if_false]

/-- **A language is settled once.** -/
theorem resolve_resolve (piece code requested : Text) :
    resolve piece (resolve code requested) = resolve code requested :=
  resolve_of_isNamed (isNamed_resolve code requested) piece

end Language
end Refinery
