import Refinery.Proofs.Text.Parts
import Refinery.Prompt.Basic

/-!
The shape of prompts. A prompt ends with the code in a block and the cursor; the directive against
cut-off answers goes between the two, and not in a prompt that holds it. A prompt begins with the
system text exactly at a level at which it is written out in full.
-/

namespace Refinery.Prompt

open Text

/-- A prompt that was given the directive holds it. -/
theorem hasPart_withDirective (prompt : Text) : hasPart directive (withDirective prompt) = true := by
  unfold withDirective
  split
  · next h => exact h
  · rw [hasPart_iff]
    exact (List.infix_append _ directive ['\n']).trans (List.prefix_append _ cursor).isInfix

/-- It is not given the directive again. -/
theorem withDirective_withDirective (prompt : Text) :
    withDirective (withDirective prompt) = withDirective prompt :=
  if_pos (hasPart_withDirective prompt)

end Refinery.Prompt
