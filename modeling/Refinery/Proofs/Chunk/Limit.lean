import Refinery.Proofs.Chunk.Partition

/-!
How far a chunk grows. The cutting loop closes a chunk with the line that takes it to the size
limit, so that no chunk but the last goes on behind a front that has reached the limit. There is one
exception: a line that opens a chunk because it opens a definition is not held against the limit. If
it has reached the limit by itself, the chunk goes on for one more line.
-/

namespace Refinery.Chunk

open Text

/-- No proper front of some lines has reached the limit; only the last line can take them there. -/
def StaysBelow (limit : Int) (ls : List Text) : Prop :=
  ∀ front, front <+: ls → front ≠ [] → front ≠ ls → ((unlines front).length + 1 : Int) < limit

/-- A line that opens a definition has reached the limit by itself, and one more line stands behind
it. -/
def Overruns (limit : Int) (ls : List Text) : Prop :=
  ∃ opener line, ls = [opener, line] ∧ opensDefinition opener = true ∧
    opensDefinition line = false ∧ limit ≤ opener.length + 1

theorem staysBelow_nil (limit : Int) : StaysBelow limit [] :=
  fun _ hfront hne _ => absurd (List.prefix_nil.1 hfront) hne

theorem StaysBelow.concat {limit : Int} {ls : List Text} (h : StaysBelow limit ls)
    (hsize : ls ≠ [] → ((unlines ls).length + 1 : Int) < limit) (line : Text) :
    StaysBelow limit (ls ++ [line]) := by
  intro front hfront hne hproper
  rcases List.prefix_concat_iff.1 hfront with heq | hin
  · exact absurd heq hproper
  · by_cases hwhole : front = ls
    · rw [hwhole] at hne ⊢
      exact hsize hne
    · exact h front hin hne hwhole

theorem staysBelow_singleton (limit : Int) (line : Text) : StaysBelow limit [line] :=
  (staysBelow_nil limit).concat (fun hne => absurd rfl hne) line

theorem Overruns.not_staysBelow {limit : Int} {ls : List Text} (h : Overruns limit ls) :
    ¬ StaysBelow limit ls := by
  obtain ⟨opener, line, rfl, -, -, hlong⟩ := h
  intro hbelow
  have hopener := hbelow [opener] ⟨[line], rfl⟩ (List.cons_ne_nil opener []) (by simp)
  rw [unlines_singleton] at hopener
  omega

namespace Pile

/-- What the loop can have on the pile: lines below the limit, or one line that opens a definition
and has reached the limit by itself. -/
inductive Open (limit : Int) (pile : Pile) : Prop
  | below (lines : StaysBelow limit pile.lines)
      (size : pile.lines ≠ [] → (pile.size : Int) < limit)
  | full (opener : Text) (lines : pile.lines = [opener])
      (opens : opensDefinition opener = true) (size : limit ≤ pile.size)

theorem open_empty (limit : Int) : Open limit {} :=
  .below (staysBelow_nil limit) fun hne => absurd rfl hne

theorem open_opener {line : Text} (limit : Int) (h : opensDefinition line = true) :
    Open limit ⟨[line], line.length + 1⟩ := by
  by_cases hsize : limit ≤ (line.length + 1 : Nat)
  · exact .full line rfl h hsize
  · exact .below (staysBelow_singleton limit line) fun _ => Int.not_le.1 hsize

variable {limit : Int} {pile : Pile}

/-- A pile that is closed in front of a line stays below the limit. -/
theorem Open.staysBelow (h : Open limit pile) : StaysBelow limit pile.lines := by
  cases h with
  | below hlines _ => exact hlines
  | full opener hlines _ _ =>
      rw [hlines]
      exact staysBelow_singleton limit opener

/-- A pile that takes one more line stays below the limit or overruns it: the line that a full pile
takes opens no definition, since the pile would have been closed in front of it. -/
theorem Open.concat (h : Open limit pile) (hexact : pile.Exact) {line : Text}
    (htaken : opensDefinition line = true → pile.lines ≠ [] → (2 * pile.size : Int) ≤ limit) :
    StaysBelow limit (pile.lines ++ [line]) ∨ Overruns limit (pile.lines ++ [line]) := by
  cases h with
  | below hlines hsize =>
      refine .inl (hlines.concat (fun hne => ?_) line)
      have hlength := hexact.filled hne
      have hlow := hsize hne
      omega
  | full opener hlines hopens hsize =>
      have hlength := hexact.filled (by rw [hlines]; exact List.cons_ne_nil opener [])
      rw [hlines, unlines_singleton] at hlength
      refine .inr ⟨opener, line, by rw [hlines]; rfl, hopens, ?_, by omega⟩
      rw [Bool.eq_false_iff]
      intro hline
      have hhalf := htaken hline (by rw [hlines]; exact List.cons_ne_nil opener [])
      omega

/-- A pile that is still below the limit with one more line was below it. -/
theorem Open.push (h : Open limit pile) (hexact : pile.Exact) {line : Text}
    (hsize : (pile.size + line.length + 1 : Int) < limit) :
    Open limit ⟨pile.lines ++ [line], pile.size + line.length + 1⟩ := by
  cases h with
  | below hlines hlow =>
      refine .below (hlines.concat (fun hne => ?_) line) fun _ => by exact_mod_cast hsize
      have hlength := hexact.filled hne
      have hpile := hlow hne
      omega
  | full opener _ _ hfull => omega

end Pile

/-- Every finished chunk stays below the limit or overruns it, and the pile is what it can be. -/
structure Bounded (limit : Int) (state : List Text × Pile) : Prop where
  finished : ∀ t ∈ state.1, StaysBelow limit (lines t) ∨ Overruns limit (lines t)
  exact : state.2.Exact
  opened : state.2.Open limit

theorem bounded_nil (limit : Int) : Bounded limit ([], {}) :=
  ⟨fun _ h => absurd h List.not_mem_nil, Pile.exact_empty, Pile.open_empty limit⟩

section Loop

variable {limit : Int} {done : List Text} {ms : List Text}

/-- One more finished chunk. -/
theorem finished_concat
    (h : ∀ t ∈ done, StaysBelow limit (lines t) ∨ Overruns limit (lines t)) (hne : ms ≠ [])
    (hms : ∀ l ∈ ms, '\n' ∉ l) (hnew : StaysBelow limit ms ∨ Overruns limit ms) :
    ∀ t ∈ done ++ [unlines ms], StaysBelow limit (lines t) ∨ Overruns limit (lines t) := by
  intro t ht
  rcases List.mem_append.1 ht with ht | ht
  · exact h t ht
  · rw [List.mem_singleton.1 ht, lines_unlines_of_lines hne hms]
    exact hnew

/-- One line of the loop. It closes the pile in front of the line, or behind it, or not at all. -/
theorem Bounded.addLine {ls : List Text} {state : List Text × Pile} (h : Bounded limit state)
    (hcovers : Covers ls state) {line : Text} (hline : '\n' ∉ line) :
    Bounded limit (Chunk.addLine limit state line) := by
  obtain ⟨done, pile⟩ := state
  have hexact : pile.Exact := h.exact
  have hopened : pile.Open limit := h.opened
  have hgrown : ∀ l ∈ pile.lines ++ [line], '\n' ∉ l := by
    intro l hl
    rcases List.mem_append.1 hl with hl | hl
    · exact hcovers.single l hl
    · rwa [List.mem_singleton.1 hl]
  simp only [Chunk.addLine]
  split
  · next hopen =>
      simp only [Bool.and_eq_true, Bool.not_eq_true', List.isEmpty_eq_false_iff] at hopen
      obtain ⟨⟨hopens, hne⟩, -⟩ := hopen
      refine ⟨finished_concat h.finished hne hcovers.single (.inl hopened.staysBelow),
        Pile.exact_singleton line, Pile.open_opener limit hopens⟩
  · next hstay =>
      simp only [Bool.and_eq_true, Bool.not_eq_true', List.isEmpty_eq_false_iff,
        decide_eq_true_eq, not_and, Int.not_lt] at hstay
      split
      · have hnew := hopened.concat hexact fun hopens hne => hstay ⟨hopens, hne⟩
        exact ⟨finished_concat h.finished (by simp) hgrown hnew, Pile.exact_empty,
          Pile.open_empty limit⟩
      · next hlow =>
          exact ⟨h.finished, hexact.push line, hopened.push hexact (by omega)⟩

theorem Bounded.foldl {ls : List Text} {state : List Text × Pile} (h : Bounded limit state)
    (hcovers : Covers ls state) (hms : ∀ l ∈ ms, '\n' ∉ l) :
    Bounded limit (ms.foldl (Chunk.addLine limit) state) := by
  induction ms generalizing ls state with
  | nil => exact h
  | cons m ms ih =>
      have hm : '\n' ∉ m := hms m List.mem_cons_self
      exact ih (h.addLine hcovers hm) (hcovers.addLine limit hm)
        fun l hl => hms l (List.mem_cons_of_mem m hl)

/-- What is left on the pile goes into the last chunk alone. -/
theorem mem_of_mem_dropLast_finish {pile : Pile} {t : Text}
    (h : t ∈ (finish done pile).dropLast) : t ∈ done := by
  rw [finish] at h
  split at h
  · exact List.dropLast_subset done h
  · cases hlast : done.getLast? with
    | none => simp [hlast] at h
    | some last =>
        simp only [hlast] at h
        split at h
        · rw [List.dropLast_concat] at h
          exact List.dropLast_subset done h
        · rwa [List.dropLast_concat] at h

end Loop

theorem staysBelow_or_overruns {code t : Text} {limit : Int}
    (h : t ∈ (split code limit).dropLast) :
    StaysBelow limit (lines t) ∨ Overruns limit (lines t) := by
  rw [split] at h
  split at h
  · simp at h
  · have hbounded : Bounded limit ((lines code).foldl (addLine limit) ([], {})) :=
      (bounded_nil limit).foldl covers_nil fun l hl => newline_not_mem_lines hl
    exact hbounded.finished t (mem_of_mem_dropLast_finish h)

/-- **How far a chunk grows.** No chunk but the last goes on behind a front of its lines that has
reached the limit, unless its first line opens a definition and has reached the limit by itself;
such a chunk has one line more. So every chunk but the last stays below the limit until its final
line where each line of the text that opens a definition does. -/
theorem staysBelow_iff (code : Text) (limit : Int) :
    (∀ t ∈ (split code limit).dropLast,
      StaysBelow limit (lines t) ↔ ¬ Overruns limit (lines t)) ∧
    ((∀ l ∈ lines code, opensDefinition l = true → (l.length + 1 : Int) < limit) →
      ∀ t ∈ (split code limit).dropLast, StaysBelow limit (lines t)) := by
  have hiff : ∀ t ∈ (split code limit).dropLast,
      (StaysBelow limit (lines t) ↔ ¬ Overruns limit (lines t)) := by
    intro t ht
    refine ⟨fun hbelow hover => hover.not_staysBelow hbelow, fun hover => ?_⟩
    exact (staysBelow_or_overruns ht).resolve_right hover
  refine ⟨hiff, fun hshort t ht => (hiff t ht).2 ?_⟩
  rintro ⟨opener, line, hlines, hopens, -, hlong⟩
  have hmem : opener ∈ lines code := by
    rw [← flatMap_lines_split code limit, List.mem_flatMap]
    exact ⟨t, List.dropLast_subset _ ht, by rw [hlines]; exact List.mem_cons_self⟩
  have hlow := hshort opener hmem hopens
  omega

/-- A chunk of three lines that its last line takes past the limit, in front of two more chunks. -/
theorem staysBelow_of_three_lines :
    let code : Text := "a = 1\nb = 2\nc = [1, 2, 3]\ndef f(x):\n  return a\nprint(f(b))".toList
    let t : Text := "a = 1\nb = 2\nc = [1, 2, 3]".toList
    t ∈ (split code 16).dropLast ∧ ¬ Overruns 16 (lines t) ∧
      (∀ l ∈ lines code, opensDefinition l = true → (l.length + 1 : Int) < 16) ∧
      StaysBelow 16 (lines t) := by
  intro code t
  have ht : t ∈ (split code 16).dropLast := by decide +kernel
  have hshort : ∀ l ∈ lines code, opensDefinition l = true → (l.length + 1 : Int) < 16 := by
    decide +kernel
  obtain ⟨hiff, hbelow⟩ := staysBelow_iff code 16
  exact ⟨ht, (hiff t ht).1 (hbelow hshort t ht), hshort, hbelow hshort t ht⟩

/-- A chunk goes on behind a long line that opens a definition. -/
theorem long_opener_overruns :
    let code : Text :=
      "x = 1;\nfunction add(a, b) \x7b\n  return a + b;\n\x7d\nadd(1, 2);".toList
    let t : Text := "function add(a, b) \x7b\n  return a + b;".toList
    t ∈ (split code 12).dropLast ∧ Overruns 12 (lines t) ∧ ¬ StaysBelow 12 (lines t) := by
  intro code t
  have hover : Overruns 12 (lines t) :=
    ⟨"function add(a, b) \x7b".toList, "  return a + b;".toList, by decide, by decide, by decide,
      by decide⟩
  exact ⟨by decide +kernel, hover, hover.not_staysBelow⟩

end Refinery.Chunk
