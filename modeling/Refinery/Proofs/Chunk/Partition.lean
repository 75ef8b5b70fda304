import Refinery.Chunk.Basic
import Refinery.Chunk.Split
import Refinery.Proofs.Text.Lines

/-!
The chunks of a text are pieces of it: their lines in order are the lines of the text, and joined
with newlines they give it back. The invariant of the cutting loop says the same of the finished
chunks and the pile. A second one counts the characters of the pile, and shows that only a limit of
one or less makes chunks out of empty lines.
-/

namespace Refinery.Chunk

open Text

/-- The finished chunks and the pile hold the lines gone over, and each line of the pile is one. -/
structure Covers (ls : List Text) (state : List Text × Pile) : Prop where
  lines_eq : state.1.flatMap lines ++ state.2.lines = ls
  single : ∀ l ∈ state.2.lines, '\n' ∉ l

theorem covers_nil : Covers [] ([], {}) := ⟨rfl, fun _ h => absurd h List.not_mem_nil⟩

/-- One more line is covered. -/
theorem Covers.addLine {ls : List Text} {state : List Text × Pile} {line : Text} (limit : Int)
    (h : Covers ls state) (hline : '\n' ∉ line) :
    Covers (ls ++ [line]) (Chunk.addLine limit state line) := by
  obtain ⟨done, pile⟩ := state
  have hgrown : ∀ l ∈ pile.lines ++ [line], '\n' ∉ l := by
    intro l hl
    rcases List.mem_append.1 hl with hl | hl
    · exact h.single l hl
    · rw [List.mem_singleton.1 hl]
      exact hline
  have hlines : done.flatMap lines ++ (pile.lines ++ [line]) = ls ++ [line] := by
    rw [← List.append_assoc]
    exact congrArg (· ++ [line]) h.lines_eq
  simp only [Chunk.addLine]
  split
  · next hopen =>
      have hne : pile.lines ≠ [] := by
        simp only [Bool.and_eq_true, Bool.not_eq_true', List.isEmpty_eq_false_iff] at hopen
        exact hopen.1.2
      refine ⟨?_, fun l hl => List.mem_singleton.1 hl ▸ hline⟩
      rw [List.flatMap_append, List.flatMap_singleton, lines_unlines_of_lines hne h.single,
        List.append_assoc]
      exact hlines
  · split
    · refine ⟨?_, fun _ hl => absurd hl List.not_mem_nil⟩
      have hne : pile.lines ++ [line] ≠ [] := by simp
      rw [List.flatMap_append, List.flatMap_singleton, lines_unlines_of_lines hne hgrown,
        List.append_nil]
      exact hlines
    · exact ⟨hlines, hgrown⟩

theorem Covers.foldl {ls ms : List Text} {state : List Text × Pile} (limit : Int)
    (h : Covers ls state) (hms : ∀ l ∈ ms, '\n' ∉ l) :
    Covers (ls ++ ms) (ms.foldl (Chunk.addLine limit) state) := by
  induction ms generalizing ls state with
  | nil => rwa [List.append_nil]
  | cons m ms ih =>
      rw [List.append_cons]
      exact ih (h.addLine limit (hms m List.mem_cons_self))
        fun l hl => hms l (List.mem_cons_of_mem m hl)

/-- The last chunk takes what is left on the pile. -/
theorem Covers.flatMap_finish {ls done : List Text} {pile : Pile} (h : Covers ls (done, pile)) :
    (finish done pile).flatMap lines = ls := by
  have hls : done.flatMap lines ++ pile.lines = ls := h.lines_eq
  rw [finish]
  by_cases hpile : pile.lines = []
  · rw [if_pos (List.isEmpty_iff.2 hpile), ← hls, hpile, List.append_nil]
  · have hrest : lines (unlines pile.lines) = pile.lines := lines_unlines_of_lines hpile h.single
    rw [if_neg (by rwa [List.isEmpty_iff])]
    cases hlast : done.getLast? with
    | none =>
        rw [← hls, List.getLast?_eq_none_iff.1 hlast]
        simpa using hrest
    | some last =>
        obtain ⟨front, rfl⟩ := List.getLast?_eq_some_iff.1 hlast
        have hjoined : lines (last ++ ['\n'] ++ unlines pile.lines) = lines last ++ pile.lines := by
          rw [List.append_assoc, List.singleton_append, lines_append_newline, hrest]
        simp only
        split
        · rw [List.dropLast_concat, List.flatMap_append, List.flatMap_singleton, hjoined, ← hls,
            List.flatMap_append, List.flatMap_singleton, List.append_assoc]
        · rw [List.flatMap_append, List.flatMap_singleton, hrest, hls]

/-- The lines of the chunks in order are the lines of the text. -/
theorem flatMap_lines_split (code : Text) (limit : Int) :
    (split code limit).flatMap lines = lines code := by
  rw [split]
  split
  · rw [List.flatMap_singleton]
  · have h := covers_nil.foldl limit fun l hl => newline_not_mem_lines (t := code) hl
    exact h.flatMap_finish

theorem split_ne_nil (code : Text) (limit : Int) : split code limit ≠ [] := by
  intro h
  refine lines_ne_nil code ?_
  rw [← flatMap_lines_split code limit, h, List.flatMap_nil]

/-- **Joined with newlines the chunks give the text back.** -/
theorem unlines_split (code : Text) (limit : Int) : unlines (split code limit) = code := by
  refine eq_of_lines_eq ?_
  rw [lines_unlines (split_ne_nil code limit), flatMap_lines_split]

namespace Pile

/-- The size of a pile is the length of its lines with a newline after each. -/
structure Exact (pile : Pile) : Prop where
  empty : pile.lines = [] → pile.size = 0
  filled : pile.lines ≠ [] → pile.size = (unlines pile.lines).length + 1

theorem exact_empty : Exact {} := ⟨fun _ => rfl, fun h => absurd rfl h⟩

theorem exact_singleton (line : Text) : Exact ⟨[line], line.length + 1⟩ := by
  refine ⟨fun hnone => absurd hnone (List.cons_ne_nil line []), fun _ => ?_⟩
  rw [unlines_singleton]

namespace Exact

variable {pile : Pile}

theorem push (h : pile.Exact) (line : Text) :
    Exact ⟨pile.lines ++ [line], pile.size + line.length + 1⟩ := by
  have hline : [line] ≠ [] := List.cons_ne_nil line []
  refine ⟨fun hnone => absurd hnone (List.append_ne_nil_of_right_ne_nil pile.lines hline), ?_⟩
  intro _
  by_cases hlines : pile.lines = []
  · simp only [hlines, h.empty hlines, List.nil_append, unlines_singleton, Nat.zero_add]
  · simp only [unlines_append hlines hline, unlines_singleton, h.filled hlines, List.length_append,
      List.length_cons]
    omega

/-- A pile that holds more than one empty line is no empty chunk. -/
theorem unlines_ne_nil (h : pile.Exact) (hsize : 2 ≤ pile.size) : unlines pile.lines ≠ [] := by
  intro hnone
  by_cases hlines : pile.lines = []
  · have hzero := h.empty hlines
    omega
  · have hlength := h.filled hlines
    rw [hnone, List.length_nil] at hlength
    omega

end Exact
end Pile

/-- No finished chunk is empty, and the pile is counted right. -/
structure Measured (state : List Text × Pile) : Prop where
  finished : ∀ t ∈ state.1, t ≠ []
  exact : state.2.Exact

theorem measured_nil : Measured ([], {}) :=
  ⟨fun _ h => absurd h List.not_mem_nil, Pile.exact_empty⟩

/-- One more line leaves no empty chunk behind: a chunk is closed when its lines and their newlines
are more than half of the limit, which no single newline is. -/
theorem Measured.addLine {state : List Text × Pile} {limit : Int} (h : Measured state)
    (hlimit : 2 ≤ limit) (line : Text) : Measured (Chunk.addLine limit state line) := by
  obtain ⟨done, pile⟩ := state
  have hfinished : ∀ {p : Pile}, p.Exact → 2 ≤ p.size →
      ∀ t ∈ done ++ [unlines p.lines], t ≠ [] := by
    intro p hp hsize t ht
    rcases List.mem_append.1 ht with ht | ht
    · exact h.finished t ht
    · rw [List.mem_singleton.1 ht]
      exact hp.unlines_ne_nil hsize
  have hgrown := h.exact.push line
  simp only [Chunk.addLine]
  split
  · next hopen =>
      simp only [Bool.and_eq_true, decide_eq_true_eq] at hopen
      exact ⟨hfinished h.exact (by omega), Pile.exact_singleton line⟩
  · split
    · next hfull => exact ⟨hfinished hgrown (by dsimp only; omega), Pile.exact_empty⟩
    · exact ⟨h.finished, hgrown⟩

theorem Measured.foldl {ls : List Text} {state : List Text × Pile} {limit : Int}
    (h : Measured state) (hlimit : 2 ≤ limit) :
    Measured (ls.foldl (Chunk.addLine limit) state) := by
  induction ls generalizing state with
  | nil => exact h
  | cons l ls ih => exact ih (h.addLine hlimit l)

/-- What is left on the pile is a chunk by itself only if it is not blank, or if it is the text. -/
theorem ne_nil_of_mem_finish {done : List Text} {pile : Pile} (h : ∀ t ∈ done, t ≠ [])
    (hpile : done = [] → unlines pile.lines ≠ []) : ∀ t ∈ finish done pile, t ≠ [] := by
  intro t ht
  rw [finish] at ht
  split at ht
  · exact h t ht
  · cases hlast : done.getLast? with
    | none =>
        simp only [hlast, List.mem_singleton] at ht
        rw [ht]
        exact hpile (List.getLast?_eq_none_iff.1 hlast)
    | some last =>
        simp only [hlast] at ht
        split at ht
        · rcases List.mem_append.1 ht with ht | ht
          · exact h t (List.dropLast_subset done ht)
          · rw [List.mem_singleton.1 ht]
            simp
        · next hrest =>
            rcases List.mem_append.1 ht with ht | ht
            · exact h t ht
            · rw [List.mem_singleton.1 ht]
              intro hnone
              rw [hnone] at hrest
              exact hrest rfl

theorem ne_nil_of_mem_split {code : Text} {limit : Int} (hlimit : 2 ≤ limit) (hcode : code ≠ []) :
    ∀ t ∈ split code limit, t ≠ [] := by
  rw [split]
  split
  · intro t ht
    rwa [List.mem_singleton.1 ht]
  · have hmeasured : Measured ((lines code).foldl (addLine limit) ([], {})) :=
      measured_nil.foldl hlimit
    have hcovers : Covers ([] ++ lines code) ((lines code).foldl (addLine limit) ([], {})) :=
      covers_nil.foldl limit fun l hl => newline_not_mem_lines hl
    refine ne_nil_of_mem_finish hmeasured.finished fun hdone => ?_
    have hall := hcovers.lines_eq
    rw [hdone, List.flatMap_nil, List.nil_append, List.nil_append] at hall
    rwa [hall, unlines_lines]

/-- **Cutting into chunks is a lossless partition**: there is a chunk, joined with newlines the
chunks give the text back, and with a limit of two or more none of them is empty unless the text
is. -/
theorem split_partitions (code : Text) (limit : Int) :
    split code limit ≠ [] ∧ unlines (split code limit) = code ∧
      (2 ≤ limit → code ≠ [] → ∀ t ∈ split code limit, t ≠ []) :=
  ⟨split_ne_nil code limit, unlines_split code limit, ne_nil_of_mem_split⟩

/-- Blank lines at the beginning, in front of a definition and at the end. -/
theorem split_partitions_of_blank_lines :
    let code : Text := "\n\na\n\ndef f():\n\n".toList
    (2 : Int) ≤ 5 ∧ code ≠ [] ∧ split code 5 = ["\n\na\n".toList, "def f():\n\n".toList] ∧
      unlines (split code 5) = code ∧ ∀ t ∈ split code 5, t ≠ [] := by
  intro code
  obtain ⟨-, hjoined, hfilled⟩ := split_partitions code 5
  exact ⟨by decide, by decide, by decide, hjoined, hfilled (by decide) (by decide)⟩

/-- With a smaller limit a blank line is a chunk. -/
example : split "\na".toList 1 = [[], ['a']] := by decide

theorem map_text_ofTextsFrom (index : Nat) (ts : List Text) :
    (ofTextsFrom index ts).map Chunk.text = ts := by
  induction ts generalizing index with
  | nil => rfl
  | cons t ts ih =>
      cases ts with
      | nil => rfl
      | cons u us =>
          rw [ofTextsFrom, List.map_cons, ih]

theorem map_text_ofTexts (ts : List Text) : (ofTexts ts).map Chunk.text = ts :=
  map_text_ofTextsFrom 0 ts

theorem length_ofTexts (ts : List Text) : (ofTexts ts).length = ts.length := by
  rw [← List.length_map, map_text_ofTexts]

theorem map_index_ofTextsFrom (index : Nat) (ts : List Text) :
    (ofTextsFrom index ts).map Chunk.index = List.range' index ts.length := by
  induction ts generalizing index with
  | nil => rfl
  | cons t ts ih =>
      cases ts with
      | nil => rfl
      | cons u us =>
          rw [ofTextsFrom, List.map_cons, ih]
          rfl

/-- Of two texts or more there is a first and a second chunk. -/
theorem exists_ofTexts {ts : List Text} (h : 2 ≤ ts.length) :
    ∃ c d later, ofTexts ts = c :: d :: later := by
  rw [← map_text_ofTexts ts, List.length_map] at h
  cases hof : ofTexts ts with
  | nil => simp [hof] at h
  | cons c rest =>
      cases rest with
      | nil => simp [hof] at h
      | cons d later => exact ⟨c, d, later, rfl⟩

end Refinery.Chunk
