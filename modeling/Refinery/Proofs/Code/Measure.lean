import Mathlib.Order.Bounds.Lattice
import Refinery.Proofs.Code.Nesting
import Refinery.Proofs.Text.Parts

/-!
What the measures of a piece of code say. The pass counts every loop word of the text and every line
that announces a function, and no more loops nest than there are. In code without lines that end in
a colon the block depth is the greatest brace depth at a place of the text; in code without braces
it is the greatest number of lines ending in a colon that are open at one line.
-/

namespace Refinery.Shape

open Text

/-- The values of a function on the fronts of a list. -/
def alongFronts {α β : Type} (f : List α → β) (l : List α) : Set β := {b | ∃ p, p <+: l ∧ f p = b}

section Fronts

variable {α β : Type} (f : List α → β)

theorem alongFronts_nil : alongFronts f [] = {f []} := by
  ext b
  constructor
  · rintro ⟨p, hp, rfl⟩
    rw [List.prefix_nil.1 hp, Set.mem_singleton_iff]
  · rintro rfl
    exact ⟨[], List.prefix_rfl, rfl⟩

/-- One more element makes one more front. -/
theorem alongFronts_concat (l : List α) (a : α) :
    alongFronts f (l ++ [a]) = insert (f (l ++ [a])) (alongFronts f l) := by
  ext b
  constructor
  · rintro ⟨p, hp, rfl⟩
    rcases List.prefix_concat_iff.1 hp with rfl | hp
    · exact Set.mem_insert _ _
    · exact Set.mem_insert_of_mem _ ⟨p, hp, rfl⟩
  · rintro (rfl | ⟨p, hp, rfl⟩)
    · exact ⟨l ++ [a], List.prefix_rfl, rfl⟩
    · exact ⟨p, hp.trans (List.prefix_append l [a]), rfl⟩

end Fronts

/-- The brace depth is the number of opening braces less that of closing ones. -/
theorem depthOf_eq_count (t : Text) :
    depthOf t = (t.count '\x7b' : Int) - (t.count '\x7d' : Int) := by
  induction t with
  | nil => rfl
  | cons c t ih =>
      rw [depthOf, ih, braceStep, List.count_cons, List.count_cons]
      by_cases hopen : c = '\x7b'
      · rw [hopen]
        simp
        omega
      · by_cases hclose : c = '\x7d'
        · rw [hclose]
          simp
          omega
        · simp [hopen, hclose]

/-- The greatest depth of a line, from a peak that was reached in front of it. -/
theorem isGreatest_braces {front : Text} {peak : Int} (h : IsGreatest (alongFronts depthOf front) peak)
    (t : Text) : IsGreatest (alongFronts depthOf (front ++ t)) (braces (depthOf front) peak t).2 := by
  induction t generalizing front peak with
  | nil => rwa [List.append_nil]
  | cons c t ih =>
      have hnext : IsGreatest (alongFronts depthOf (front ++ [c]))
          (max peak (depthOf (front ++ [c]))) := by
        rw [alongFronts_concat, max_comm]
        exact h.insert _
      rw [List.append_cons, braces, ← depthOf_singleton, ← depthOf_append]
      exact ih hnext

/-- The pass takes the peak of each line from the depth that the line begins at. -/
theorem max_braces (m depth peak : Int) (t : Text) :
    max m (braces depth peak t).2 = (braces depth (max m peak) t).2 := by
  induction t generalizing depth peak with
  | nil => rfl
  | cons c t ih =>
      rw [braces, ih, braces, max_assoc]

theorem braces_of_depth_zero {t : Text} (h : ∀ c ∈ t, braceStep c = 0) (depth : Int) :
    braces depth depth t = (depth, depth) := by
  induction t with
  | nil => rfl
  | cons c t ih =>
      rw [braces, h c List.mem_cons_self, Int.add_zero, max_self]
      exact ih fun d hd => h d (List.mem_cons_of_mem c hd)

/-- The lines of a list that are open at its last one: they end in a colon, and every later line
that is not blank is indented past them. -/
def opened : List Text → List Text
  | [] => []
  | l :: ls =>
    if endsWith [':'] (trim l) ∧ ∀ m ∈ ls, blank m = false → indentOf l < indentOf m
      then l :: opened ls
      else opened ls

/-- A line that is not blank closes the lines that it is not indented past. -/
theorem opened_concat (ls : List Text) (m : Text) :
    opened (ls ++ [m]) =
      (opened ls).filter (fun l => blank m || decide (indentOf l < indentOf m)) ++
        if endsWith [':'] (trim m) then [m] else [] := by
  induction ls with
  | nil => simp [opened]
  | cons l ls ih =>
      have hkept : (blank m || decide (indentOf l < indentOf m)) = true ↔
          (blank m = false → indentOf l < indentOf m) := by
        cases blank m <;> simp
      rw [List.cons_append, opened, ih, opened]
      simp only [List.forall_mem_append, List.forall_mem_singleton]
      by_cases hopen : endsWith [':'] (trim l) ∧ ∀ k ∈ ls, blank k = false → indentOf l < indentOf k
      · by_cases hm : blank m = false → indentOf l < indentOf m
        · rw [if_pos ⟨hopen.1, hopen.2, hm⟩, if_pos hopen, List.filter_cons, if_pos (hkept.2 hm),
            List.cons_append]
        · rw [if_neg fun h => hm h.2.2, if_pos hopen, List.filter_cons, if_neg (mt hkept.1 hm)]
      · rw [if_neg fun h => hopen ⟨h.1, h.2.1⟩, if_neg hopen]

namespace Scan

theorem foldl_openLoop_frame (indent : Nat) (indented : Bool) (ds : List Int) (s : Scan) :
    let s' := ds.foldl (openLoop indent indented) s
    s'.maxDepth = s.maxDepth ∧ s'.functionCount = s.functionCount ∧ s'.openBlocks = s.openBlocks := by
  induction ds generalizing s with
  | nil => exact ⟨rfl, rfl, rfl⟩
  | cons d ds ih => exact ih (s.openLoop indent indented d)

theorem foldl_openLoop_loopCount (indent : Nat) (indented : Bool) (ds : List Int) (s : Scan) :
    (ds.foldl (openLoop indent indented) s).loopCount = s.loopCount + ds.length := by
  induction ds generalizing s with
  | nil => rfl
  | cons d ds ih =>
      calc _ = s.loopCount + 1 + ds.length := ih (s.openLoop indent indented d)
        _ = s.loopCount + (d :: ds).length := by rw [List.length_cons]; omega

theorem dedent_frame (s : Scan) (l : Text) :
    (s.dedent l).maxDepth = s.maxDepth ∧ (s.dedent l).functionCount = s.functionCount ∧
      (s.dedent l).loopCount = s.loopCount ∧ (s.dedent l).loopNesting = s.loopNesting := by
  unfold dedent
  split
  · exact ⟨rfl, rfl, rfl, rfl⟩
  · exact ⟨rfl, rfl, rfl, rfl⟩

/-- A line closes blocks by its indentation, opens its loops, and then goes over its braces. -/
theorem line_eq (s : Scan) (l : Text) :
    s.line l = ((loopDepths none s.depth l).foldl
      (openLoop (indentOf l) (endsWith [':'] (trim l)))
      { s.dedent l with
        functionCount :=
          s.functionCount + if occurs functionToken (trim l) then 1 else 0 }).close l
      (endsWith [':'] (trim l)) := by
  have hdepths : loopDepths none (s.dedent l).depth l = loopDepths none s.depth l := by
    rw [dedent_depth]
  rw [Scan.line, ← (s.dedent_frame l).2.1, ← hdepths]
  by_cases htoken : occurs functionToken (trim l) = true
  · simp only [htoken, if_true]
  · simp only [htoken, if_false, Nat.add_zero, Bool.false_eq_true]

theorem close_openBlocks (s : Scan) (l : Text) (colon : Bool) :
    (s.close l colon).openBlocks = s.openBlocks ++ if colon then [indentOf l] else [] := by
  cases colon with
  | true => rfl
  | false => exact (List.append_nil s.openBlocks).symm

section Line

variable (s : Scan) (l : Text)

theorem line_depth : (s.line l).depth = s.depth + depthOf l := by
  rw [line_eq, close_depth, foldl_openLoop_depth, dedent_depth]

theorem line_loopCount : (s.line l).loopCount = s.loopCount + (loopDepths none s.depth l).length := by
  rw [line_eq, ← (s.dedent_frame l).2.2.1]
  exact foldl_openLoop_loopCount _ _ _ _

theorem line_functionCount : (s.line l).functionCount =
    s.functionCount + if occurs functionToken (trim l) then 1 else 0 := by
  rw [line_eq]
  exact (foldl_openLoop_frame _ _ _ _).2.1

theorem line_openBlocks : (s.line l).openBlocks =
    s.openBlocks.filter (fun b => blank l || decide (b < indentOf l)) ++
      if endsWith [':'] (trim l) then [indentOf l] else [] := by
  have hdedent : (s.dedent l).openBlocks =
      s.openBlocks.filter fun b => blank l || decide (b < indentOf l) := by
    unfold dedent
    cases blank l with
    | true => simp
    | false => simp
  rw [line_eq, close_openBlocks, (foldl_openLoop_frame _ _ _ _).2.2, ← hdedent]

theorem line_maxDepth : (s.line l).maxDepth =
    max s.maxDepth ((braces s.depth s.depth l).2 + (s.line l).openBlocks.length).toNat := by
  have hclose : ∀ (s : Scan) (colon : Bool), (s.close l colon).maxDepth = max s.maxDepth
      ((braces s.depth s.depth l).2 + (s.close l colon).openBlocks.length).toNat :=
    fun _ _ => rfl
  rw [line_eq, hclose, foldl_openLoop_depth, (foldl_openLoop_frame _ _ _ _).1,
    ← (s.dedent_frame l).1, ← s.dedent_depth l]

end Line

theorem foldl_line_functionCount (ls : List Text) (s : Scan) :
    (ls.foldl Scan.line s).functionCount =
      s.functionCount + ls.countP fun l => occurs functionToken (trim l) := by
  induction ls generalizing s with
  | nil => rfl
  | cons l ls ih =>
      rw [List.foldl_cons, ih, line_functionCount, List.countP_cons, Nat.add_assoc,
        Nat.add_comm (ls.countP _)]

/-- The pass meets the loop words of the text. Each line begins behind a newline, where no word goes
on, at the depth that the lines in front of it leave. -/
theorem foldl_line_loopCount {front : Text} {s : Scan} (hdepth : s.depth = depthOf front)
    (hword : front.getLast?.any isWord = false) (ls : List Text) :
    (ls.foldl Scan.line s).loopCount = s.loopCount + (placesFrom front (unlines ls)).length := by
  induction ls generalizing front s with
  | nil => rfl
  | cons l ls ih =>
      have hhere : (s.line l).loopCount = s.loopCount + (placesFrom front l).length := by
        rw [line_loopCount, loopDepths_eq (hword ▸ rfl) hdepth, List.length_map]
      by_cases hnil : ls = []
      · rw [hnil, unlines_singleton]
        exact hhere
      · have hdepth' : (s.line l).depth = depthOf (front ++ l ++ ['\n']) := by
          rw [line_depth, hdepth, depthOf_append, depthOf_append, depthOf_singleton]
          exact (Int.add_zero _).symm
        rw [List.foldl_cons, ih hdepth' (by rw [List.getLast?_concat]; rfl), hhere,
          unlines_cons l hnil, placesFrom_append_newline, List.length_append, Nat.add_assoc]

/-- No more loops are listed or nest than have been met, and one nests as soon as one is met. -/
structure Nests (s : Scan) : Prop where
  listed : s.openLoops.length ≤ s.loopCount
  nested : s.loopNesting ≤ s.loopCount
  met : s.loopNesting = 0 → s.loopCount = 0

namespace Nests

variable {s : Scan}

/-- The list of loops may become shorter. -/
theorem drop {s' : Scan} (h : s.Nests) (hlisted : s'.openLoops.length ≤ s.openLoops.length)
    (hcount : s'.loopCount = s.loopCount) (hnesting : s'.loopNesting = s.loopNesting) :
    s'.Nests := by
  refine ⟨?_, ?_, ?_⟩
  · rw [hcount]
    exact hlisted.trans h.listed
  · rw [hcount, hnesting]
    exact h.nested
  · rw [hcount, hnesting]
    exact h.met

theorem openLoop (h : s.Nests) (indent : Nat) (indented : Bool) (d : Int) :
    (s.openLoop indent indented d).Nests := by
  have hlisted := h.listed
  have hnested := h.nested
  refine ⟨?_, ?_, ?_⟩ <;> simp only [Scan.openLoop, List.length_append, List.length_singleton] <;>
    omega

theorem foldl_openLoop (h : s.Nests) (indent : Nat) (indented : Bool) (ds : List Int) :
    (ds.foldl (Scan.openLoop indent indented) s).Nests := by
  induction ds generalizing s with
  | nil => exact h
  | cons d ds ih => exact ih (h.openLoop indent indented d)

theorem line (h : s.Nests) (l : Text) : (s.line l).Nests := by
  have hdedent : (s.dedent l).openLoops.length ≤ s.openLoops.length := by
    unfold dedent
    split
    · exact le_refl _
    · exact List.length_filter_le _ _
  have hopen : Nests { s.dedent l with
      functionCount := s.functionCount + if occurs functionToken (trim l) then 1 else 0 } :=
    h.drop hdedent (s.dedent_frame l).2.2.1 (s.dedent_frame l).2.2.2
  rw [line_eq]
  exact (hopen.foldl_openLoop _ _ _).drop (List.length_filter_le _ _) rfl rfl

theorem foldl_line (h : s.Nests) (ls : List Text) : (ls.foldl Scan.line s).Nests := by
  induction ls generalizing s with
  | nil => exact h
  | cons l ls ih => exact ih (h.line l)

end Nests
end Scan

/-- What the pass holds behind a text of which no line ends in a colon: its greatest depth, and no
open block. -/
structure Peaks (front : Text) (s : Scan) : Prop where
  depth : s.depth = depthOf front
  unopened : s.openBlocks = []
  greatest : IsGreatest (alongFronts depthOf front) s.maxDepth

namespace Peaks

variable {front : Text} {s : Scan}

theorem line (h : Peaks front s) {l : Text} (hcolon : endsWith [':'] (trim l) = false) :
    Peaks (front ++ l) (s.line l) := by
  have hblocks : (s.line l).openBlocks = [] := by
    rw [Scan.line_openBlocks, h.unopened, hcolon]
    rfl
  refine ⟨?_, hblocks, ?_⟩
  · rw [Scan.line_depth, h.depth, depthOf_append]
  · -- The line begins at the depth of a front, so its own peak and that of the text go together.
    have hbegin : max (s.maxDepth : Int) s.depth = s.maxDepth :=
      max_eq_left (h.greatest.2 ⟨front, List.prefix_rfl, h.depth.symm⟩)
    have hpeak : ((s.line l).maxDepth : Int) = (braces (depthOf front) s.maxDepth l).2 := by
      calc ((s.line l).maxDepth : Int) = max (s.maxDepth : Int) (braces s.depth s.depth l).2 := by
            rw [Scan.line_maxDepth, hblocks, List.length_nil]
            omega
        _ = (braces (depthOf front) s.maxDepth l).2 := by rw [max_braces, hbegin, h.depth]
    rw [hpeak]
    exact isGreatest_braces h.greatest l

theorem newline (h : Peaks front s) : Peaks (front ++ ['\n']) s := by
  have hdepth : depthOf (front ++ ['\n']) = depthOf front := by
    rw [depthOf_append]
    exact Int.add_zero _
  have hmem : depthOf front ∈ alongFronts depthOf front := ⟨front, List.prefix_rfl, rfl⟩
  refine ⟨h.depth.trans hdepth.symm, h.unopened, ?_⟩
  rw [alongFronts_concat, hdepth, Set.insert_eq_of_mem hmem]
  exact h.greatest

theorem run (h : Peaks front s) {ls : List Text} (hls : ∀ l ∈ ls, endsWith [':'] (trim l) = false) :
    Peaks (front ++ unlines ls) (ls.foldl Scan.line s) := by
  induction ls generalizing front s with
  | nil => rwa [unlines_nil, List.append_nil]
  | cons l ls ih =>
      have hnext := h.line (hls l List.mem_cons_self)
      by_cases hnil : ls = []
      · rw [hnil, unlines_singleton]
        exact hnext
      · rw [unlines_cons l hnil, ← List.append_assoc, List.append_cons]
        exact ih hnext.newline fun m hm => hls m (List.mem_cons_of_mem l hm)

end Peaks

/-- What the pass holds behind some lines without braces: the indentations of the open ones, and the
greatest number that were open at one line. -/
structure Holds (front : List Text) (s : Scan) : Prop where
  depth : s.depth = 0
  blocks : s.openBlocks = (opened front).map indentOf
  greatest : IsGreatest (alongFronts (fun ls => (opened ls).length) front) s.maxDepth

namespace Holds

variable {front : List Text} {s : Scan}

theorem line (h : Holds front s) {l : Text} (hl : ∀ c ∈ l, braceStep c = 0) :
    Holds (front ++ [l]) (s.line l) := by
  have hbraces : braces 0 0 l = (0, 0) := braces_of_depth_zero hl 0
  have hblocks : (s.line l).openBlocks = (opened (front ++ [l])).map indentOf := by
    rw [Scan.line_openBlocks, h.blocks, opened_concat, List.map_append, List.filter_map]
    split
    · rfl
    · rfl
  refine ⟨?_, hblocks, ?_⟩
  · rw [Scan.line_depth, ← braces_fst s.depth 0 l, h.depth, hbraces]
  · have hpeak : (s.line l).maxDepth = max (opened (front ++ [l])).length s.maxDepth := by
      rw [Scan.line_maxDepth, hblocks, h.depth, hbraces, List.length_map, max_comm]
      simp
    rw [hpeak, alongFronts_concat]
    exact h.greatest.insert _

theorem run (h : Holds front s) {ls : List Text} (hls : ∀ l ∈ ls, ∀ c ∈ l, braceStep c = 0) :
    Holds (front ++ ls) (ls.foldl Scan.line s) := by
  induction ls generalizing front s with
  | nil => rwa [List.append_nil]
  | cons l ls ih =>
      rw [List.append_cons]
      exact ih (h.line (hls l List.mem_cons_self)) fun m hm => hls m (List.mem_cons_of_mem l hm)

end Holds

/-- **What the measures say.** The loops that are counted are the loop words of the text and the
functions the lines that announce one; so there are no more functions than lines, no more loops nest
than there are, and one nests if there is one. In code of which no line ends in a colon the block
depth is the greatest difference of opening and closing braces in a front of the text. In code
without braces it is the greatest number of lines ending in a colon that are open at a line. -/
theorem measures_exact (code : Text) :
    let s := ofText code
    (s.loopCount = (loopPlaces code).length ∧ s.loopNesting ≤ s.loopCount ∧
      (s.loopNesting = 0 ↔ s.loopCount = 0)) ∧
    (s.functionCount = (lines code).countP (fun l => occurs functionToken (trim l)) ∧
      s.functionCount ≤ s.lineCount) ∧
    ((∀ l ∈ lines code, endsWith [':'] (trim l) = false) →
      IsGreatest (alongFronts (fun p : Text => (p.count '\x7b' : Int) - p.count '\x7d') code)
        s.maxDepth) ∧
    ('\x7b' ∉ code → '\x7d' ∉ code →
      IsGreatest (alongFronts (fun ls => (opened ls).length) (lines code)) s.maxDepth) := by
  intro s
  have hnests : Scan.Nests ((lines code).foldl Scan.line {}) :=
    Scan.Nests.foldl_line ⟨le_refl 0, le_refl 0, fun _ => rfl⟩ (lines code)
  have hloops : ((lines code).foldl Scan.line {}).loopCount =
      0 + (placesFrom [] (unlines (lines code))).length :=
    Scan.foldl_line_loopCount rfl rfl (lines code)
  have hfunctions := Scan.foldl_line_functionCount (lines code) {}
  rw [Nat.zero_add] at hfunctions
  rw [Nat.zero_add, unlines_lines] at hloops
  refine ⟨⟨hloops, hnests.nested, hnests.met, fun h => ?_⟩, ⟨hfunctions, ?_⟩, ?_, ?_⟩
  · exact Nat.eq_zero_of_le_zero (h ▸ hnests.nested)
  · exact hfunctions.trans_le (List.countP_le_length ..)
  · intro hcolon
    have hstart : Peaks [] {} := ⟨rfl, rfl, by rw [alongFronts_nil]; exact isGreatest_singleton⟩
    have hrun := hstart.run hcolon
    rw [unlines_lines, List.nil_append] at hrun
    rw [← funext depthOf_eq_count]
    exact hrun.greatest
  · intro hopen hclose
    have hplain : ∀ l ∈ lines code, ∀ c ∈ l, braceStep c = 0 := by
      intro l hl c hc
      have hmem : c ∈ code := unlines_lines code ▸ (infix_unlines hl).subset hc
      have hc₁ : c ≠ '\x7b' := fun e => hopen (e ▸ hmem)
      have hc₂ : c ≠ '\x7d' := fun e => hclose (e ▸ hmem)
      simp [braceStep, hc₁, hc₂]
    have hstart : Holds [] {} := ⟨rfl, rfl, by rw [alongFronts_nil]; exact isGreatest_singleton⟩
    exact (hstart.run hplain).greatest

/-- Braces that close more than was opened, and a block that a blank line leaves open. -/
theorem measures_of_two_layouts :
    let braced := "\x7d\nf(\x7b a: \x7b \x7d \x7d);".toList
    let indented := "def f(a):\n  for x in a:\n\n    if x:\n      g()\n  else:".toList
    (∀ l ∈ lines braced, endsWith [':'] (trim l) = false) ∧
      IsGreatest (alongFronts (fun p : Text => (p.count '\x7b' : Int) - p.count '\x7d') braced)
        (ofText braced).maxDepth ∧
      (ofText braced).maxDepth = 1 ∧
      '\x7b' ∉ indented ∧ '\x7d' ∉ indented ∧
      IsGreatest (alongFronts (fun ls => (opened ls).length) (lines indented))
        (ofText indented).maxDepth ∧
      (ofText indented).maxDepth = 3 := by
  intro braced indented
  have hcolon : ∀ l ∈ lines braced, endsWith [':'] (trim l) = false := by decide +kernel
  have hopen : '\x7b' ∉ indented := by decide
  have hclose : '\x7d' ∉ indented := by decide
  exact ⟨hcolon, (measures_exact braced).2.2.1 hcolon, by decide +kernel, hopen, hclose,
    (measures_exact indented).2.2.2 hopen hclose, by decide +kernel⟩

end Refinery.Shape
