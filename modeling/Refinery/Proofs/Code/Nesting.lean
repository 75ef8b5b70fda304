import Mathlib.Data.List.Infix
import Mathlib.Data.List.Sublists
import Mathlib.Data.Nat.SuccPred
import Mathlib.Order.Bounds.Basic
import Refinery.Code.Shape
import Refinery.Proofs.Text.Lines

/-!
How deep loops nest in braced code. A place in a text is the text in front of it. The pass over the
lines lists a loop at its word and drops it at the end of a line that leaves the brace depth where
the loop found it or lower, so the nesting that it reports is the greatest number of loop words none
of which has ended with a line in front of the last of them. Where a closing brace is the last thing
that matters on its line, the blocks of these loops are still open; behind a brace on the same line
a loop counts as nested in one that has been closed.
-/

namespace Refinery.Shape

open Text

/-- The brace depth behind a text. -/
def depthOf : Text → Int
  | [] => 0
  | c :: t => braceStep c + depthOf t

/-- The places of the loop words in a text that stands behind `front`. -/
def placesFrom (front : Text) : Text → List Text
  | [] => []
  | c :: t =>
    let rest := placesFrom (front ++ [c]) t
    if (oneOfWords loopWords front.getLast? (c :: t)).isSome then front :: rest else rest

def loopPlaces (code : Text) : List Text := placesFrom [] code

/-- The block of the loop at `s` has been closed at `t`: in between the brace depth has risen above
that of `s` and has come back to it. -/
def Closed (s t : Text) : Prop :=
  ∃ p q, s <+: p ∧ p <+: q ∧ q <+: t ∧ depthOf s < depthOf p ∧ depthOf q = depthOf s

/-- The loop at `s` has ended with a line in front of `t`: at its end the brace depth is that of `s`
or lower. -/
def Ended (s t : Text) : Prop := ∃ e, s <+: e ∧ e ++ ['\n'] <+: t ∧ depthOf e ≤ depthOf s

/-- How many of some places can be taken of which none is `gone` at the last one. -/
def chains (gone : Text → Text → Prop) (places : List Text) : Set Nat :=
  {n | ∃ ts : List Text, ts.Sublist places ∧ (∀ t ∈ ts.getLast?, ∀ s ∈ ts, ¬ gone s t) ∧
    ts.length = n}

instance : DecidableRel Closed := fun s t =>
  decidable_of_iff (∃ q ∈ t.inits, ∃ p ∈ q.inits,
      s <+: p ∧ depthOf s < depthOf p ∧ depthOf q = depthOf s) <| by
    simp only [List.mem_inits]
    constructor
    · rintro ⟨q, hq, p, hp, hs, hrise, hfall⟩
      exact ⟨p, q, hs, hp, hq, hrise, hfall⟩
    · rintro ⟨p, q, hs, hp, hq, hrise, hfall⟩
      exact ⟨q, hq, p, hp, hs, hrise, hfall⟩

instance : DecidableRel Ended := fun s t =>
  decidable_of_iff (∃ e ∈ t.inits, s <+: e ∧ e ++ ['\n'] <+: t ∧ depthOf e ≤ depthOf s) <| by
    simp only [List.mem_inits]
    constructor
    · rintro ⟨e, -, h⟩
      exact ⟨e, h⟩
    · rintro ⟨e, hs, hline, hdepth⟩
      exact ⟨e, (List.prefix_append e ['\n']).trans hline, hs, hline, hdepth⟩

@[simp] theorem depthOf_nil : depthOf [] = 0 := rfl

@[simp] theorem depthOf_append (t u : Text) : depthOf (t ++ u) = depthOf t + depthOf u := by
  induction t with
  | nil => rw [List.nil_append, depthOf_nil, Int.zero_add]
  | cons c t ih => rw [List.cons_append, depthOf, ih, depthOf, Int.add_assoc]

@[simp] theorem depthOf_singleton (c : Char) : depthOf [c] = braceStep c := by
  rw [depthOf, depthOf_nil, Int.add_zero]

/-- A loop word stands in the text or at the front of what is left of it. -/
theorem exists_of_mem_placesFrom {front t place : Text} (h : place ∈ placesFrom front t) :
    ∃ u, place = front ++ u ∧ u <+: t := by
  induction t generalizing front with
  | nil => cases h
  | cons c t ih =>
      have hrest : place ∈ placesFrom (front ++ [c]) t →
          ∃ u, place = front ++ u ∧ u <+: c :: t := by
        intro hmem
        obtain ⟨u, hu, hut⟩ := ih hmem
        refine ⟨c :: u, ?_, (List.prefix_cons_inj c).2 hut⟩
        rw [hu, ← List.append_cons]
      rw [placesFrom] at h
      split at h
      · rcases List.mem_cons.1 h with rfl | h
        · exact ⟨[], (List.append_nil _).symm, List.nil_prefix⟩
        · exact hrest h
      · exact hrest h

theorem prefix_of_mem_loopPlaces {code place : Text} (h : place ∈ loopPlaces code) :
    place <+: code := by
  obtain ⟨u, hu, hcode⟩ := exists_of_mem_placesFrom h
  rwa [hu, List.nil_append]

theorem not_ended_self (s : Text) : ¬ Ended s s := by
  rintro ⟨e, hs, hline, -⟩
  have hlong := hline.length_le
  have hshort := hs.length_le
  rw [List.length_append, List.length_singleton] at hlong
  omega

/-- Nothing ends within a line. -/
theorem ended_append_iff {s t u : Text} (h : '\n' ∉ u) : Ended s (t ++ u) ↔ Ended s t := by
  constructor
  · rintro ⟨e, hs, hline, hdepth⟩
    refine ⟨e, hs, ?_, hdepth⟩
    rcases List.prefix_or_prefix_of_prefix hline (List.prefix_append t u) with hin | ⟨v, hv⟩
    · exact hin
    · rw [← hv, List.prefix_append_right_inj] at hline
      rcases List.eq_nil_or_concat' v with rfl | ⟨w, c, rfl⟩
      · rw [← hv, List.append_nil]
      · have hc : c = '\n' := by
          rw [← List.append_assoc] at hv
          exact List.singleton_injective (List.append_inj_right' hv rfl)
        exact absurd (hline.subset (hc ▸ List.mem_append_right w List.mem_cons_self)) h
  · rintro ⟨e, hs, hline, hdepth⟩
    exact ⟨e, hs, hline.trans (List.prefix_append t u), hdepth⟩

/-- A line ends what it leaves at its brace depth or lower. -/
theorem ended_newline_iff {s t : Text} (h : s <+: t) :
    Ended s (t ++ ['\n']) ↔ Ended s t ∨ depthOf t ≤ depthOf s := by
  constructor
  · rintro ⟨e, hs, hline, hdepth⟩
    rcases List.prefix_concat_iff.1 hline with heq | hin
    · right
      rwa [← List.append_cancel_right heq]
    · exact Or.inl ⟨e, hs, hin, hdepth⟩
  · rintro (⟨e, hs, hline, hdepth⟩ | hdepth)
    · exact ⟨e, hs, hline.trans (List.prefix_append t ['\n']), hdepth⟩
    · exact ⟨t, h, List.prefix_rfl, hdepth⟩

/-! ### Chains -/

section Chains

variable {gone : Text → Text → Prop} {places : List Text} {t : Text} {n : Nat}

theorem isGreatest_chains_nil : IsGreatest (chains gone []) 0 := by
  constructor
  · exact ⟨[], List.Sublist.refl [], nofun, rfl⟩
  · rintro n ⟨ts, hts, -, rfl⟩
    exact hts.length_le

/-- One more place is the last one of a chain of all places that are not gone at it. -/
theorem isGreatest_chains_concat [DecidableRel gone] (h : IsGreatest (chains gone places) n)
    (ht : ¬ gone t t) : IsGreatest (chains gone (places ++ [t]))
      (max n ((places.filter fun s => ¬ gone s t).length + 1)) := by
  constructor
  · rcases le_total n ((places.filter fun s => ¬ gone s t).length + 1) with hle | hle
    · rw [max_eq_right hle]
      refine ⟨(places.filter fun s => ¬ gone s t) ++ [t], List.filter_sublist.append_right [t], ?_,
        by rw [List.length_append, List.length_singleton]⟩
      intro u hu s hs
      rw [List.getLast?_concat, Option.mem_some] at hu
      subst hu
      rcases List.mem_append.1 hs with hs | hs
      · simpa using List.of_mem_filter hs
      · rwa [List.mem_singleton.1 hs]
    · rw [max_eq_left hle]
      obtain ⟨ts, hts, hstand, hlength⟩ := h.1
      exact ⟨ts, hts.trans (List.sublist_append_left places [t]), hstand, hlength⟩
  · rintro m ⟨ts, hts, hstand, rfl⟩
    obtain ⟨us, vs, rfl, hus, hvs⟩ := List.sublist_append_iff.1 hts
    rcases List.sublist_singleton.1 hvs with rfl | rfl
    · rw [List.append_nil] at hstand ⊢
      exact le_max_of_le_left (h.2 ⟨us, hus, hstand, rfl⟩)
    · -- A chain that ends at the new place keeps nothing that is gone there.
      have hlast : ∀ s ∈ us, ¬ gone s t := fun s hs =>
        hstand t (by simp) s (List.mem_append_left [t] hs)
      have hkept : us.filter (fun s => ¬ gone s t) = us :=
        List.filter_eq_self.2 fun s hs => by simpa using hlast s hs
      have hlength := (hus.filter fun s => ¬ gone s t).length_le
      rw [hkept] at hlength
      rw [List.length_append, List.length_singleton]
      exact le_max_of_le_right (by omega)

end Chains

/-- Whether a word of a list begins at a place, in terms of the run of word characters there. -/
theorem isSome_oneOfWords (ws : List Text) (before : Option Char) (t : Text) :
    (oneOfWords ws before t).isSome = (!before.any isWord && !(t.takeWhile isWord).isEmpty &&
      ws.contains (t.takeWhile isWord)) := by
  unfold oneOfWords wholeWord? wordRun
  rw [List.span_eq_takeWhile_dropWhile]
  cases before.any isWord with
  | true => rfl
  | false =>
      cases hrun : t.takeWhile isWord with
      | nil => rfl
      | cons c w =>
          simp only [Bool.false_eq_true, if_false]
          split
          · next hmem => simpa using hmem
          · next hmem => simpa using hmem

/-- No word goes on behind a newline. -/
theorem takeWhile_isWord_append_newline (t u : Text) :
    (t ++ '\n' :: u).takeWhile isWord = t.takeWhile isWord := by
  induction t with
  | nil => rfl
  | cons c t ih =>
      by_cases hc : isWord c = true
      · rw [List.cons_append, List.takeWhile_cons_of_pos hc, List.takeWhile_cons_of_pos hc, ih]
      · rw [List.cons_append, List.takeWhile_cons_of_neg hc, List.takeWhile_cons_of_neg hc]

/-- The loop words of a text are those in front of a newline and those behind it. -/
theorem placesFrom_append_newline (front t u : Text) :
    placesFrom front (t ++ '\n' :: u) =
      placesFrom front t ++ placesFrom (front ++ t ++ ['\n']) u := by
  induction t generalizing front with
  | nil =>
      have hnone : (oneOfWords loopWords front.getLast? ('\n' :: u)).isSome = false := by
        rw [isSome_oneOfWords, List.takeWhile_cons_of_neg (by decide), List.isEmpty_nil,
          Bool.not_true, Bool.and_false, Bool.false_and]
      rw [List.nil_append]
      conv_lhs => rw [placesFrom]
      rw [hnone, List.append_nil]
      rfl
  | cons c t ih =>
      have hsame : (oneOfWords loopWords front.getLast? (c :: t ++ '\n' :: u)).isSome =
          (oneOfWords loopWords front.getLast? (c :: t)).isSome := by
        rw [isSome_oneOfWords, isSome_oneOfWords, takeWhile_isWord_append_newline]
      rw [List.cons_append, placesFrom, ih, ← List.append_cons, ← List.cons_append, hsame,
        placesFrom]
      split
      · rfl
      · rfl

/-- The depths that are recorded for a line are those of its loop words. -/
theorem loopDepths_eq {before : Option Char} {front : Text} {depth : Int}
    (hbefore : before.any isWord = front.getLast?.any isWord) (hdepth : depth = depthOf front)
    (t : Text) : loopDepths before depth t = (placesFrom front t).map depthOf := by
  induction t generalizing before front depth with
  | nil => rfl
  | cons c t ih =>
      have hsame : (oneOfWords loopWords before (c :: t)).isSome =
          (oneOfWords loopWords front.getLast? (c :: t)).isSome := by
        rw [isSome_oneOfWords, isSome_oneOfWords, hbefore]
      have hrest : loopDepths (some c) (depth + braceStep c) t =
          (placesFrom (front ++ [c]) t).map depthOf := by
        apply ih
        · rw [List.getLast?_concat]
        · rw [hdepth, depthOf_append, depthOf_singleton]
      rw [loopDepths, placesFrom, hsame, hrest]
      split
      · rw [List.map_cons, hdepth]
      · rfl

theorem braces_fst (depth peak : Int) (t : Text) :
    (braces depth peak t).1 = depth + depthOf t := by
  induction t generalizing depth peak with
  | nil => rw [braces, depthOf_nil, Int.add_zero]
  | cons c t ih =>
      rw [braces, ih, depthOf, Int.add_assoc]

/-! ### The pass -/

namespace Scan

theorem dedent_depth (s : Scan) (line : Text) : (s.dedent line).depth = s.depth := by
  unfold dedent
  split
  · rfl
  · rfl

theorem foldl_openLoop_depth (indent : Nat) (indented : Bool) (ds : List Int) (s : Scan) :
    (ds.foldl (openLoop indent indented) s).depth = s.depth := by
  induction ds generalizing s with
  | nil => rfl
  | cons d ds ih => exact ih (s.openLoop indent indented d)

theorem close_depth (s : Scan) (line : Text) (colon : Bool) :
    (s.close line colon).depth = s.depth + depthOf line := braces_fst s.depth s.depth line

/-- On a line that ends in no colon all loops are in braces. -/
theorem exists_line_eq (s : Scan) {line : Text} (h : endsWith [':'] (trim line) = false) :
    ∃ n, s.line line = ((loopDepths none s.depth line).foldl (openLoop (indentOf line) false)
      { s.dedent line with functionCount := n }).close line false := by
  have hdepth : loopDepths none (s.dedent line).depth line = loopDepths none s.depth line := by
    rw [dedent_depth]
  simp only [Scan.line, h]
  split
  · exact ⟨(s.dedent line).functionCount + 1, by rw [hdepth]⟩
  · exact ⟨(s.dedent line).functionCount, by rw [hdepth]⟩

end Scan

/-- What the pass holds at a place, when it has met some loop words: the depths of those that have
not ended with a line, and the length of the longest chain. No body is delimited by indentation. -/
structure Tracks (front : Text) (places : List Text) (s : Scan) : Prop where
  within : ∀ p ∈ places, p <+: front
  braced : ∀ l ∈ s.openLoops, l.indented = false
  depths : s.openLoops.map LoopScope.depth = (places.filter fun p => ¬ Ended p front).map depthOf
  greatest : IsGreatest (chains Ended places) s.loopNesting

namespace Tracks

variable {front line : Text} {places : List Text} {s : Scan}

/-- A loop word joins the chain of those that have not ended. -/
theorem openLoop (h : Tracks front places s) (indent : Nat) :
    Tracks front (places ++ [front]) (s.openLoop indent false (depthOf front)) := by
  have hkept : (places ++ [front]).filter (fun p => ¬ Ended p front) =
      places.filter (fun p => ¬ Ended p front) ++ [front] := by
    rw [List.filter_append, List.filter_cons_of_pos (by simpa using not_ended_self front),
      List.filter_nil]
  have hlength : (s.openLoops ++ [(⟨depthOf front, indent, false⟩ : LoopScope)]).length =
      (places.filter fun p => ¬ Ended p front).length + 1 := by
    have hcount := congrArg List.length h.depths
    rw [List.length_map, List.length_map] at hcount
    rw [List.length_append, List.length_singleton, hcount]
  constructor
  · intro p hp
    rcases List.mem_append.1 hp with hp | hp
    · exact h.within p hp
    · rw [List.mem_singleton.1 hp]
  · intro l hl
    rcases List.mem_append.1 hl with hl | hl
    · exact h.braced l hl
    · rw [List.mem_singleton.1 hl]
  · rw [hkept, List.map_append, ← h.depths]
    exact List.map_append
  · have hnext := isGreatest_chains_concat h.greatest (not_ended_self front)
    rw [← hlength] at hnext
    exact hnext

theorem move (h : Tracks front places s) {t : Text} (ht : '\n' ∉ t) :
    Tracks (front ++ t) places s := by
  refine ⟨fun p hp => (h.within p hp).trans (List.prefix_append front t), h.braced, ?_, h.greatest⟩
  rw [h.depths]
  refine congrArg (List.map depthOf) (List.filter_congr fun p _ => ?_)
  rw [decide_eq_decide, ended_append_iff ht]

/-- The loop words of a line are met one after the other. -/
theorem foldl_openLoop (h : Tracks front places s) (indent : Nat) {t : Text} (ht : '\n' ∉ t) :
    Tracks (front ++ t) (places ++ placesFrom front t)
      (((placesFrom front t).map depthOf).foldl (Scan.openLoop indent false) s) := by
  induction t generalizing front places s with
  | nil =>
      rw [List.append_nil, placesFrom, List.append_nil]
      exact h
  | cons c t ih =>
      have hc : '\n' ∉ [c] := fun hm => ht (List.mem_singleton.1 hm ▸ List.mem_cons_self)
      have hrest : '\n' ∉ t := fun hm => ht (List.mem_cons_of_mem c hm)
      rw [List.append_cons front, placesFrom]
      split
      · rw [List.append_cons places]
        exact ih ((h.openLoop indent).move hc) hrest
      · exact ih (h.move hc) hrest

/-- Indentation closes no loop in braces. -/
theorem dedent (h : Tracks front places s) (line : Text) : Tracks front places (s.dedent line) := by
  unfold Scan.dedent
  split
  · exact h
  · have hall : (s.openLoops.filter fun l => !l.indented || decide (l.indent < indentOf line)) =
        s.openLoops :=
      List.filter_eq_self.2 fun l hl => by rw [h.braced l hl, Bool.not_false, Bool.true_or]
    refine ⟨h.within, ?_, ?_, h.greatest⟩
    · simp only [hall]
      exact h.braced
    · simp only [hall]
      exact h.depths

/-- The end of a line drops the loops that the line ends. -/
theorem close (h : Tracks front places s) (hdepth : s.depth + depthOf line = depthOf front)
    (colon : Bool) : Tracks (front ++ ['\n']) places (s.close line colon) := by
  have hfst : (braces s.depth s.depth line).1 = depthOf front := by rw [braces_fst, hdepth]
  have hloops : (s.close line colon).openLoops =
      s.openLoops.filter ((fun d => decide (d < depthOf front)) ∘ LoopScope.depth) := by
    rw [← hfst]
    exact List.filter_congr fun l hl => by rw [h.braced l hl, Bool.false_or]; rfl
  refine ⟨fun p hp => (h.within p hp).trans (List.prefix_append front _), ?_, ?_, h.greatest⟩
  · intro l hl
    rw [hloops] at hl
    exact h.braced l (List.mem_of_mem_filter hl)
  · rw [hloops, ← List.filter_map, h.depths, List.filter_map, List.filter_filter]
    refine congrArg (List.map depthOf) (List.filter_congr fun p hp => ?_)
    rw [Function.comp_apply, ← Bool.decide_and, decide_eq_decide, ended_newline_iff (h.within p hp),
      not_or, not_le, and_comm]

/-- One line of the pass. -/
theorem step (h : Tracks front places s) (hdepth : s.depth = depthOf front)
    (hword : front.getLast?.any isWord = false) (hline : '\n' ∉ line)
    (hcolon : endsWith [':'] (trim line) = false) :
    Tracks (front ++ line ++ ['\n']) (places ++ placesFrom front line) (s.line line) ∧
      (s.line line).depth = depthOf (front ++ line ++ ['\n']) := by
  obtain ⟨n, hn⟩ := s.exists_line_eq hcolon
  have hloops : loopDepths none s.depth line = (placesFrom front line).map depthOf :=
    loopDepths_eq (hword ▸ rfl) hdepth line
  have hbehind : s.depth + depthOf line = depthOf (front ++ line) := by
    rw [hdepth, depthOf_append]
  rw [hn, hloops]
  constructor
  · have hopen : Tracks front places { s.dedent line with functionCount := n } :=
      ⟨(h.dedent line).within, (h.dedent line).braced, (h.dedent line).depths,
        (h.dedent line).greatest⟩
    apply (hopen.foldl_openLoop (indentOf line) hline).close
    rw [Scan.foldl_openLoop_depth, ← hbehind]
    exact congrArg (· + depthOf line) (s.dedent_depth line)
  · rw [Scan.close_depth, Scan.foldl_openLoop_depth, depthOf_append, ← hbehind]
    exact (congrArg (· + depthOf line) (s.dedent_depth line)).trans (Int.add_zero _).symm

/-- The pass over the lines of a text. By induction on the lines: each begins behind a newline, where
no word goes on, at the depth that the lines in front of it leave. -/
theorem run {ls : List Text} (h : Tracks front places s) (hdepth : s.depth = depthOf front)
    (hword : front.getLast?.any isWord = false)
    (hls : ∀ l ∈ ls, '\n' ∉ l ∧ endsWith [':'] (trim l) = false) :
    IsGreatest (chains Ended (places ++ placesFrom front (unlines ls)))
      (ls.foldl Scan.line s).loopNesting := by
  induction ls generalizing front places s with
  | nil =>
      rw [unlines_nil, placesFrom, List.append_nil]
      exact h.greatest
  | cons l ls ih =>
      obtain ⟨hline, hcolon⟩ := hls l List.mem_cons_self
      obtain ⟨hnext, hdepth'⟩ := h.step hdepth hword hline hcolon
      by_cases hnil : ls = []
      · -- No newline stands behind the last line, but no loop word is met behind it either.
        rw [hnil, unlines_singleton]
        exact hnext.greatest
      · rw [unlines_cons l hnil, placesFrom_append_newline, ← List.append_assoc]
        apply ih hnext hdepth'
        · rw [List.getLast?_concat]
          rfl
        · exact fun m hm => hls m (List.mem_cons_of_mem l hm)

end Tracks

/-- `P` holds of whatever stands behind a closing brace of the last line of a text. -/
def Behind (P : Text → Prop) (t : Text) : Prop := ∀ u, '\x7d' :: u <:+ t → '\n' ∉ u → P u

/-- No loop stands behind a closing brace of its line, and no line ends deeper than it stood behind
one of its closing braces. -/
def Settled (code : Text) : Prop :=
  (∀ t ∈ loopPlaces code, Behind (fun _ => False) t) ∧
    ∀ e, e ++ ['\n'] <+: code → Behind (fun u => depthOf u ≤ 0) e

instance (P : Text → Prop) [DecidablePred P] : DecidablePred (Behind P) := fun t =>
  decidable_of_iff (∀ v ∈ t.tails, v.head? = some '\x7d' → '\n' ∉ v.tail → P v.tail) <| by
    simp only [List.mem_tails]
    constructor
    · intro h u hu
      exact h ('\x7d' :: u) hu rfl
    · intro h v hv hhead
      obtain ⟨u, rfl⟩ := List.head?_eq_some_iff.1 hhead
      exact h u hv

instance : DecidablePred Settled := fun code =>
  decidable_of_iff ((∀ t ∈ loopPlaces code, Behind (fun _ => False) t) ∧
      ∀ e ∈ code.inits, e ++ ['\n'] <+: code → Behind (fun u => depthOf u ≤ 0) e) <| by
    simp only [List.mem_inits]
    refine and_congr_right fun _ => ⟨fun h e he => ?_, fun h e _ => h e⟩
    exact h e ((List.prefix_append e ['\n']).trans he) he

/-- A depth that falls falls at a closing brace. -/
theorem exists_closing_brace {p q : Text} {d : Int} (h : p <+: q) (hp : d < depthOf p)
    (hq : depthOf q ≤ d) :
    ∃ r, p <+: r ∧ r ++ ['\x7d'] <+: q ∧ depthOf (r ++ ['\x7d']) ≤ d := by
  induction q using List.reverseRecOn with
  | nil =>
      rw [List.prefix_nil.1 h] at hp
      omega
  | append_singleton q c ih =>
      rcases List.prefix_concat_iff.1 h with rfl | hin
      · omega
      · by_cases hd : depthOf q ≤ d
        · obtain ⟨r, hpr, hr, hlow⟩ := ih hin hd
          exact ⟨r, hpr, hr.trans (List.prefix_append q [c]), hlow⟩
        · have hc : c = '\x7d' := by
            by_contra hne
            have hstep : 0 ≤ braceStep c := by
              unfold braceStep
              split <;> simp_all
            rw [depthOf_append, depthOf_singleton] at hq
            omega
          subst hc
          exact ⟨q, hin, List.prefix_rfl, hq⟩

/-- Where no line goes on behind a closing brace, a loop whose block has been closed has ended. -/
theorem Settled.ended_of_closed {code s t : Text} (h : Settled code) (ht : t ∈ loopPlaces code)
    (hclosed : Closed s t) : Ended s t := by
  obtain ⟨p, q, hs, hpq, hq, hrise, hfall⟩ := hclosed
  obtain ⟨r, hpr, hrq, hlow⟩ := exists_closing_brace hpq hrise hfall.le
  obtain ⟨v, rfl⟩ := hrq.trans hq
  have hbrace : '\x7d' :: v <:+ r ++ ['\x7d'] ++ v := by
    rw [← List.append_cons]
    exact List.suffix_append r ('\x7d' :: v)
  have hnewline : '\n' ∈ v := by
    by_contra hv
    exact h.1 _ ht v hbrace hv
  -- The line of the closing brace ends in front of `t`, at the depth of the brace or lower.
  obtain ⟨u, w, rfl, hu⟩ := List.eq_append_cons_of_mem hnewline
  have hline : r ++ '\x7d' :: u ++ ['\n'] <+: r ++ ['\x7d'] ++ (u ++ '\n' :: w) :=
    ⟨w, by simp⟩
  have hend : depthOf u ≤ 0 :=
    h.2 _ (hline.trans (prefix_of_mem_loopPlaces ht)) u (List.suffix_append r _) hu
  refine ⟨r ++ '\x7d' :: u, hs.trans (hpr.trans (List.prefix_append r _)), hline, ?_⟩
  rw [List.append_cons, depthOf_append]
  omega

/-- **What the reported nesting is.** In code of which no line ends in a colon it is the greatest
number of loop words none of which has ended with a line at the last of them. Where no loop stands
behind a closing brace of its line and no line ends deeper than behind one of its closing braces, it
is at most the greatest number of loop words none of which has been closed at the last one. -/
theorem loopNesting_isGreatest (code : Text)
    (hcolon : ∀ l ∈ lines code, endsWith [':'] (trim l) = false) :
    IsGreatest (chains Ended (loopPlaces code)) (ofText code).loopNesting ∧
      (Settled code → ∃ n, IsGreatest (chains Closed (loopPlaces code)) n ∧
        (ofText code).loopNesting ≤ n) := by
  have hstart : Tracks [] [] {} := ⟨nofun, nofun, rfl, isGreatest_chains_nil⟩
  have hgreatest : IsGreatest (chains Ended (loopPlaces code)) (ofText code).loopNesting := by
    have hrun := hstart.run rfl rfl fun l hl => ⟨newline_not_mem_lines hl, hcolon l hl⟩
    rwa [unlines_lines] at hrun
  refine ⟨hgreatest, fun hsettled => ?_⟩
  obtain ⟨ts, hts, hstand, hlength⟩ := hgreatest.1
  have hmem : (ofText code).loopNesting ∈ chains Closed (loopPlaces code) := by
    refine ⟨ts, hts, fun t ht s hs hclosed => hstand t ht s hs ?_, hlength⟩
    exact hsettled.ended_of_closed (hts.subset (List.mem_of_getLast? ht)) hclosed
  have hbound : BddAbove (chains Closed (loopPlaces code)) := by
    refine ⟨(loopPlaces code).length, ?_⟩
    rintro n ⟨us, hus, -, rfl⟩
    exact hus.length_le
  obtain ⟨n, hn⟩ := hbound.exists_isGreatest_of_nonempty ⟨_, hmem⟩
  exact ⟨n, hn, hn.2 hmem⟩

/-- Two loops in turn on lines of their own, the first with a loop in it. -/
theorem loopNesting_of_loops_in_turn :
    let code := "for (a) \x7b\n  do \x7b\n  \x7d\n\x7d\nfor (b) \x7b\n\x7d".toList
    (∀ l ∈ lines code, endsWith [':'] (trim l) = false) ∧ Settled code ∧
      IsGreatest (chains Ended (loopPlaces code)) (ofText code).loopNesting ∧
      ∃ n, IsGreatest (chains Closed (loopPlaces code)) n ∧ (ofText code).loopNesting ≤ n := by
  intro code
  have hcolon : ∀ l ∈ lines code, endsWith [':'] (trim l) = false := by decide +kernel
  have hsettled : Settled code := by decide +kernel
  have hmain := loopNesting_isGreatest code hcolon
  exact ⟨hcolon, hsettled, hmain.1, hmain.2 hsettled⟩

/-- Two loops in turn on one line count as nested. -/
theorem loops_in_turn_nested_on_one_line :
    let code := "for(a)\x7b\x7dfor(b)\x7b\x7d".toList
    (∀ l ∈ lines code, endsWith [':'] (trim l) = false) ∧ (ofText code).loopNesting = 2 ∧
      IsGreatest (chains Closed (loopPlaces code)) 1 := by
  intro code
  have hturn : ∀ ts ∈ (loopPlaces code).sublists,
      (∀ t ∈ ts.getLast?, ∀ s ∈ ts, ¬ Closed s t) → ts.length ≤ 1 := by decide +kernel
  refine ⟨by decide +kernel, by decide +kernel, ?_, ?_⟩
  · exact ⟨[[]], by decide +kernel, by decide +kernel, rfl⟩
  · rintro n ⟨ts, hts, hstand, rfl⟩
    exact hturn ts (List.mem_sublists.2 hts) hstand

end Refinery.Shape
