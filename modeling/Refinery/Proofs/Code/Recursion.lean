import Refinery.Code.Recursion
import Refinery.Proofs.Code.Nesting
import Refinery.Proofs.Text.Places

/-!
What a verdict on recursion says. A name is called at a place where it begins a word and a
parenthesis follows it, and the verdict is taken on the numbers of these places: some function seems
to call itself if one of the names has two of them, wherever it stands among the functions. Divide
and conquer is judged by one name alone, the first that has two; where that name has no third, a
later one with three is overlooked.
-/

namespace Refinery.Recursion

open Text

/-- The places of a text at which a name begins a word and is followed by a parenthesis, blanks
aside. -/
def callPlaces (code name : Text) : Set Text :=
  {front | front.getLast?.any isWord = false ∧
    ∃ gap rest, code = front ++ (name ++ (gap ++ '(' :: rest)) ∧ blank gap = true}

theorem isSome_char?_trimLeft {c : Char} (hc : isBlank c = false) (t : Text) :
    (char? c (trimLeft t)).isSome = true ↔
      ∃ gap rest, t = gap ++ c :: rest ∧ blank gap = true := by
  constructor
  · intro h
    obtain ⟨gap, hgap, ht⟩ := exists_trimLeft t
    cases hrest : trimLeft t with
    | nil => rw [hrest] at h; cases h
    | cons d rest =>
        rw [hrest, char?] at h
        split at h
        · next hd =>
            rw [hrest, eq_of_beq hd] at ht
            exact ⟨gap, rest, ht, hgap⟩
        · cases h
  · rintro ⟨gap, rest, rfl, hgap⟩
    rw [trimLeft_append_cons _ _ hc, trimLeft_eq_nil_iff.2 hgap, List.nil_append, char?,
      if_pos (beq_self_eq_true c)]
    rfl

/-- A name that begins with a word character begins a word where no word character stands in
front of it. -/
theorem boundary_append {name : Text} (hname : name.head?.any isWord = true)
    (before : Option Char) (u : Text) : boundary before (name ++ u) = !before.any isWord := by
  obtain ⟨c, cs, rfl⟩ := List.exists_cons_of_ne_nil (l := name) (by rintro rfl; cases hname)
  have hc : isWord c = true := hname
  rw [boundary, List.cons_append, List.head?_cons, Option.any_some, hc]
  cases before.any isWord <;> rfl

theorem isSome_call {name : Text} (hname : name.head?.any isWord = true) (before : Option Char)
    (t : Text) : (call name before t).isSome = true ↔ before.any isWord = false ∧
      ∃ gap rest, t = name ++ (gap ++ '(' :: rest) ∧ blank gap = true := by
  constructor
  · intro h
    obtain ⟨answer, hcall⟩ := Option.isSome_iff_exists.1 h
    simp only [call, bind, pure, Option.bind_eq_some_iff, Option.guard_eq_some'] at hcall
    obtain ⟨-, hword, u, hu, v, hv, -⟩ := hcall
    obtain rfl := after?_eq_some_iff.1 hu
    obtain ⟨gap, rest, rfl, hgap⟩ :=
      (isSome_char?_trimLeft (by decide) u).1 (Option.isSome_iff_exists.2 ⟨v, hv⟩)
    rw [boundary_append hname, Bool.not_eq_true'] at hword
    exact ⟨hword, gap, rest, rfl, hgap⟩
  · rintro ⟨hword, gap, rest, rfl, hgap⟩
    obtain ⟨v, hv⟩ := Option.isSome_iff_exists.1
      ((isSome_char?_trimLeft (c := '(') (by decide) _).2 ⟨gap, rest, rfl, hgap⟩)
    refine Option.isSome_iff_exists.2 ⟨(), ?_⟩
    simp only [call, bind, pure, Option.bind_eq_some_iff, Option.guard_eq_some']
    exact ⟨(), by rw [boundary_append hname, hword]; rfl, _, after?_append name _, v, hv, trivial⟩

/-- A name is counted once for each place at which it is called. -/
theorem callCount_eq {name : Text} (hname : name.head?.any isWord = true) (code : Text) :
    callCount code name = (callPlaces code name).ncard := by
  have hplaces : callPlaces code name = placesOf (call name) [] code := by
    ext front
    constructor
    · rintro ⟨hword, gap, rest, rfl, hgap⟩
      refine ⟨name ++ (gap ++ '(' :: rest), rfl, by simp, ?_⟩
      exact (isSome_call hname _ _).2 ⟨hword, gap, rest, rfl, hgap⟩
    · rintro ⟨w, rfl, -, hcalled⟩
      obtain ⟨hword, gap, rest, rfl, hgap⟩ := (isSome_call hname _ _).1 hcalled
      exact ⟨hword, gap, rest, rfl, hgap⟩
  rw [hplaces, callCount, ← length_everyFrom]
  rfl

theorem isWord_of_nameStart {c : Char} (h : nameStart c = true) : isWord c = true := by
  have hlow : c.toNat < 0x80 := by
    rcases Bool.or_eq_true_iff.1 h with halpha | hunderscore
    · rcases Bool.or_eq_true_iff.1 halpha with hupper | hlower
      · have hle : c.val ≤ 'Z'.val := (of_decide_eq_true hupper).2
        exact Nat.lt_of_le_of_lt (UInt32.le_iff_toNat_le.1 hle) (by decide)
      · have hle : c.val ≤ 'z'.val := of_decide_eq_true (Bool.and_eq_true_iff.1 hlower).2
        exact Nat.lt_of_le_of_lt (UInt32.le_iff_toNat_le.1 hle) (by decide)
    · rw [eq_of_beq hunderscore]
      decide
  rw [nameStart, Bool.or_eq_true] at h
  rw [isWord, if_pos hlow, Bool.or_eq_true]
  exact h.imp_left fun halpha => by rw [Char.isAlphanum, halpha, Bool.true_or]

theorem isWord_head_of_plainName? {t name rest : Text} (h : plainName? t = some (name, rest)) :
    name.head?.any isWord = true := by
  cases t with
  | nil => cases h
  | cons c t =>
      rw [plainName?, name?] at h
      split at h
      · next hc =>
          obtain ⟨rfl, -⟩ := Prod.mk.inj (Option.some.inj h)
          exact isWord_of_nameStart hc
      · cases h

theorem isWord_head_of_definedBy {word t name : Text} {before : Option Char}
    (h : definedBy word before t = some name) : name.head?.any isWord = true := by
  simp only [definedBy, bind, pure, Option.bind_eq_some_iff] at h
  obtain ⟨-, -, t₁, -, t₂, -, pair, hpair, t₃, -, hname⟩ := h
  exact Option.some.inj hname ▸ isWord_head_of_plainName? hpair

theorem isWord_head_of_method {t name : Text} {before : Option Char} {n : Nat}
    (h : method before t = some (name, n)) : name.head?.any isWord = true := by
  simp only [method, bind, pure, Option.bind_eq_some_iff] at h
  obtain ⟨-, -, pair, hpair, t₁, -, pair', -, t₂, -, hname⟩ := h
  obtain ⟨rfl, -⟩ := Prod.mk.inj (Option.some.inj hname)
  exact isWord_head_of_plainName? hpair

theorem isWord_head_of_mem_candidates {code name : Text} (h : name ∈ candidates code) :
    name.head?.any isWord = true := by
  simp only [candidates, List.mem_eraseDups, List.mem_filter, List.mem_append] at h
  obtain ⟨(hdefined | hdefined) | hmethod, -⟩ := h
  · obtain ⟨b, u, hu⟩ := exists_of_mem_everyFrom hdefined
    exact isWord_head_of_definedBy hu
  · obtain ⟨b, u, hu⟩ := exists_of_mem_everyFrom hdefined
    exact isWord_head_of_definedBy hu
  · obtain ⟨b, u, n, hu⟩ := exists_of_mem_pieces hmethod
    exact isWord_head_of_method hu

theorem callCount_of_mem_candidates {code name : Text} (h : name ∈ candidates code) :
    callCount code name = (callPlaces code name).ncard :=
  callCount_eq (isWord_head_of_mem_candidates h) code

/-- A word stands in a text with no word character on either side. -/
def HasWord (word t : Text) : Prop :=
  ∃ front rest, t = front ++ (word ++ rest) ∧ front.getLast?.any isWord = false ∧
    rest.head?.any isWord = false

theorem oneOfWords_nil (ws : List Text) (before : Option Char) :
    oneOfWords ws before [] = none := by
  rw [← Option.isNone_iff_eq_none, ← Option.not_isSome, Shape.isSome_oneOfWords]
  simp

/-- A search for whole words finds the words of the list that stand in the text. -/
theorem occurs_oneOfWords_iff {ws : List Text} (hws : ∀ w ∈ ws, w ≠ [] ∧ w.all isWord = true)
    (t : Text) : occurs (oneOfWords ws) t = true ↔ ∃ word ∈ ws, HasWord word t := by
  rw [occurs_iff (oneOfWords_nil ws)]
  constructor
  · rintro ⟨front, w, rfl, -, hword⟩
    simp only [Shape.isSome_oneOfWords, List.nil_append, Bool.and_eq_true, Bool.not_eq_true',
      List.contains_iff_mem] at hword
    obtain ⟨⟨hfront, -⟩, hmem⟩ := hword
    refine ⟨w.takeWhile isWord, hmem, front, w.dropWhile isWord, ?_, hfront, ?_⟩
    · rw [List.takeWhile_append_dropWhile]
    · have hstop := List.head?_dropWhile_not isWord w
      cases hhead : (w.dropWhile isWord).head? with
      | none => rfl
      | some c =>
          rw [hhead] at hstop
          rwa [Option.any_some]
  · rintro ⟨word, hmem, front, rest, rfl, hfront, hrest⟩
    obtain ⟨hne, hword⟩ := hws word hmem
    have hall := List.all_eq_true.1 hword
    have hrun : (word ++ rest).takeWhile isWord = word := by
      cases rest with
      | nil => rw [List.append_nil, List.takeWhile_eq_self_iff.2 hall]
      | cons c rest =>
          have hc : ¬ isWord c = true := by simpa using hrest
          rw [List.takeWhile_append_of_pos hall, List.takeWhile_cons_of_neg hc, List.append_nil]
    refine ⟨front, word ++ rest, rfl, by simp [hne], ?_⟩
    rw [Shape.isSome_oneOfWords, List.nil_append, hfront, hrun, List.isEmpty_eq_false_iff.2 hne,
      List.contains_iff_mem.2 hmem]
    rfl

/-- Case aside, the text has a word that names a split point. -/
def HasSplitPoint (code : Text) : Prop := ∃ word ∈ splitWords, HasWord word (folded code)

theorem hasSplitPoint_eq_true_iff (code : Text) :
    hasSplitPoint code = true ↔ HasSplitPoint code :=
  occurs_oneOfWords_iff (by decide) (folded code)

/-- The name that decides: the first of the candidates with two calls or more. -/
def Decides (code name : Text) : Prop :=
  ∃ before after, candidates code = before ++ name :: after ∧
    recursiveCalls ≤ (callPlaces code name).ncard ∧
    ∀ n ∈ before, (callPlaces code n).ncard < recursiveCalls

theorem Decides.mem {code name : Text} (h : Decides code name) : name ∈ candidates code := by
  obtain ⟨before, after, heq, -, -⟩ := h
  rw [heq]
  exact List.mem_append_right before List.mem_cons_self

theorem decides_iff {code name : Text} : Decides code name ↔
    ((candidates code).find? fun n => recursiveCalls ≤ callCount code n) = some name := by
  rw [List.find?_eq_some_iff_append]
  constructor
  · intro h
    have hmem := h.mem
    obtain ⟨before, after, heq, hcalls, hbefore⟩ := h
    refine ⟨?_, before, after, heq, fun n hn => ?_⟩
    · rwa [decide_eq_true_iff, callCount_of_mem_candidates hmem]
    · have hn' : n ∈ candidates code := heq ▸ List.mem_append_left _ hn
      simpa [callCount_of_mem_candidates hn'] using hbefore n hn
  · rintro ⟨hcalls, before, after, heq, hbefore⟩
    have hmem : name ∈ candidates code := by
      rw [heq]
      exact List.mem_append_right before List.mem_cons_self
    refine ⟨before, after, heq, ?_, fun n hn => ?_⟩
    · rwa [decide_eq_true_iff, callCount_of_mem_candidates hmem] at hcalls
    · have hn' : n ∈ candidates code := heq ▸ List.mem_append_left _ hn
      simpa [callCount_of_mem_candidates hn'] using hbefore n hn

/-- Some name decides if one has two calls, whatever stands in front of it. -/
theorem exists_decides_iff (code : Text) : (∃ name, Decides code name) ↔
    ∃ name ∈ candidates code, recursiveCalls ≤ (callPlaces code name).ncard := by
  simp only [decides_iff, ← Option.isSome_iff_exists, List.find?_isSome, decide_eq_true_iff]
  refine exists_congr fun name => and_congr_right fun hname => ?_
  rw [callCount_of_mem_candidates hname]

theorem ofText_of_decides {code name : Text} (h : Decides code name) : ofText code =
    ⟨true, divideCalls ≤ (callPlaces code name).ncard && hasSplitPoint code⟩ := by
  rw [ofText, decides_iff.1 h, ← callCount_of_mem_candidates h.mem]

theorem ofText_of_undecided {code : Text} (h : ¬ ∃ name, Decides code name) : ofText code = {} := by
  simp only [decides_iff, ← Option.isSome_iff_exists, Option.not_isSome_iff_eq_none] at h
  rw [ofText, h]

/-- **What a verdict on recursion says.** Some function seems to call itself exactly if one of the
candidates is called at two places or more, wherever it stands among them. Divide and conquer is
seen exactly if there is a split point and the first candidate with two calls has a third. This tells
whether any candidate at all has three calls unless there is a split point, one has three, and the
first with two has not. -/
theorem ofText_iff (code : Text) :
    ((ofText code).isRecursive = true ↔
      ∃ name ∈ candidates code, recursiveCalls ≤ (callPlaces code name).ncard) ∧
    ((ofText code).isDivideAndConquer = true ↔
      HasSplitPoint code ∧ ∃ name, Decides code name ∧ divideCalls ≤ (callPlaces code name).ncard) ∧
    (((ofText code).isDivideAndConquer = true ↔ HasSplitPoint code ∧
        ∃ name ∈ candidates code, divideCalls ≤ (callPlaces code name).ncard) ↔
      (HasSplitPoint code → ∀ name ∈ candidates code, divideCalls ≤ (callPlaces code name).ncard →
        ∃ first, Decides code first ∧ divideCalls ≤ (callPlaces code first).ncard)) := by
  have hdivide : (ofText code).isDivideAndConquer = true ↔ HasSplitPoint code ∧
      ∃ name, Decides code name ∧ divideCalls ≤ (callPlaces code name).ncard := by
    rw [← hasSplitPoint_eq_true_iff]
    constructor
    · intro h
      by_cases hdecided : ∃ name, Decides code name
      · obtain ⟨name, hname⟩ := hdecided
        rw [ofText_of_decides hname, Bool.and_eq_true, decide_eq_true_iff] at h
        exact ⟨h.2, name, hname, h.1⟩
      · rw [ofText_of_undecided hdecided] at h
        cases h
    · rintro ⟨hsplit, name, hname, hcalls⟩
      rw [ofText_of_decides hname, hsplit, Bool.and_true, decide_eq_true_iff]
      exact hcalls
  refine ⟨?_, hdivide, ?_⟩
  · rw [← exists_decides_iff]
    by_cases hdecided : ∃ name, Decides code name
    · obtain ⟨name, hname⟩ := hdecided
      rw [ofText_of_decides hname]
      exact iff_of_true rfl ⟨name, hname⟩
    · rw [ofText_of_undecided hdecided]
      exact iff_of_false Bool.false_ne_true hdecided
  · rw [hdivide]
    constructor
    · intro h hsplit name hname hcalls
      exact (h.2 ⟨hsplit, name, hname, hcalls⟩).2
    · intro h
      refine and_congr_right fun hsplit => ⟨?_, ?_⟩
      · rintro ⟨name, hname, hcalls⟩
        exact ⟨name, hname.mem, hcalls⟩
      · rintro ⟨name, hname, hcalls⟩
        exact h hsplit name hname hcalls

/-- A function that is called once hides the search behind it, which would have been judged divide
and conquer if it had been defined first. -/
theorem helper_hides_search :
    let helper : Text := "function show(x) \x7b print(x); \x7d\n".toList
    let search : Text :=
      "function find(a, lo, hi) \x7b return find(a, lo) || find(a, hi); \x7d\n".toList
    let use : Text := "show(find(a));".toList
    let code := helper ++ search ++ use
    (ofText code).isDivideAndConquer = false ∧ HasSplitPoint code ∧
      (∃ name ∈ candidates code, divideCalls ≤ (callPlaces code name).ncard) ∧
      (ofText (search ++ helper ++ use)).isDivideAndConquer = true := by
  intro helper search use code
  have hname : "find".toList ∈ candidates code := by decide +kernel
  have hcalls : divideCalls ≤ callCount code "find".toList := by decide +kernel
  rw [callCount_of_mem_candidates hname] at hcalls
  exact ⟨by decide +kernel, (hasSplitPoint_eq_true_iff code).1 (by decide +kernel),
    ⟨_, hname, hcalls⟩, by decide +kernel⟩

end Refinery.Recursion
