import Refinery.Json.Printer
import Refinery.Json.Reader

/-!
Printed strings read back. Whatever characters a string has, the reader takes its printed form apart
again into the same characters; so does it the objects and arrays of one value that strings are sent
in.
-/

namespace Refinery.Json

open Printer Reader

theorem hexDigit?_hexChar : ∀ n < 16, hexDigit? (hexChar n) = some n := by decide

theorem hex4?_hex4 {n : Nat} (h : n < 0x10000) (t : Text) : hex4? (hex4 n ++ t) = some (n, t) := by
  have hdigits : ((n / 4096 % 16 * 16 + n / 256 % 16) * 16 + n / 16 % 16) * 16 + n % 16 = n := by
    omega
  have hdigit : ∀ m, hexDigit? (hexChar (m % 16)) = some (m % 16) :=
    fun m => hexDigit?_hexChar _ (Nat.mod_lt m (by decide))
  show (do
    let a ← hexDigit? (hexChar (n / 4096 % 16))
    let b ← hexDigit? (hexChar (n / 256 % 16))
    let c ← hexDigit? (hexChar (n / 16 % 16))
    let d ← hexDigit? (hexChar (n % 16))
    return (((a * 16 + b) * 16 + c) * 16 + d, t)) = some (n, t)
  simp only [hdigit, Option.bind_eq_bind, Option.bind_some, hdigits, Option.pure_def]

theorem toNat_lt (c : Char) : c.toNat < 0x110000 := by
  rcases c.valid with h | h
  · exact Nat.lt_trans h (by decide)
  · exact h.2

/-- No character is half of a pair. -/
theorem not_surrogate (c : Char) : c.toNat < 0xD800 ∨ 0xDFFF < c.toNat := by
  rcases c.valid with h | h
  · exact Or.inl h
  · exact Or.inr h.1

theorem unicodeEscape_unit {c : Char} (h : c.toNat < 0x10000) (slash : Text) {rest : Text}
    (hrest : rest ≠ []) : unicodeEscape slash (hex4 c.toNat ++ rest) = .ok (c, rest) := by
  have hc := not_surrogate c
  have hhigh : (decide (0xD800 ≤ c.toNat) && decide (c.toNat ≤ 0xDBFF)) = false := by
    simp only [Bool.and_eq_false_iff, decide_eq_false_iff_not]
    omega
  have hunit : unitChar c.toNat = c := by
    rw [unitChar, if_neg (by simp only [Bool.and_eq_true, decide_eq_true_eq]; omega)]
    exact Char.ofNat_toNat c
  cases rest with
  | nil => exact absurd rfl hrest
  | cons d rest =>
      unfold unicodeEscape
      simp only [hex4?_hex4 h, hhigh, hunit]
      rfl

theorem unicodeEscape_pair {c : Char} {high low : Nat} (h : 0x10000 ≤ c.toNat)
    (hhigh : high = 0xD800 + (c.toNat - 0x10000) / 0x400)
    (hlow : low = 0xDC00 + (c.toNat - 0x10000) % 0x400) (slash : Text) {rest : Text}
    (hrest : rest ≠ []) :
    unicodeEscape slash (hex4 high ++ (unitEscape low ++ rest)) = .ok (c, rest) := by
  have hc := toNat_lt c
  have hhighRange : (decide (0xD800 ≤ high) && decide (high ≤ 0xDBFF)) = true := by
    simp only [Bool.and_eq_true, decide_eq_true_eq]
    omega
  have hlowRange : (decide (0xDC00 ≤ low) && decide (low ≤ 0xDFFF)) = true := by
    simp only [Bool.and_eq_true, decide_eq_true_eq]
    omega
  have hpair : Char.ofNat (0x10000 + (high - 0xD800) * 0x400 + (low - 0xDC00)) = c := by
    rw [show 0x10000 + (high - 0xD800) * 0x400 + (low - 0xDC00) = c.toNat by omega]
    exact Char.ofNat_toNat c
  have hlong : ¬ (hex4 low ++ rest).length ≤ 4 := by
    have hpos := List.length_pos_iff.2 hrest
    simp only [List.length_append, hex4, List.length_cons, List.length_nil]
    omega
  unfold unicodeEscape unitEscape
  simp only [hex4?_hex4 (show high < 0x10000 by omega), List.cons_append, hhighRange, if_true,
    hlong, if_false, hex4?_hex4 (show low < 0x10000 by omega), hlowRange, hpair]

section Steps

variable (opening : Text) (fuel : Nat) {c : Char} {rest : Text}

theorem string_escape {e : Char} (he : escaped? e = some c) (hu : e ≠ 'u') :
    string opening (fuel + 1) ('\x5c' :: e :: rest) =
      (string opening fuel rest).map fun r => (c :: r.1, r.2) := by
  have hstep : string opening (fuel + 1) ('\x5c' :: e :: rest) =
      (string opening fuel rest).bind fun r => .ok (c :: r.1, r.2) := by
    rw [string.eq_def]
    simp only [he]
    rfl
  rw [hstep]
  cases string opening fuel rest <;> rfl

theorem string_unicode {digits : Text}
    (h : unicodeEscape ('\x5c' :: 'u' :: digits) digits = .ok (c, rest)) :
    string opening (fuel + 1) ('\x5c' :: 'u' :: digits) =
      (string opening fuel rest).map fun r => (c :: r.1, r.2) := by
  have hstep : string opening (fuel + 1) ('\x5c' :: 'u' :: digits) =
      (string opening fuel rest).bind fun r => .ok (c :: r.1, r.2) := by
    rw [string.eq_def]
    simp only [h]
    rfl
  rw [hstep]
  cases string opening fuel rest <;> rfl

theorem string_plain (hquote : c ≠ '\x22') (hslash : c ≠ '\x5c') (hc : 0x20 ≤ c.toNat) :
    string opening (fuel + 1) (c :: rest) =
      (string opening fuel rest).map fun r => (c :: r.1, r.2) := by
  have hstep : string opening (fuel + 1) (c :: rest) =
      (string opening fuel rest).bind fun r => .ok (c :: r.1, r.2) := by
    rw [string.eq_def]
    simp only
    split
    · next heq => cases heq
    · next heq => exact absurd (List.cons.inj heq).1 hquote
    · next heq => exact absurd (List.cons.inj heq).1 hslash
    · next heq => exact absurd (List.cons.inj heq).1 hslash
    · next heq => exact absurd (List.cons.inj heq).1 hslash
    · next heq =>
        cases heq
        rw [if_neg (by omega)]
        rfl
  rw [hstep]
  cases string opening fuel rest <;> rfl

end Steps

/-- A printed character is read back, and the reader goes on after it. -/
theorem string_charText (opening : Text) (fuel : Nat) (c : Char) {rest : Text}
    (hrest : rest ≠ []) :
    string opening (fuel + 1) (charText c ++ rest) =
      (string opening fuel rest).map fun r => (c :: r.1, r.2) := by
  unfold charText
  simp only [beq_iff_eq]
  -- the seven characters with an escape of one letter
  iterate 7
    split
    · next h =>
        subst h
        exact string_escape opening fuel rfl (by decide)
  split
  · next hquote hslash _ _ _ _ _ h =>
      simp only [Bool.and_eq_true, decide_eq_true_eq] at h
      exact string_plain opening fuel hquote hslash h.1
  split
  · next h => exact string_unicode opening fuel (unicodeEscape_unit h _ hrest)
  · next h =>
      rw [List.append_assoc]
      exact string_unicode opening fuel
        (unicodeEscape_pair (Nat.le_of_not_lt h) rfl rfl _ hrest)

/-- **A printed string is read back.** -/
theorem string_quoted (opening : Text) {fuel : Nat} (s : Text) (h : s.length < fuel) (rest : Text) :
    string opening fuel (s.flatMap charText ++ '\x22' :: rest) = .ok (s, rest) := by
  induction s generalizing fuel with
  | nil =>
      obtain ⟨fuel, rfl⟩ := Nat.exists_eq_succ_of_ne_zero (Nat.ne_of_gt h)
      rfl
  | cons c s ih =>
      obtain ⟨fuel, rfl⟩ := Nat.exists_eq_succ_of_ne_zero (Nat.ne_zero_of_lt h)
      rw [List.flatMap_cons, List.append_assoc, string_charText _ _ _ (by simp),
        ih (by simpa using h)]
      rfl

theorem length_le_flatMap_charText (s : Text) : s.length ≤ (s.flatMap charText).length := by
  induction s with
  | nil => exact Nat.le_refl 0
  | cons c s ih =>
      have hc : charText c ≠ [] := by
        unfold charText unitEscape
        simp only
        repeat' split
        all_goals exact List.cons_ne_nil _ _
      have hpos := List.length_pos_iff.2 hc
      rw [List.flatMap_cons, List.length_append, List.length_cons]
      omega

/-- The reader gives itself fuel enough for a printed string. -/
theorem string_body (opening s rest : Text) :
    string opening ((s.flatMap charText ++ '\x22' :: rest).length + 1)
      (s.flatMap charText ++ '\x22' :: rest) = .ok (s, rest) := by
  refine string_quoted opening s ?_ rest
  have hlength := length_le_flatMap_charText s
  rw [List.length_append]
  omega

/-- The value is read back from its text, whatever follows, by a reader of so much fuel. -/
structure ReadsBack (fuel : Nat) (v : Json) : Prop where
  front : ∃ c t, print v = c :: t ∧ (c = '\x22' ∨ c = '[' ∨ c = '\x7b')
  value : ∀ n, fuel ≤ n → ∀ rest, Reader.value n (print v ++ rest) = .ok (v, rest)
  enough : fuel ≤ (print v).length

variable {fuel : Nat} {v : Json}

theorem ReadsBack.skipSpace (h : ReadsBack fuel v) (rest : Text) :
    Reader.skipSpace (print v ++ rest) = print v ++ rest := by
  obtain ⟨c, t, heq, hc⟩ := h.front
  have hspace : isSpace c = false := by
    rcases hc with rfl | rfl | rfl <;> decide
  rw [heq, Reader.skipSpace, List.cons_append, List.dropWhile_cons_of_neg (by simp [hspace])]

theorem ReadsBack.not_closing (h : ReadsBack fuel v) (rest : Text) :
    (print v ++ rest).head? ≠ some ']' := by
  obtain ⟨c, t, heq, hc⟩ := h.front
  rw [heq]
  rcases hc with rfl | rfl | rfl <;> simp

/-- A bracket that is not closed at once begins the elements of an array. -/
theorem value_bracket {n : Nat} {rest t : Text} (hskip : Reader.skipSpace rest = t)
    (hopen : t.head? ≠ some ']') : Reader.value (n + 1) ('[' :: rest) =
      (elements n t).bind fun r => .ok (.arr r.1, r.2) := by
  rw [Reader.value.eq_def]
  simp only [hskip]
  split
  · next heq => exact absurd rfl hopen
  · rfl

/-- A brace before a quote begins the members of an object. -/
theorem value_brace {n : Nat} {rest : Text} : Reader.value (n + 1) ('\x7b' :: '\x22' :: rest) =
      (members n ('\x22' :: rest) []).bind fun r => .ok (.obj r.1, r.2) := by
  rw [Reader.value.eq_def]
  rfl

theorem readsBack_str (s : Text) : ReadsBack 1 (.str s) := by
  refine ⟨⟨'\x22', _, rfl, Or.inl rfl⟩, fun n hn rest => ?_, Nat.succ_le_succ (Nat.zero_le _)⟩
  obtain ⟨n, rfl⟩ := Nat.exists_eq_add_of_le' hn
  have hprint : print (.str s) ++ rest = '\x22' :: (s.flatMap charText ++ '\x22' :: rest) := by
    simp [print, quoted]
  rw [hprint, Reader.value.eq_def]
  simp only [string_body]
  rfl

theorem ReadsBack.arr (h : ReadsBack fuel v) : ReadsBack (fuel + 2) (.arr [v]) := by
  have hlength : fuel + 2 ≤ (print (.arr [v])).length := by
    simpa [print, print.printItems, Text.join] using h.enough
  refine ⟨⟨'[', _, rfl, Or.inr (Or.inl rfl)⟩, fun n hn rest => ?_, hlength⟩
  obtain ⟨n, rfl⟩ := Nat.exists_eq_add_of_le' hn
  have hprint : print (.arr [v]) ++ rest = '[' :: (print v ++ ']' :: rest) := by
    simp [print, print.printItems, Text.join]
  have helements : elements (n + fuel + 1) (print v ++ ']' :: rest) = .ok ([v], rest) := by
    rw [Reader.elements.eq_def]
    simp only [h.value (n + fuel) (by omega)]
    rfl
  show Reader.value (n + fuel + 1 + 1) _ = _
  rw [hprint, value_bracket (h.skipSpace _) (h.not_closing _), helements]
  rfl

theorem ReadsBack.obj (h : ReadsBack fuel v) (key : Text) :
    ReadsBack (fuel + 2) (.obj [(key, v)]) := by
  have hlength : fuel + 2 ≤ (print (.obj [(key, v)])).length := by
    have henough := h.enough
    simp only [print, print.printFields, Text.join, List.length_cons, List.length_append]
    omega
  refine ⟨⟨'\x7b', _, rfl, Or.inr (Or.inr rfl)⟩, fun n hn rest => ?_, hlength⟩
  obtain ⟨n, rfl⟩ := Nat.exists_eq_add_of_le' hn
  have hprint : print (.obj [(key, v)]) ++ rest = '\x7b' :: '\x22' ::
      (key.flatMap charText ++ '\x22' :: ':' :: ' ' :: (print v ++ '\x7d' :: rest)) := by
    simp [print, print.printFields, Text.join, quoted]
  have hblank : Reader.skipSpace (' ' :: (print v ++ '\x7d' :: rest)) = print v ++ '\x7d' :: rest :=
    h.skipSpace _
  have hmembers : members (n + fuel + 1) ('\x22' ::
      (key.flatMap charText ++ '\x22' :: ':' :: ' ' :: (print v ++ '\x7d' :: rest))) [] =
      .ok ([(key, v)], rest) := by
    rw [Reader.members.eq_def]
    simp only [string_body]
    show (Reader.value (n + fuel)
      (Reader.skipSpace (' ' :: (print v ++ '\x7d' :: rest)))).bind _ = _
    rw [hblank, h.value (n + fuel) (by omega)]
    rfl
  show Reader.value (n + fuel + 1 + 1) _ = _
  rw [hprint, value_brace, hmembers]
  rfl

/-- A value that is read back is what its text on its own is read as. -/
theorem ReadsBack.read (h : ReadsBack fuel v) : Json.read (print v) = .ok v := by
  have hvalue := h.value _ (Nat.le_succ_of_le h.enough) []
  have hskip := h.skipSpace []
  rw [List.append_nil] at hvalue hskip
  have hbom : ((print v).head? == some '\ufeff') = false := by
    obtain ⟨c, t, heq, hc⟩ := h.front
    rw [heq]
    rcases hc with rfl | rfl | rfl <;> rfl
  unfold Json.read
  rw [hbom, hskip, hvalue]
  rfl

end Refinery.Json
