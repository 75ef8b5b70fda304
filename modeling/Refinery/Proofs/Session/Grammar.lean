import Refinery.Proofs.Session.Notice

/-!
The order of the events of a request. A request that was admitted is told that its text is being
understood, then the parts of a body, and at last `done` or `error`; before an `error` the body may
stop after any of its parts. A generation is one part, so that its stream is always closed. Hints are
left out of account: they may come at any time while a generation is on its way.
-/

namespace Refinery

/-- Whether an event shows one of the hints. -/
def Event.isHint : Event → Bool
  | .substage s => hints.contains s.title
  | _ => false

namespace Grammar

/-- One attempt: nothing is streamed, or the stream begins and pieces of text follow. -/
def Attempt (es : List Event) : Prop :=
  es = [] ∨ ∃ pieces : List Text, es = .streamActive :: pieces.map .chunk

/-- Attempts, between any two of which the host is told to drop what it has seen. -/
def Tries (es : List Event) : Prop :=
  ∃ (first : List Event) (later : List (List Event)), Attempt first ∧ (∀ a ∈ later, Attempt a) ∧
    es = first ++ later.flatMap (.retryClear :: ·)

/-- A generation: attempts, and the end of the stream. -/
def Block (es : List Event) : Prop := ∃ tries, Tries tries ∧ es = tries ++ [.streamIdle]

/-- The parts that a text of one chunk has: it is asked for once, or once more with insistence. -/
inductive Whole : List (List Event) → Prop
  | once {b : List Event} (h : Block b) :
      Whole [[.stage .optimizing], b, [.stage .finalizing]]
  | twice {b b' : List Event} (h : Block b) (h' : Block b') :
      Whole [[.stage .optimizing], b, [.stage .finalizing], [.stage .optimizing],
        [.substage .retrying], [.retryClear], b', [.stage .finalizing]]

/-- The parts of the chunk after `i` others, of so many. -/
def Piece (total i : Nat) (ps : List (List Event)) : Prop :=
  ∃ b kept, Block b ∧ (kept = [] ∨ kept = [[.substage .keptChunk]]) ∧
    ps = [.stage (if i = 0 then .optimizing else .refining)] :: [.chunkProgress (i + 1) total] ::
      b :: kept

/-- The parts of the first chunks, in order. -/
inductive Pieces (total : Nat) : Nat → List (List Event) → Prop
  | nil : Pieces total 0 []
  | snoc {i : Nat} {ps qs : List (List Event)} (h : Pieces total i ps) (h' : Piece total i qs) :
      Pieces total (i + 1) (ps ++ qs)

/-- The parts of a body, for a text of so many chunks. -/
inductive Body (total : Nat) : List (List Event) → Prop
  | whole {ps : List (List Event)} (hfew : total < 2) (h : Whole ps) : Body total ps
  | pieces {ps : List (List Event)} (hmany : 2 ≤ total) (h : Pieces total total ps) :
      Body total (ps ++ [[.stage .finalizing]])

/-- All events of a request but hints, oldest first, by what the request comes to. -/
inductive Sequence (total : Nat) : Option Outcome → List Event → Prop
  | done {body : List (List Event)} (h : Body total body) (o : Outcome) :
      Sequence total (some o) (.stage .understanding :: body.flatten ++ [.done o])
  | error {body front : List (List Event)} (h : Body total body) (hfront : front <+: body)
      (m : Text) : Sequence total none (.stage .understanding :: front.flatten ++ [.error m])

/-- What is told of some attempts, newest first, and whether the latest one has begun to stream. -/
inductive Attempts : Bool → List Event → Prop
  | start : Attempts false []
  | active {es : List Event} (h : Attempts false es) : Attempts true (.streamActive :: es)
  | piece {es : List Event} (h : Attempts true es) (t : Text) : Attempts true (.chunk t :: es)
  | again {b : Bool} {es : List Event} (h : Attempts b es) : Attempts false (.retryClear :: es)

theorem Tries.again {tries a : List Event} (h : Tries tries) (ha : Attempt a) :
    Tries (tries ++ .retryClear :: a) := by
  obtain ⟨first, later, hfirst, hlater, rfl⟩ := h
  refine ⟨first, later ++ [a], hfirst, ?_, ?_⟩
  · intro b hb
    rcases List.mem_append.1 hb with hb | hb
    · exact hlater b hb
    · exact List.mem_singleton.1 hb ▸ ha
  · simp

/-- The latest attempt is the one that goes on; those before it are closed. -/
theorem Attempts.exists_last {b : Bool} {es : List Event} (h : Attempts b es) :
    ∃ closed last, es.reverse = closed ++ last ∧ (∀ a, Attempt a → Tries (closed ++ a)) ∧
      match b with
      | false => last = []
      | true => ∃ pieces : List Text, last = .streamActive :: pieces.map .chunk := by
  induction h with
  | start => exact ⟨[], [], rfl, fun a ha => ⟨a, [], ha, by simp, by simp⟩, rfl⟩
  | active h ih =>
      obtain ⟨closed, last, hes, hclosed, rfl⟩ := ih
      exact ⟨closed, [.streamActive], by simp [hes], hclosed, [], rfl⟩
  | piece h t ih =>
      obtain ⟨closed, last, hes, hclosed, pieces, rfl⟩ := ih
      exact ⟨closed, .streamActive :: (pieces ++ [t]).map .chunk, by simp [hes], hclosed, _, rfl⟩
  | @again b es h ih =>
      obtain ⟨closed, last, hes, hclosed, hlast⟩ := ih
      have hattempt : Attempt last := by
        cases b with
        | false => exact Or.inl hlast
        | true => exact Or.inr hlast
      refine ⟨closed ++ last ++ [.retryClear], [], by simp [hes], fun a ha => ?_, rfl⟩
      have htries := (hclosed last hattempt).again ha
      simpa using htries

theorem Attempts.tries {b : Bool} {es : List Event} (h : Attempts b es) : Tries es.reverse := by
  obtain ⟨closed, last, hes, hclosed, hlast⟩ := h.exists_last
  rw [hes]
  apply hclosed
  cases b with
  | false => exact Or.inl hlast
  | true => exact Or.inr hlast

theorem Attempts.block {b : Bool} {es : List Event} (h : Attempts b es) :
    Block (es.reverse ++ [.streamIdle]) := ⟨es.reverse, h.tries, rfl⟩

theorem block_idle : Block [.streamIdle] := Attempts.start.block

/-- Parts with which a body can begin. -/
def Front (total : Nat) (front : List (List Event)) : Prop := ∃ rest, Body total (front ++ rest)

theorem Front.sequence {total : Nat} {front : List (List Event)} (h : Front total front)
    (m : Text) : Sequence total none (.stage .understanding :: front.flatten ++ [.error m]) := by
  obtain ⟨rest, hbody⟩ := h
  exact .error hbody (List.prefix_append _ _) m

theorem Body.front {total : Nat} {body : List (List Event)} (h : Body total body) :
    Front total body := ⟨[], by rwa [List.append_nil]⟩

theorem Front.of_append {total : Nat} {front more : List (List Event)}
    (h : Front total (front ++ more)) : Front total front := by
  obtain ⟨rest, hbody⟩ := h
  exact ⟨more ++ rest, by rwa [← List.append_assoc]⟩

/-- The chunks that are still to come can always be told of. -/
theorem Pieces.front {total i : Nat} {ps : List (List Event)} (h : Pieces total i ps)
    (hmany : 2 ≤ total) (hi : i ≤ total) : Front total ps := by
  induction hrest : total - i generalizing i ps with
  | zero =>
      have htotal : i = total := by omega
      subst htotal
      exact ⟨_, .pieces hmany h⟩
  | succ n ih =>
      have hnext := h.snoc ⟨[.streamIdle], [], block_idle, Or.inl rfl, rfl⟩
      exact (ih hnext (by omega) (by omega)).of_append

theorem Attempt.inOrder {es : List Event} (h : Attempt es) : ∀ e ∈ es, e.InOrder := by
  rcases h with rfl | ⟨pieces, rfl⟩
  · simp
  · simp [Event.InOrder]

theorem Tries.inOrder {es : List Event} (h : Tries es) : ∀ e ∈ es, e.InOrder := by
  obtain ⟨first, later, hfirst, hlater, rfl⟩ := h
  intro e he
  rcases List.mem_append.1 he with he | he
  · exact hfirst.inOrder e he
  · obtain ⟨a, ha, he⟩ := List.mem_flatMap.1 he
    rcases List.mem_cons.1 he with rfl | he
    · exact trivial
    · exact (hlater a ha).inOrder e he

theorem Block.inOrder {es : List Event} (h : Block es) : ∀ e ∈ es, e.InOrder := by
  obtain ⟨tries, htries, rfl⟩ := h
  intro e he
  rcases List.mem_append.1 he with he | he
  · exact htries.inOrder e he
  · exact List.mem_singleton.1 he ▸ trivial

theorem Whole.inOrder {ps : List (List Event)} (h : Whole ps) :
    ∀ p ∈ ps, ∀ e ∈ p, e.InOrder := by
  cases h with
  | once h => simpa [Event.InOrder] using h.inOrder
  | twice h h' => simpa [Event.InOrder] using ⟨h.inOrder, h'.inOrder⟩

theorem Piece.inOrder {total i : Nat} {ps : List (List Event)} (h : Piece total i ps)
    (hi : i < total) : ∀ p ∈ ps, ∀ e ∈ p, e.InOrder := by
  obtain ⟨b, kept, hb, rfl | rfl, rfl⟩ := h
  · simpa [Event.InOrder] using ⟨Nat.succ_le_of_lt hi, hb.inOrder⟩
  · simpa [Event.InOrder] using ⟨Nat.succ_le_of_lt hi, hb.inOrder⟩

theorem Pieces.inOrder {total i : Nat} {ps : List (List Event)} (h : Pieces total i ps)
    (hi : i ≤ total) : ∀ p ∈ ps, ∀ e ∈ p, e.InOrder := by
  induction h with
  | nil => simp
  | snoc _ h' ih =>
      intro p hp
      rcases List.mem_append.1 hp with hp | hp
      · exact ih (by omega) p hp
      · exact h'.inOrder (by omega) p hp

theorem Body.inOrder {total : Nat} {ps : List (List Event)} (h : Body total ps) :
    ∀ p ∈ ps, ∀ e ∈ p, e.InOrder := by
  cases h with
  | whole _ h => exact h.inOrder
  | pieces _ h =>
      intro p hp
      rcases List.mem_append.1 hp with hp | hp
      · exact h.inOrder (Nat.le_refl total) p hp
      · rw [List.mem_singleton.1 hp]
        simp [Event.InOrder]

/-- Of what a body can begin with, no progress is past the end. -/
theorem Front.inOrder {total : Nat} {front : List (List Event)} (h : Front total front) :
    ∀ e ∈ front.flatten, e.InOrder := by
  obtain ⟨rest, hbody⟩ := h
  intro e he
  obtain ⟨p, hp, he⟩ := List.mem_flatten.1 he
  exact hbody.inOrder p (List.mem_append_left _ hp) e he

end Grammar
end Refinery
