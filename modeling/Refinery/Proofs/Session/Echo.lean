import Mathlib.Algebra.Order.BigOperators.Group.List
import Refinery.Proofs.Answer.Echo
import Refinery.Proofs.Chunk.Layout
import Refinery.Proofs.Chunk.Partition
import Refinery.Proofs.Session.Call

/-!
A model that gives every chunk back in a fenced block. The talk with it comes to an outcome, chunk
by chunk; and the outcome is the given text exactly where every chunk comes back unharmed, which one
that owes a bracket mostly does not.
-/

namespace Refinery

open Similarity Talk

namespace Chunk

/-- A chunk comes back unharmed: it owes no bracket, or with the brackets it is another text. -/
def Unharmed (chunk : Text) : Prop := Verdict.Unharmed chunk (Algorithm.ofText chunk).label

instance (chunk : Text) : Decidable (Unharmed chunk) :=
  inferInstanceAs (Decidable (Verdict.Unharmed _ _))

/-- What a chunk becomes when it is given back. -/
def echoed (chunk : Text) : Text :=
  if Unharmed chunk then chunk else reseat chunk (Brackets.repaired (Text.trim chunk))

/-- A chunk that is not unharmed comes back with a line for each bracket that it owes. -/
theorem filledLines_echoed {chunk : Text} (h : ¬ Unharmed chunk) :
    filledLines (echoed chunk) =
      filledLines chunk ++ (Brackets.owed (Text.trim chunk)).map fun c => [c] := by
  have howed : Brackets.owed (Text.trim chunk) ≠ [] := (not_or.1 h).1
  have hblank : Text.blank chunk = false := by
    cases hb : Text.blank chunk with
    | true =>
        rw [Text.trim_eq_nil_iff.2 hb] at howed
        exact absurd rfl howed
    | false => rfl
  rw [echoed, if_neg h, filledLines_reseat _ hblank, Brackets.filledLines_repaired howed,
    filledLines_trim]

theorem length_lt_of_not_unharmed {chunk : Text} (h : ¬ Unharmed chunk) :
    (filledLines chunk).length < (filledLines (echoed chunk)).length := by
  have howed : Brackets.owed (Text.trim chunk) ≠ [] := (not_or.1 h).1
  have hpos := List.length_pos_of_ne_nil howed
  rw [filledLines_echoed h, List.length_append, List.length_map]
  omega

theorem length_le_echoed (chunk : Text) :
    (filledLines chunk).length ≤ (filledLines (echoed chunk)).length := by
  by_cases h : Unharmed chunk
  · rw [echoed, if_pos h]
  · exact (length_lt_of_not_unharmed h).le

/-- **The chunks together come back as they were only if each of them does.** -/
theorem unlines_echoed_iff (chunks : List Text) :
    Text.unlines (chunks.map echoed) = Text.unlines chunks ↔ ∀ t ∈ chunks, Unharmed t := by
  constructor
  · intro h t ht
    by_contra hharmed
    have hlines := congrArg (fun u => (filledLines u).length) h
    simp only [filledLines_unlines, List.flatMap_map, List.length_flatMap] at hlines
    exact absurd hlines (ne_of_gt (List.sum_lt_sum _ _ (fun t _ => length_le_echoed t)
      ⟨t, ht, length_lt_of_not_unharmed hharmed⟩))
  · intro h
    have hsame : ∀ t ∈ chunks, echoed t = id t := fun t ht => if_pos (h t ht)
    rw [List.map_congr_left hsame, List.map_id]

end Chunk

namespace Run

/-- The engine gives a chunk back in one fenced block. -/
def Echoes (write : Text → List Text) (r : Run) (c : Chunk) : Prop :=
  ∃ tag, tag.all Extract.isTag = true ∧
    (write (r.promptFor c)).flatten = Prompt.fenced tag c.text

/-- What becomes of a chunk in a run with its report. -/
theorem partText_fenced {r : Run} {p : Parts} {tag : Text} (htag : tag.all Extract.isTag = true)
    (hfence : Text.hasPart Extract.fence p.chunk.text = false)
    (hreport : p.report = r.partReport p.chunk) :
    (r.partText p (Prompt.fenced tag p.chunk.text)).1 = Chunk.echoed p.chunk.text := by
  have hverdict :
      Verdict.Unharmed p.chunk.text p.report.algorithm ↔ Chunk.Unharmed p.chunk.text := by
    rw [hreport]
    exact Iff.rfl
  unfold partText Chunk.echoed
  simp only
  by_cases hunharmed : Chunk.Unharmed p.chunk.text
  · have hsame := Verdict.noChange_of_unharmed htag hfence (some r.report.language)
      (hverdict.2 hunharmed)
    rw [if_pos hunharmed]
    split
    · rfl
    · next hchanged =>
        rw [if_neg]
        intro hparsed
        rw [hparsed, hsame hparsed] at hchanged
        exact hchanged rfl
  · obtain ⟨hparsed, hchanged, hcode⟩ := Verdict.outcome_of_not_unharmed htag hfence
      (some r.report.language) (mt hverdict.1 hunharmed)
    rw [if_neg hunharmed, hparsed, hchanged, hcode]
    rfl

/-! ### From chunk to chunk -/

/-- The run has ended with the joined texts. -/
def Delivered (base : Run) (outputs : List Text) (control : Control) : Prop :=
  ∃ o, control = .ended (some o) ∧ o.code = Text.unlines outputs ∧
    o.noChange = (Text.unlines outputs == base.request.code)

/-- The parts with the next chunk at hand. -/
def nextParts (base : Run) (p : Parts) (output : Text) (c : Chunk) (later : List Chunk) : Parts where
  chunk := c
  report := base.partReport c
  later := later
  outputs := p.outputs ++ [(base.partText p output).1]
  kept := if (base.partText p output).2 then p.kept + 1 else p.kept
  total := p.total

/-- A chunk is asked for, and the engine has not been called yet. -/
def Asked (write : Text → List Text) (base : Run) (p : Parts) : Control → Prop :=
  Calling base p (write (base.promptFor p.chunk)).flatten .entered
    (write (base.promptFor p.chunk))

/-- Where a run is after an answer to a chunk: in front of the next one, or at its end. -/
def PartDone (base : Run) (p : Parts) (output : Text) (control : Control) : Prop :=
  match p.later with
  | [] => Delivered base (p.outputs ++ [(base.partText p output).1]) control
  | c :: later => control = .pausing (nextParts base p output c later)

section Ready

variable {base r : Run} {p : Parts} (h : Ready base r)

include h

/-- A chunk is asked for. -/
theorem Ready.askPart (write : Text → List Text) (hreport : p.report = base.partReport p.chunk) :
    Ready base (r.askPart p) ∧ Asked write base p (r.askPart p).control := by
  have hgoing : ¬ r.scene.cancelled = true := by simp [h.calm.going]
  have hgenerating := (h.tell (.chunkProgress (p.chunk.index + 1) p.total)).phase .generating
  unfold Run.askPart
  rw [if_neg hgoing]
  unfold ask
  simp only [Bool.false_eq_true, if_false]
  generalize (r.tell (.chunkProgress (p.chunk.index + 1) p.total)).phase .generating = r₁
    at hgenerating
  have hasked := hgenerating.tell (.substage (.hint r₁.scene.context.hint))
  generalize r₁.tell (.substage (.hint r₁.scene.context.hint)) = r₂ at hasked
  obtain ⟨hsettings, hrequest, -⟩ := hasked.same
  rw [Ladder.start_of_calm hasked.calm, hsettings, hrequest, hreport]
  exact ⟨⟨hasked.same, hasked.calm⟩, _, rfl, rfl, rfl, rfl, rfl,
    fun _ h => absurd h List.not_mem_nil⟩

/-- The texts are joined and delivered. -/
theorem Ready.assemble (outputs : List Text) (kept : Nat) :
    Ready base (r.assemble p outputs kept) ∧
      Delivered base outputs (r.assemble p outputs kept).control := by
  have htold := h.tell (.stage .finalizing)
  have hgoing : ¬ (r.tell (.stage .finalizing)).scene.cancelled = true := by
    simp [htold.calm.going]
  unfold Run.assemble
  simp only
  generalize r.tell (.stage .finalizing) = r₁ at htold hgoing
  have hunbound : Scene.Calm ((r₁.phase .done).dismiss.unbind).scene :=
    ⟨htold.calm.going, htold.calm.passes⟩
  unfold succeed
  rw [if_neg hgoing, htold.same.2.1]
  obtain ⟨hcode, hnoChange, -, -⟩ := chunkedOutcome_spec base.request.code (Text.unlines outputs)
    r₁.report (Report.ofText (Text.unlines outputs) r₁.report.language Chunk.defaultSize) p.total kept
  exact ⟨⟨htold.same, hunbound.tell _⟩, _, rfl, hcode, hnoChange⟩

/-- What becomes of a chunk is put to the others. -/
theorem Ready.afterPart (output : Text) : Ready base (r.afterPart p output) ∧
    PartDone base p output (r.afterPart p output).control := by
  have hpiece := (h.phase .validating).same.partText p output
  unfold Run.afterPart PartDone
  simp only
  rw [hpiece]
  have htold : Ready base (if (base.partText p output).2 = true then
      (r.phase .validating).tell (.substage .keptChunk) else r.phase .validating) := by
    split
    · exact (h.phase .validating).tell _
    · exact h.phase .validating
  generalize (if (base.partText p output).2 = true then
      (r.phase .validating).tell (.substage .keptChunk) else r.phase .validating) = told at htold
  cases p.later with
  | nil => exact htold.assemble _ _
  | cons c later =>
      have hnext := htold.tell (.stage .refining)
      simp only [hnext.same.partReport]
      exact ⟨⟨hnext.same, hnext.calm⟩, rfl⟩

end Ready

section Chunks

variable {base : Run} {p : Parts} {write : Text → List Text}

theorem leads_pausing (hreport : p.report = base.partReport p.chunk) :
    Leads write (At base (· = .pausing p) []) (At base (Asked write base p) []) := by
  refine leads_of_turn rfl fun r hready hcontrol => ?_
  have hstep : r.step .resume = r.askPart p := by
    unfold step
    rw [hcontrol]
  rw [hstep]
  exact hready.askPart write hreport

theorem leads_idling (base : Run) (p : Parts) (write : Text → List Text) (output : Text) :
    Leads write (At base (· = .idling (.parts p) (.ok output)) [])
      (At base (PartDone base p output) []) := by
  refine leads_of_turn rfl fun r hready hcontrol => ?_
  have hstep : r.step .resume = (r.tell .streamIdle).afterPart p output := by
    unfold step
    rw [hcontrol]
    rfl
  rw [hstep]
  exact (hready.tell .streamIdle).afterPart output

variable (hyield : base.settings.yieldEvery ≠ 0) (htime : base.settings.leavesNoTime = false)

include hyield htime

/-- A chunk that is asked for is given back, and so much becomes of it. -/
theorem leads_given (hreport : p.report = base.partReport p.chunk)
    (hecho : Echoes write base p.chunk)
    (hfence : Text.hasPart Extract.fence p.chunk.text = false) :
    ∃ output, (base.partText p output).1 = Chunk.echoed p.chunk.text ∧
      Leads write (At base (Asked write base p) []) (At base (PartDone base p output) []) := by
  obtain ⟨tag, htag, hflat⟩ := hecho
  refine ⟨Prompt.fenced tag p.chunk.text, partText_fenced htag hfence hreport, ?_⟩
  rw [← hflat]
  refine (leads_answered hyield htime ?_ ?_).trans (leads_idling base p write _)
  · rw [hflat]
    exact Extract.not_blank_fenced _ _
  · rw [hflat]
    exact Dangling.not_looksIncomplete_fenced _ _

/-- **A talk in which every chunk is given back delivers what becomes of them.** The induction is on
the chunks that come after the one that is asked for. -/
theorem leads_delivered {later : List Chunk} (hlater : p.later = later)
    (hreport : p.report = base.partReport p.chunk)
    (hecho : ∀ c ∈ p.chunk :: later, Echoes write base c)
    (hfence : ∀ c ∈ p.chunk :: later, Text.hasPart Extract.fence c.text = false) :
    Leads write (At base (Asked write base p) [])
      (At base (Delivered base (p.outputs ++ (p.chunk :: later).map fun c =>
        Chunk.echoed c.text)) []) := by
  induction later generalizing p with
  | nil =>
      obtain ⟨output, hpart, hgiven⟩ := leads_given hyield htime hreport
        (hecho p.chunk List.mem_cons_self) (hfence p.chunk List.mem_cons_self)
      unfold PartDone at hgiven
      rw [hlater, hpart] at hgiven
      exact hgiven
  | cons c later ih =>
      obtain ⟨output, hpart, hgiven⟩ := leads_given hyield htime hreport
        (hecho p.chunk List.mem_cons_self) (hfence p.chunk List.mem_cons_self)
      unfold PartDone at hgiven
      rw [hlater] at hgiven
      have hrest := ih (p := nextParts base p output c later) rfl rfl
        (fun d hd => hecho d (List.mem_cons_of_mem _ hd))
        (fun d hd => hfence d (List.mem_cons_of_mem _ hd))
      have houtputs : (nextParts base p output c later).outputs =
          p.outputs ++ [Chunk.echoed p.chunk.text] := by
        rw [nextParts, hpart]
      rw [houtputs] at hrest
      rw [List.map_cons, List.append_cons]
      exact (hgiven.trans (leads_pausing rfl)).trans hrest

end Chunks

end Run

namespace Prompt

/-- What a prompt ends with after the code. -/
def foot : Text := "\n```".toList ++ ['\n'] ++ cursor

/-- Every prompt ends with the code and the foot. -/
theorem suffix_forLevel (code : Text) (report : Report) (focus : Focus) (insist : Bool)
    (level : Int) (context : Option Text) :
    code ++ foot <:+ forLevel code report focus insist level context := by
  have hassoc : ∀ a b c d e : Text, a ++ (b ++ (c ++ d ++ e)) = a ++ b ++ c ++ d ++ e := by
    intro a b c d e
    simp only [List.append_assoc]
  have hending : ∀ tag, code ++ foot <:+ ending tag code :=
    fun tag => ⟨"```".toList ++ tag ++ ['\n'], hassoc _ _ _ _ _⟩
  unfold forLevel
  split
  · exact ((hending _).trans (List.suffix_append _ _)).trans (List.suffix_append _ _)
  · exact (hending _).trans (List.suffix_append _ _)

/-- Gives one of two texts back in a fenced block, the second where a prompt ends with it. -/
def echo (tag first second : Text) (prompt : Text) : List Text :=
  [fenced tag (if Text.endsWith (second ++ foot) prompt then second else first)]

end Prompt

namespace Run

theorem endsWith_promptFor_iff (r : Run) {c : Chunk} {t : Text} (h : t.length ≤ c.text.length) :
    Text.endsWith (t ++ Prompt.foot) (r.promptFor c) = true ↔ t <:+ c.text := by
  obtain ⟨front, hfront⟩ : c.text ++ Prompt.foot <:+ r.promptFor c :=
    Prompt.suffix_forLevel c.text (r.partReport c) r.request.focus false 0 c.context
  have hprompt : r.promptFor c = (front ++ c.text) ++ Prompt.foot := by
    rw [List.append_assoc, hfront]
  rw [hprompt, Text.endsWith, List.isPrefixOf_iff_prefix, List.reverse_prefix,
    List.suffix_append_self_iff]
  constructor
  · intro hsuffix
    exact List.suffix_of_suffix_length_le hsuffix (List.suffix_append front c.text) h
  · intro hsuffix
    exact hsuffix.trans (List.suffix_append front c.text)

/-- The engine gives two chunks back if it can tell them apart. -/
theorem echoes_echo (r : Run) {tag : Text} {c d : Chunk} (htag : tag.all Extract.isTag = true)
    (hlength : d.text.length ≤ c.text.length) (hother : ¬ d.text <:+ c.text) :
    ∀ e ∈ [c, d], Echoes (Prompt.echo tag c.text d.text) r e := by
  intro e he
  refine ⟨tag, htag, ?_⟩
  unfold Prompt.echo
  rw [List.flatten_singleton]
  rcases List.mem_pair.1 he with rfl | rfl
  · rw [if_neg (mt (r.endsWith_promptFor_iff hlength).1 hother)]
  · rw [if_pos ((r.endsWith_promptFor_iff le_rfl).2 List.suffix_rfl)]

/-! ### The whole talk -/

/-- What was delivered stays. -/
theorem at_delivered_beat {base : Run} {outputs : List Text} {write : Text → List Text} (t : Talk)
    (b : Beat) (h : At base (Delivered base outputs) [] t) :
    At base (Delivered base outputs) [] (t.beat write b) := by
  cases b with
  | tick => exact h.tick
  | go =>
      obtain ⟨o, hcontrol, -⟩ := h.control
      have hgo : t.go write = t := by
        have hstep : t.run.step .resume = t.run := by
          unfold step
          rw [hcontrol]
        rw [Talk.go, h.due_eq]
        simp only [hcontrol, Control.pending?, hstep]
        exact congrArg (Talk.mk t.run) h.due_eq.symm
      show At base (Delivered base outputs) [] (t.go write)
      rwa [hgo]

section Begin

variable {settings : Settings} {name : Text} {request : Request} {host : Host}

theorem shielded_eq_pass (h : ∀ told, host told ≠ .cancel) (told : List Event) :
    host.shielded told = .pass := by
  unfold Host.shielded
  cases hreaction : host told with
  | pass => rfl
  | cancel => exact absurd hreaction (h told)
  | fail why => rfl

/-- A run whose host never cancels asks for its first chunk. -/
theorem at_begin (write : Text → List Text) (hhost : ∀ told, host told ≠ .cancel)
    {c d : Chunk} {later : List Chunk}
    (hchunks : Chunk.ofTexts (Chunk.split request.code settings.chunkSize) = c :: d :: later) :
    let base := opened settings name request host
    At base (Asked write base ⟨c, base.partReport c, d :: later, [], 0, base.report.chunks.length⟩)
      [] ⟨begin settings name request host, []⟩ := by
  intro base
  have hopened : Ready base base := ⟨⟨rfl, rfl, rfl⟩, rfl, shielded_eq_pass hhost⟩
  have htold := (((hopened.phase .analyzing).tell (.stage .understanding)).phase .chunking).tell
    (.stage .optimizing)
  have hbegin : begin settings name request host = askPart
      ((((base.phase .analyzing).tell (.stage .understanding)).phase .chunking).tell
        (.stage .optimizing))
      ⟨c, base.partReport c, d :: later, [], 0, base.report.chunks.length⟩ := by
    unfold begin
    simp only
    split
    · next c' d' later' heq =>
        have hsame := heq.symm.trans hchunks
        cases hsame
        rfl
    · next hshort => exact absurd hchunks (hshort c d later)
  obtain ⟨hready, hasked⟩ := htold.askPart write (p := ⟨c, base.partReport c, d :: later, [], 0,
    base.report.chunks.length⟩) rfl
  refine ⟨?_, ?_, rfl⟩
  · show Ready base (begin settings name request host)
    rwa [hbegin]
  · show Asked write base _ (begin settings name request host).control
    rwa [hbegin]

variable {write : Text → List Text}
  (hfence : Text.hasPart Extract.fence request.code = false)
  (hchunks : 2 ≤ (Chunk.split request.code settings.chunkSize).length)
  (hecho : ∀ c ∈ Chunk.ofTexts (Chunk.split request.code settings.chunkSize),
    Echoes write (opened settings name request host) c)
  (hhost : ∀ told, host told ≠ .cancel) (hyield : settings.yieldEvery ≠ 0)
  (htime : settings.leavesNoTime = false)

include hfence hchunks hecho hhost hyield htime

/-- A talk with an engine that gives every chunk back comes to an outcome, what becomes of the
chunks joined. -/
theorem echoed_delivered :
    ∃ n, ∀ beats : List Beat, n ≤ beats.count .go →
      ∃ o, (Talk.after write ⟨begin settings name request host, []⟩ beats).run.outcome? = some o ∧
        (o.noChange = true ↔ o.code = request.code) ∧
        o.code = Text.unlines
          ((Chunk.split request.code settings.chunkSize).map Chunk.echoed) := by
  have htexts := Chunk.map_text_ofTexts (Chunk.split request.code settings.chunkSize)
  obtain ⟨c, d, later, hof⟩ := Chunk.exists_ofTexts hchunks
  rw [hof] at htexts hecho
  have hfences : ∀ c' ∈ c :: d :: later, Text.hasPart Extract.fence c'.text = false := by
    intro c' hc'
    rw [← Chunk.unlines_split request.code settings.chunkSize] at hfence
    refine Text.not_hasPart_of_mem hfence ?_
    rw [← htexts]
    exact List.mem_map_of_mem hc'
  let base := opened settings name request host
  let p : Parts := ⟨c, base.partReport c, d :: later, [], 0, base.report.chunks.length⟩
  have hdelivered : Leads write (At base (Asked write base p) [])
      (At base (Delivered base ((c :: d :: later).map fun c => Chunk.echoed c.text)) []) :=
    leads_delivered hyield htime rfl rfl hecho hfences
  obtain ⟨n, hn⟩ := hdelivered.eventually at_delivered_beat
  refine ⟨n, fun beats hbeats => ?_⟩
  obtain ⟨o, hcontrol, hcode, hsame⟩ := (hn _ (at_begin write hhost hof) beats hbeats).control
  refine ⟨o, ?_, ?_, ?_⟩
  · rw [outcome?, hcontrol]
  · rw [hsame, hcode, beq_iff_eq]
    rfl
  · rw [hcode, ← htexts, List.map_map]
    rfl

/-- **A text whose chunks are all given back comes to an outcome, and this is the text exactly where
every chunk is unharmed.** -/
theorem echo_delivered :
    ∃ n, ∀ beats : List Beat, n ≤ beats.count .go →
      ∃ o, (Talk.after write ⟨begin settings name request host, []⟩ beats).run.outcome? = some o ∧
        (o.noChange = true ↔ o.code = request.code) ∧
        (o.code = request.code ↔
          ∀ chunk ∈ Chunk.split request.code settings.chunkSize, Chunk.Unharmed chunk) := by
  obtain ⟨n, hn⟩ := echoed_delivered hfence hchunks hecho hhost hyield htime
  refine ⟨n, fun beats hbeats => ?_⟩
  obtain ⟨o, ho, hsame, hcode⟩ := hn beats hbeats
  have hback := Chunk.unlines_echoed_iff (Chunk.split request.code settings.chunkSize)
  rw [Chunk.unlines_split] at hback
  refine ⟨o, ho, hsame, ?_⟩
  rw [hcode]
  exact hback

end Begin

/-- Two chunks without brackets come back as they were. -/
theorem echo_delivered_of_two_lines :
    let request : Request := { code := "a = 1\nb = 2".toList, code_filled := by decide }
    let settings : Settings := { chunkSize := 6 }
    let write := Prompt.echo "python".toList "a = 1".toList "b = 2".toList
    ∃ n, ∀ beats : List Beat, n ≤ beats.count .go →
      ∃ o, (Talk.after write ⟨begin settings [] request fun _ => .pass, []⟩ beats).run.outcome? =
          some o ∧ o.code = request.code ∧ o.noChange = true := by
  intro request settings write
  have hof : Chunk.ofTexts (Chunk.split request.code settings.chunkSize) =
      [⟨0, "a = 1".toList, some "b = 2".toList⟩, ⟨1, "b = 2".toList, none⟩] := by
    decide +kernel
  have hecho : ∀ c ∈ Chunk.ofTexts (Chunk.split request.code settings.chunkSize),
      Echoes write (opened settings [] request fun _ => .pass) c := by
    rw [hof]
    exact echoes_echo _ (by decide) (by decide) (by decide)
  have hfence : Text.hasPart Extract.fence request.code = false := by decide +kernel
  have hchunks : 2 ≤ (Chunk.split request.code settings.chunkSize).length := by decide +kernel
  have hunharmed : ∀ chunk ∈ Chunk.split request.code settings.chunkSize, Chunk.Unharmed chunk := by
    decide +kernel
  obtain ⟨n, hn⟩ := echo_delivered hfence hchunks hecho (fun _ => nofun) (by decide)
    (by decide +kernel)
  refine ⟨n, fun beats hbeats => ?_⟩
  obtain ⟨o, ho, hsame, hback⟩ := hn beats hbeats
  have hcode := hback.2 hunharmed
  exact ⟨o, ho, hcode, hsame.2 hcode⟩

/-- **A block that is cut in the middle comes back with a bracket too many.** -/
theorem cut_block_not_delivered :
    let request : Request :=
      { code := "function f(a) \x7b\n  g(a);\n\x7d\nh();".toList, code_filled := by decide }
    let settings : Settings := { chunkSize := 24 }
    let write := Prompt.echo "javascript".toList "function f(a) \x7b\n  g(a);".toList
      "\x7d\nh();".toList
    Text.hasPart Extract.fence request.code = false ∧
      2 ≤ (Chunk.split request.code settings.chunkSize).length ∧
      (∀ c ∈ Chunk.ofTexts (Chunk.split request.code settings.chunkSize),
        Echoes write (opened settings [] request fun _ => .pass) c) ∧
      ∃ n, ∀ beats : List Beat, n ≤ beats.count .go →
        ∃ o, (Talk.after write ⟨begin settings [] request fun _ => .pass, []⟩
            beats).run.outcome? = some o ∧
          o.code = "function f(a) \x7b\n  g(a);\n\x7d\n\x7d\nh();".toList ∧
          o.code ≠ request.code ∧ o.noChange = false := by
  intro request settings write
  have hof : Chunk.ofTexts (Chunk.split request.code settings.chunkSize) =
      [⟨0, "function f(a) \x7b\n  g(a);".toList, some "\x7d\nh();".toList⟩,
        ⟨1, "\x7d\nh();".toList, none⟩] := by
    decide +kernel
  have hecho : ∀ c ∈ Chunk.ofTexts (Chunk.split request.code settings.chunkSize),
      Echoes write (opened settings [] request fun _ => .pass) c := by
    rw [hof]
    exact echoes_echo _ (by decide) (by decide) (by decide)
  have hfence : Text.hasPart Extract.fence request.code = false := by decide +kernel
  have hchunks : 2 ≤ (Chunk.split request.code settings.chunkSize).length := by decide +kernel
  have hechoed : Text.unlines ((Chunk.split request.code settings.chunkSize).map Chunk.echoed) =
      "function f(a) \x7b\n  g(a);\n\x7d\n\x7d\nh();".toList := by
    decide +kernel
  refine ⟨hfence, hchunks, hecho, ?_⟩
  obtain ⟨n, hn⟩ := echoed_delivered hfence hchunks hecho (fun _ => nofun) (by decide)
    (by decide +kernel)
  refine ⟨n, fun beats hbeats => ?_⟩
  obtain ⟨o, ho, hsame, hcode⟩ := hn beats hbeats
  rw [hechoed] at hcode
  have hother : o.code ≠ request.code := by
    rw [hcode]
    decide +kernel
  exact ⟨o, ho, hcode, hother, Bool.eq_false_iff.2 (mt hsame.1 hother)⟩

end Run
end Refinery
