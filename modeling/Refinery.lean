import Refinery.Text.Basic
import Refinery.Text.Ranges
import Refinery.Text.Word
import Refinery.Text.Printable
import Refinery.Text.Lower
import Refinery.Text.Folded
import Refinery.Number.Real
import Refinery.Json.Reader
import Refinery.Json.Printer
import Refinery.Json.Display
import Refinery.Text.Scan
import Refinery.Code.Shape
import Refinery.Code.Recursion
import Refinery.Code.Complexity
import Refinery.Code.Algorithm
import Refinery.Code.Language
import Refinery.Review.Finding
import Refinery.Review.Detector
import Refinery.Review.Advice
import Refinery.Review.Score
import Refinery.Review.Report
import Refinery.Chunk.Split
import Refinery.Chunk.Layout
import Refinery.Chunk.Basic
import Refinery.Prompt.Example
import Refinery.Prompt.Basic
import Refinery.Request.Focus
import Refinery.Answer.Brackets
import Refinery.Answer.Dangling
import Refinery.Answer.Extract
import Refinery.Answer.Similarity
import Refinery.Answer.Declared
import Refinery.Answer.Outcome
import Refinery.Answer.Verdict
import Refinery.Schema.Fault
import Refinery.Schema.Lax
import Refinery.Settings
import Refinery.Request.Basic
import Refinery.Session.Failure
import Refinery.Session.Phase
import Refinery.Session.Event
import Refinery.Session.Context
import Refinery.Inference.Fragment
import Refinery.Text.Utf8
import Refinery.Inference.Stream
import Refinery.Inference.Completion
import Refinery.Session.Scene
import Refinery.Session.Generation
import Refinery.Session.Ladder
import Refinery.Session.Run
import Refinery.Session.Desk
import Refinery.Rehearsal.Script
import Refinery.Rehearsal.Wire
import Refinery.Rehearsal.Engine
import Refinery.Rehearsal.Clock
import Refinery.Rehearsal.Cue
import Refinery.Rehearsal.Trial
import Refinery.Rehearsal.Exchange
import Refinery.Service.Route
import Refinery.Service.Body
import Refinery.Service.Feed
import Refinery.Service.Basic
import Refinery.Service.Backend
import Refinery.Log.Template
import Refinery.Log.Journal
import Refinery.Proofs.Text.Lines
import Refinery.Proofs.Text.Parts
import Refinery.Proofs.Text.Trim
import Refinery.Proofs.Text.Scan
import Refinery.Proofs.Code.Language
import Refinery.Proofs.Code.Nesting
import Refinery.Proofs.Prompt.Shape
import Refinery.Proofs.Number.Binary64
import Refinery.Proofs.Answer.Filled
import Refinery.Proofs.Answer.Loss
import Refinery.Proofs.Answer.Declared
import Refinery.Proofs.Answer.Verdict
import Refinery.Proofs.Answer.Fenced
import Refinery.Proofs.Answer.Cutoff
import Refinery.Proofs.Answer.Echo
import Refinery.Proofs.Answer.Unchanged
import Refinery.Proofs.Chunk.Partition
import Refinery.Proofs.Chunk.Layout
import Refinery.Proofs.Chunk.Seat
import Refinery.Proofs.Chunk.Margin
import Refinery.Proofs.Session.Scene
import Refinery.Proofs.Session.Ladder
import Refinery.Proofs.Session.Run
import Refinery.Proofs.Session.Loss
import Refinery.Proofs.Session.Ending
import Refinery.Proofs.Session.History
import Refinery.Proofs.Session.Talk
import Refinery.Proofs.Session.Call
import Refinery.Proofs.Session.Echo
import Refinery.Proofs.Session.Notice
import Refinery.Proofs.Session.Grammar
import Refinery.Proofs.Session.Reading
import Refinery.Proofs.Session.Climb
import Refinery.Proofs.Session.Turn
import Refinery.Proofs.Session.Story
import Refinery.Proofs.Session.Past
import Refinery.Proofs.Session.Alone
import Refinery.Proofs.Session.Cancel
import Refinery.Proofs.Session.Solo
import Refinery.Proofs.Session.Composition
import Refinery.Proofs.Answer.Balance
import Refinery.Proofs.Session.Repair
import Refinery.Proofs.Session.Preview
import Refinery.Proofs.Session.Release
import Refinery.Proofs.Session.Phase
import Refinery.Proofs.Session.Raised
import Refinery.Proofs.Session.Abreast
import Refinery.Proofs.Session.Pace
import Refinery.Proofs.Json.Quoted
import Refinery.Proofs.Inference.Encoding
import Refinery.Proofs.Inference.Line
import Refinery.Proofs.Session.Sameness
import Refinery.Proofs.Service.Feed
import Refinery.Proofs.Session.Retry
import Refinery.Proofs.Session.Policy
import Refinery.Proofs.Session.Prompts
import Refinery.Proofs.Inference.Handle
import Refinery.Proofs.Chunk.Limit
import Refinery.Proofs.Session.Vocabulary
import Refinery.Proofs.Answer.Similarity
import Refinery.Proofs.Text.Places
import Refinery.Proofs.Code.Recursion
import Refinery.Proofs.Code.Measure
import Refinery.Proofs.Review.Advice
import Refinery.Proofs.Review.Score
import Refinery.Proofs.Answer.Prose
import Refinery.Proofs.Answer.Verbatim
import Refinery.Proofs.Answer.Nested
