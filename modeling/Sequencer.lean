import Sequencer.Audience
import Sequencer.Backoff
import Sequencer.Cancellation
import Sequencer.Channel
import Sequencer.Channel.Medium
import Sequencer.Channel.Shared
import Sequencer.Config
import Sequencer.Duration
import Sequencer.Event
import Sequencer.Event.Line
import Sequencer.Failure
import Sequencer.FanOut
import Sequencer.Handler
import Sequencer.Handler.Execution
import Sequencer.Handler.Registry
import Sequencer.Json
import Sequencer.Json.Reader
import Sequencer.Json.Token
import Sequencer.Json.Writer
import Sequencer.Machine.Actor
import Sequencer.Machine.Chain
import Sequencer.Machine.Core
import Sequencer.Machine.Mailbox
import Sequencer.Number.Binary64
import Sequencer.Number.Shortest
import Sequencer.Number.Text
import Sequencer.Number.Word
import Sequencer.Observers
import Sequencer.PollLoop
import Sequencer.Proofs.Machine.Logic
import Sequencer.Rehearsal.Acts
import Sequencer.Rehearsal.Agenda
import Sequencer.Rehearsal.Frame
import Sequencer.Rehearsal.Handlers
import Sequencer.Rehearsal.Host
import Sequencer.Rehearsal.Loops
import Sequencer.Rehearsal.Machines
import Sequencer.Rehearsal.Play
import Sequencer.Rehearsal.Stage
import Sequencer.Rehearsal.Steps
import Sequencer.Ring
import Sequencer.Roster
import Sequencer.Sample
import Sequencer.Sample.Wire
import Sequencer.Scenario.Act
import Sequencer.Scenario.Report
import Sequencer.Scenario.Step
import Sequencer.Shutdown
import Sequencer.Table
import Sequencer.Text.Hidden
import Sequencer.Text.Lines
import Sequencer.Text.Quoted
import Sequencer.Value
import Sequencer.Variable
import Sequencer.Proofs.Machine.Recursion
import Sequencer.Proofs.Machine.Slots
import Sequencer.Proofs.Machine.Traffic
import Sequencer.Proofs.Machine.Change
import Sequencer.Proofs.Machine.Seats
import Sequencer.Proofs.Machine.Serving
import Sequencer.Proofs.Handler.Attempts
import Sequencer.Proofs.Machine.Answers
import Sequencer.Proofs.Broadcast
import Sequencer.Proofs.Channel.Readers
import Sequencer.Proofs.Machine.Closing
import Sequencer.Proofs.Machine.Updates
import Sequencer.Proofs.Audience.Delivery
import Sequencer.Proofs.Audience.Fates
import Sequencer.Proofs.Audience.Reports
import Sequencer.Proofs.Audience.Panics
import Sequencer.Proofs.Audience.Absence
import Sequencer.Proofs.Audience.Farewell
import Sequencer.Proofs.Host.Stopping
import Sequencer.Proofs.Loop.Rounds
import Sequencer.Proofs.FanOut.Fleet
import Sequencer.Proofs.FanOut.Outcomes
import Sequencer.Proofs.Handler.Desk
import Sequencer.Proofs.Handler.Dispatches
import Sequencer.Proofs.Machine.Previous
import Sequencer.Proofs.Machine.Snapshots
import Sequencer.Proofs.Machine.Entries
import Sequencer.Proofs.Machine.Story
import Sequencer.Proofs.Machine.Likeness
import Sequencer.Proofs.Machine.Recovery
import Sequencer.Proofs.Machine.Delays
import Sequencer.Proofs.Variable.Supply
import Sequencer.Proofs.Variable.Courses
import Sequencer.Proofs.Variable.Freshness
import Sequencer.Proofs.Variable.Watches
import Sequencer.Proofs.Variable.Fetches
import Sequencer.Proofs.Variable.Interruption
import Sequencer.Proofs.Handler.Budget
import Sequencer.Proofs.Handler.Timeline
import Sequencer.Proofs.Handler.Isolation
import Sequencer.Proofs.Backoff.Rounding
import Sequencer.Proofs.Backoff.Cap
import Sequencer.Proofs.Host.Endings
import Sequencer.Proofs.Backoff.Overflow
import Sequencer.Proofs.Backoff.Spread
import Sequencer.Proofs.Handler.Posts
import Sequencer.Proofs.Handler.Settings
import Sequencer.Proofs.Event.Records
import Sequencer.Proofs.Json.Texts
import Sequencer.Proofs.Sample.Wire
import Sequencer.Proofs.Value.Codec
import Sequencer.Proofs.Variable.Mirrors
