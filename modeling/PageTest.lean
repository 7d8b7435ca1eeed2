import PageTest.Cause
import PageTest.Check
import PageTest.CommandLine.Arguments
import PageTest.CommandLine.Files
import PageTest.CommandLine.Program
import PageTest.Config.Basic
import PageTest.Config.File
import PageTest.Demo
import PageTest.Json.Basic
import PageTest.Json.Reader
import PageTest.Json.Writer
import PageTest.Log
import PageTest.Machine.Frames
import PageTest.Machine.Schedule
import PageTest.Machine.Steps
import PageTest.Machine.World
import PageTest.Main
import PageTest.Number.Binary
import PageTest.Number.Shortest
import PageTest.Number.Text
import PageTest.Outcome
import PageTest.Page.Basic
import PageTest.Page.Events
import PageTest.Registry
import PageTest.Report.Basic
import PageTest.Report.Wire
import PageTest.Scene
import PageTest.Script
import PageTest.Session
import PageTest.Text.Blank
import PageTest.Text.Quoted
import PageTest.Text.Unprintable
import PageTest.Time.Calendar
import PageTest.Time.Timestamp
import PageTest.Toml.Reader
import PageTest.Toml.Scalar
import PageTest.Toml.Table
import PageTest.Proofs.Machine.Core
import PageTest.Proofs.Machine.Run
import PageTest.Proofs.Machine.Effect
import PageTest.Proofs.Machine.Code
import PageTest.Proofs.Machine.Conduct
import PageTest.Proofs.Machine.Moves
import PageTest.Proofs.Machine.Turn
import PageTest.Proofs.Machine.Aside
import PageTest.Proofs.Machine.Apart
import PageTest.Proofs.Load.Story
import PageTest.Proofs.Load.Progress
import PageTest.Proofs.Load.Pass
import PageTest.Proofs.Load.Task
import PageTest.Proofs.Drive.Stage
import PageTest.Proofs.Drive.Watch
import PageTest.Proofs.Drive.Launch
import PageTest.Proofs.Drive.Return
import PageTest.Proofs.Report.Tally
import PageTest.Proofs.Drive.Passed
import PageTest.Proofs.Drive.Tour
import PageTest.Proofs.Drive.Leftover
import PageTest.Proofs.Report.Segments
import PageTest.Proofs.Load.Enrolled
import PageTest.Proofs.Drive.Roll
import PageTest.Proofs.Drive.Agreement
import PageTest.Proofs.Load.Weights
import PageTest.Proofs.Load.Ledger
import PageTest.Proofs.Load.Caller
import PageTest.Proofs.Load.Onward
import PageTest.Proofs.Load.Turns
import PageTest.Proofs.Load.Grammar
import PageTest.Proofs.Load.Rejected
import PageTest.Proofs.Load.Serial
import PageTest.Proofs.Runs.Bodies
import PageTest.Proofs.Runs.Census
import PageTest.Proofs.Runs.Tickets
import PageTest.Proofs.Runs.Exclusive
import PageTest.Proofs.Runs.Errand
import PageTest.Proofs.Runs.Rules
import PageTest.Proofs.Runs.Pass
import PageTest.Proofs.Runs.Alone
import PageTest.Proofs.Runs.Exact
import PageTest.Proofs.Runs.Stride
import PageTest.Proofs.Runs.Sway
import PageTest.Proofs.Runs.Reopened
import PageTest.Proofs.Runs.Observed
import PageTest.Proofs.Machine.Strokes
import PageTest.Proofs.Polling.Aloof
import PageTest.Proofs.Polling.Meek
import PageTest.Proofs.Polling.Handover
import PageTest.Proofs.Polling.Duty
import PageTest.Proofs.Polling.Rounds
import PageTest.Proofs.Polling.Deadline
import PageTest.Proofs.Polling.Veil
import PageTest.Proofs.Polling.Blind
import PageTest.Proofs.Polling.Apace
import PageTest.Proofs.Polling.Escort
import PageTest.Proofs.Polling.Unnoticed
import PageTest.Proofs.History.Prior
import PageTest.Proofs.History.Pages
import PageTest.Proofs.History.Moves
import PageTest.Proofs.History.Regardless
import PageTest.Proofs.Page.Edits
import PageTest.Proofs.Page.Changes
import PageTest.Proofs.Page.Walks
import PageTest.Proofs.Page.Arena
import PageTest.Proofs.Page.Lookup
import PageTest.Proofs.Page.Removal
import PageTest.Proofs.Page.Due
import PageTest.Proofs.Page.Answers
import PageTest.Proofs.Page.Inputs
import PageTest.Proofs.Time.Calendar
import PageTest.Proofs.Number.Digits
import PageTest.Proofs.Number.Rounding
import PageTest.Proofs.Number.Values
import PageTest.Proofs.Number.Nearest
import PageTest.Proofs.Number.Shortest
import PageTest.Proofs.Number.Texts
import PageTest.Proofs.Time.Timestamp
import PageTest.Proofs.Json.Leaves
import PageTest.Proofs.Json.Written
import PageTest.Proofs.Json.Alike
import PageTest.Proofs.Json.Congruence
import PageTest.Proofs.Json.Exact
import PageTest.Proofs.Json.Unambiguous
import PageTest.Proofs.Report.Wire
import PageTest.Proofs.Report.Split
import PageTest.Proofs.CommandLine.Files
import PageTest.Proofs.Drive.Filed
import PageTest.Proofs.CommandLine.Program
import PageTest.Proofs.Signals.Fired
import PageTest.Proofs.Signals.OneShot
import PageTest.Proofs.Signals.Switchboard
import PageTest.Proofs.Signals.Earshot
import PageTest.Proofs.Signals.Happening
import PageTest.Proofs.Signals.Sessions
import PageTest.Proofs.Signals.Waiting
import PageTest.Proofs.Conditions.Plans
import PageTest.Proofs.Conditions.Polls
import PageTest.Proofs.Forward.Leads
import PageTest.Proofs.Forward.Bodies
import PageTest.Proofs.Forward.Loads
import PageTest.Proofs.Forward.Waits
import PageTest.Proofs.Forward.Navigation
import PageTest.Proofs.Forward.SearchPage
import PageTest.Proofs.Forward.Scripts
import PageTest.Proofs.Forward.Drives
import PageTest.Proofs.Forward.Suite
import PageTest.Proofs.Config.Limits
import PageTest.Proofs.Drive.Clock
import PageTest.Proofs.Runs.Names
