import VirtualPad.Clock
import VirtualPad.CommandLine
import VirtualPad.Condition
import VirtualPad.Condition.Expression
import VirtualPad.Config
import VirtualPad.Config.Compile
import VirtualPad.Config.Diagnostic
import VirtualPad.Config.File
import VirtualPad.Config.Verdict
import VirtualPad.Control
import VirtualPad.Control.Descriptor
import VirtualPad.Document
import VirtualPad.Document.Toml
import VirtualPad.Document.Toml.Dates
import VirtualPad.Document.Toml.Strings
import VirtualPad.Document.Toml.Tree
import VirtualPad.Document.Toml.Words
import VirtualPad.Engine
import VirtualPad.Engine.Cascade
import VirtualPad.Engine.Commands
import VirtualPad.Engine.Install
import VirtualPad.Engine.Latch
import VirtualPad.Engine.State
import VirtualPad.Engine.Tick
import VirtualPad.Engine.Turn
import VirtualPad.Host
import VirtualPad.Main
import VirtualPad.Mapping
import VirtualPad.Mask
import VirtualPad.Number.Binary64
import VirtualPad.Number.Hypotenuse
import VirtualPad.Number.Power
import VirtualPad.Number.Reading
import VirtualPad.Number.Rounding
import VirtualPad.Number.Scalar
import VirtualPad.Number.Shortest
import VirtualPad.Number.Text
import VirtualPad.Pad
import VirtualPad.Pad.Rotation
import VirtualPad.Pad.Stick
import VirtualPad.Proofs.ArmedTimers
import VirtualPad.Proofs.Assignment
import VirtualPad.Proofs.BackedSlots
import VirtualPad.Proofs.Beats
import VirtualPad.Proofs.Blinking
import VirtualPad.Proofs.BuiltUp
import VirtualPad.Proofs.Bystanders
import VirtualPad.Proofs.CarriedMotion
import VirtualPad.Proofs.Cascades
import VirtualPad.Proofs.CellsMirror
import VirtualPad.Proofs.Commits
import VirtualPad.Proofs.Compilation
import VirtualPad.Proofs.Conditions
import VirtualPad.Proofs.Contributions
import VirtualPad.Proofs.Controls
import VirtualPad.Proofs.CountingSlots
import VirtualPad.Proofs.Deeds
import VirtualPad.Proofs.Deposits
import VirtualPad.Proofs.Directories
import VirtualPad.Proofs.Draining
import VirtualPad.Proofs.ExactNumbers
import VirtualPad.Proofs.Expressions
import VirtualPad.Proofs.Falls
import VirtualPad.Proofs.Fittings
import VirtualPad.Proofs.Followers
import VirtualPad.Proofs.Footprints
import VirtualPad.Proofs.ForcedRequests
import VirtualPad.Proofs.Frames
import VirtualPad.Proofs.FreshStart
import VirtualPad.Proofs.GivenCommands
import VirtualPad.Proofs.Grammar
import VirtualPad.Proofs.GuisedCalls
import VirtualPad.Proofs.Guises
import VirtualPad.Proofs.HeardReleases
import VirtualPad.Proofs.HeldInputs
import VirtualPad.Proofs.Histories
import VirtualPad.Proofs.Holds
import VirtualPad.Proofs.HostCommands
import VirtualPad.Proofs.HostEdges
import VirtualPad.Proofs.Installation
import VirtualPad.Proofs.KeyEdges
import VirtualPad.Proofs.KeyRepeats
import VirtualPad.Proofs.Latches
import VirtualPad.Proofs.LatePresses
import VirtualPad.Proofs.Loads
import VirtualPad.Proofs.Looks
import VirtualPad.Proofs.Lookups
import VirtualPad.Proofs.MergedSides
import VirtualPad.Proofs.Mirror
import VirtualPad.Proofs.MotionHolds
import VirtualPad.Proofs.Moves
import VirtualPad.Proofs.Negations
import VirtualPad.Proofs.Neutral
import VirtualPad.Proofs.Orders
import VirtualPad.Proofs.Pace
import VirtualPad.Proofs.PairToggles
import VirtualPad.Proofs.PairsInStep
import VirtualPad.Proofs.PassedKeys
import VirtualPad.Proofs.Perimeter
import VirtualPad.Proofs.Phases
import VirtualPad.Proofs.Rates
import VirtualPad.Proofs.References
import VirtualPad.Proofs.Registration
import VirtualPad.Proofs.Releases
import VirtualPad.Proofs.Replays
import VirtualPad.Proofs.Requests
import VirtualPad.Proofs.RestingPads
import VirtualPad.Proofs.Rests
import VirtualPad.Proofs.RotatorWalk
import VirtualPad.Proofs.Runs
import VirtualPad.Proofs.SameVersion
import VirtualPad.Proofs.SlotHistories
import VirtualPad.Proofs.SlotOwners
import VirtualPad.Proofs.Spelling
import VirtualPad.Proofs.Spots
import VirtualPad.Proofs.Stability
import VirtualPad.Proofs.StandingConditions
import VirtualPad.Proofs.Steps
import VirtualPad.Proofs.SwitchedOff
import VirtualPad.Proofs.Switching
import VirtualPad.Proofs.Tables
import VirtualPad.Proofs.Ticks
import VirtualPad.Proofs.TidyWords
import VirtualPad.Proofs.Timers
import VirtualPad.Proofs.Timestamps
import VirtualPad.Proofs.TypedTurns
import VirtualPad.Proofs.Typing
import VirtualPad.Proofs.UsableSettings
import VirtualPad.Proofs.VariablesInStep
import VirtualPad.Proofs.Visits
import VirtualPad.Proofs.Waits
import VirtualPad.Proofs.WellFormed
import VirtualPad.Proofs.Wiring
import VirtualPad.Replay
import VirtualPad.Report
import VirtualPad.Settings
import VirtualPad.Slots
import VirtualPad.Slots.Cells
import VirtualPad.Slots.Words
import VirtualPad.Switchboard
import VirtualPad.Text.Blank
import VirtualPad.User
import VirtualPad.Vocabulary
