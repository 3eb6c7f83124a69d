import AnimatedCanvas.Config.Directory
import AnimatedCanvas.FrameQueue.Script
import AnimatedCanvas.Main
import AnimatedCanvas.Page.Copy
import AnimatedCanvas.Page.Effects
import AnimatedCanvas.Proofs.FrameQueue.Handles
import AnimatedCanvas.Proofs.Stage.FrameLoop
import AnimatedCanvas.Proofs.Stage.Solo
import AnimatedCanvas.Proofs.Stage.Destroyed
import AnimatedCanvas.Proofs.Binary64.Canonical
import AnimatedCanvas.Proofs.Binary64.Order
import AnimatedCanvas.Proofs.Binary64.Rounding
import AnimatedCanvas.Proofs.Config.Field
import AnimatedCanvas.Proofs.Field.Edges
import AnimatedCanvas.Proofs.Field.Operation
import AnimatedCanvas.Proofs.Field.Population
import AnimatedCanvas.Proofs.Binary64.Arithmetic
import AnimatedCanvas.Proofs.Binary64.Chains
import AnimatedCanvas.Proofs.Binary64.Distance
import AnimatedCanvas.Proofs.Span
import AnimatedCanvas.Proofs.Field.Surface
import AnimatedCanvas.Proofs.Field.Quiescence
import AnimatedCanvas.Proofs.Config.Overrides
import AnimatedCanvas.Proofs.Config.Circuit
import AnimatedCanvas.Proofs.Config.RoundTrip
import AnimatedCanvas.Proofs.Field.Ledger
import AnimatedCanvas.Proofs.FrameQueue.Withdrawal
import AnimatedCanvas.Proofs.Domain
import AnimatedCanvas.Proofs.Circuit.Sequence
import AnimatedCanvas.Proofs.Hosts
import AnimatedCanvas.Proofs.Page.Copy
import AnimatedCanvas.Proofs.Page.Site
import AnimatedCanvas.Proofs.Field.Lives
import AnimatedCanvas.Proofs.Field.Chance
import AnimatedCanvas.Proofs.CommandLine
import AnimatedCanvas.Proofs.Config.Agreement
import AnimatedCanvas.Proofs.Circuit.Sweep
import AnimatedCanvas.Proofs.Field.NonInteractive
import AnimatedCanvas.Proofs.Config.Repetition
import AnimatedCanvas.Proofs.Surface.Transcript
import AnimatedCanvas.Proofs.Color.Spelling
import AnimatedCanvas.Proofs.CommandLine.Summary
import AnimatedCanvas.Proofs.Field.Frame
import AnimatedCanvas.Proofs.Field.Paint
import AnimatedCanvas.Proofs.Wave.Forward
import AnimatedCanvas.Proofs.Field.Retirement
import AnimatedCanvas.Proofs.Circuit.ReadBack
import AnimatedCanvas.Proofs.Stage.Sizes
import AnimatedCanvas.Proofs.Trail
import AnimatedCanvas.Proofs.Span.Drawn
