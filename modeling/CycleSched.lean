import CycleSched.Session.Run
import CycleSched.Validate
import CycleSched.Main
import CycleSched.Proofs.Runs
import CycleSched.Proofs.Delivery
import CycleSched.Proofs.Runahead
import CycleSched.Proofs.TraceRetention
import CycleSched.Proofs.Restart
import CycleSched.Proofs.Pruning
import CycleSched.Proofs.FlowWait
import CycleSched.Proofs.Refusals
import CycleSched.Proofs.FlowBound
import CycleSched.Proofs.FlowCommands
import CycleSched.Proofs.RestoredFlows
import CycleSched.Proofs.FreshFlows
import CycleSched.Proofs.Lifecycle
import CycleSched.Proofs.Spawners
import CycleSched.Proofs.LiveInvariant
import CycleSched.Proofs.PoolOrder
import CycleSched.Proofs.Recurrence
import CycleSched.Proofs.Cursor
import CycleSched.Proofs.RefusedCalls
import CycleSched.Proofs.Readiness
import CycleSched.Proofs.CompiledTasks
import CycleSched.Proofs.SamePointWaits
import CycleSched.Proofs.StuckTasks
import CycleSched.Proofs.Enumeration
import CycleSched.Proofs.Verdicts
import CycleSched.Proofs.FlowText
import CycleSched.Proofs.Checkpoint
import CycleSched.Proofs.CivilDays
import CycleSched.Proofs.InstantDates
import CycleSched.Proofs.ExactOffsets
import CycleSched.Proofs.ShiftedSequences
import CycleSched.Proofs.Coincidence
import CycleSched.Proofs.IntervalText
import CycleSched.Proofs.FormulaGrammar
import CycleSched.Proofs.FormulaText
import CycleSched.Proofs.PointGrammar
import CycleSched.Proofs.SettingOverlay
import CycleSched.Proofs.SettingWrites
import CycleSched.Proofs.InheritanceChain
import CycleSched.Proofs.CompiledGraph
import CycleSched.Proofs.BroadcastRepeat
import CycleSched.Proofs.SkipJob
import CycleSched.Proofs.SettingLeaves
import CycleSched.Proofs.BroadcastResolution
