import UThreads.Lib.Prog
import UThreads.Lib.Run
import UThreads.Lib.Table
import UThreads.Lib.Fifo
import UThreads.Lib.Interrupt
import UThreads.Lib.Drive
import UThreads.Lib.Points
import UThreads.Lib.Guard
import UThreads.Lib.Simulation
import UThreads.Abstract.Scheduler
import UThreads.Model.State
import UThreads.Model.Statements
import UThreads.Model.Scheduler
import UThreads.Model.Api
import UThreads.Model.System
import UThreads.Effects.Straight
import UThreads.Effects.Dispatch
import UThreads.Effects.Calls
import UThreads.Effects.Switch
import UThreads.Invariant.WellFormed
import UThreads.Effects.Step
import UThreads.Invariant.Preservation
import UThreads.Effects.Faults
import UThreads.Effects.FrontReads
import UThreads.Properties.Scheduler
import UThreads.Properties.ThreadIds
import UThreads.Properties.RoundRobin
import UThreads.Properties.History
import UThreads.Properties.Quanta
import UThreads.Properties.Control
import UThreads.Properties.Sleep
import UThreads.Properties.SleepingSet
import UThreads.Properties.Resume
import UThreads.Properties.WakeUp
import UThreads.Properties.LostSleep
import UThreads.Properties.Commute
import UThreads.Properties.Overflow
import UThreads.Interrupt.Machine
import UThreads.Interrupt.Landing
import UThreads.Interrupt.Discipline
import UThreads.Interrupt.Points
import UThreads.Properties.TimerMask
import UThreads.Properties.Failures
import UThreads.Properties.FreshQuantum
import UThreads.Properties.GetQuantums
import UThreads.Properties.CallerMask
import UThreads.Properties.Refinement
import UThreads.Properties.Completeness
import UThreads.Lib.Serial
import UThreads.Properties.Serializable
import UThreads.Properties.Fairness
import UThreads.Lib.Frame
import UThreads.Lib.Zoom
import UThreads.Lib.Heap
import UThreads.Model.Memory
import UThreads.Effects.Stacks
import UThreads.Effects.Memory
import UThreads.Properties.Memory
import UThreads.Interrupt.Memory
import UThreads.Interrupt.HeapPoints
import UThreads.Properties.Teardown
import UThreads.Properties.Ending
