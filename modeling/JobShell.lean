import JobShell.CommandLine
import JobShell.Machine.Layout
import JobShell.Machine.Waiting
import JobShell.Main
import JobShell.Proofs.JobTable.LastStage
import JobShell.Proofs.Lines.Spelling
import JobShell.Proofs.Launches.Wiring
import JobShell.Proofs.Sessions.Dialogue
import JobShell.Proofs.JobTable.Careers
import JobShell.Proofs.JobTable.States
import JobShell.Proofs.JobTable.Claims
import JobShell.Proofs.Sessions.Announcements
import JobShell.Proofs.JobTable.Reuse
import JobShell.Proofs.Threads.NoticeOrder
import JobShell.Proofs.Threads.PipelineStatus
import JobShell.Proofs.Threads.Program
import JobShell.Proofs.Threads.Resumption
import JobShell.Proofs.Sessions.Tables
import JobShell.Proofs.Sessions.HandOvers
import JobShell.Proofs.Threads.FailedWaits
import JobShell.Proofs.Sessions.LateClaims
import JobShell.Proofs.Launches.Holdings
import JobShell.Proofs.Sessions.FailedOperations
import JobShell.Proofs.Threads.FailedClaims
import JobShell.Proofs.Sessions.Passes
import JobShell.Proofs.Threads.Shutdown
import JobShell.Proofs.Launches.Placement
import JobShell.Proofs.Sessions.Effects
import JobShell.Proofs.Lines.Endings
import JobShell.Proofs.Lines.CommandText
import JobShell.Proofs.Sessions.ExitCodes
import JobShell.Proofs.Builtins.History
import JobShell.Proofs.Builtins.Directory
import JobShell.Proofs.Builtins.Kill
import JobShell.Proofs.Builtins.Variables
import JobShell.Proofs.Launches.Releases
