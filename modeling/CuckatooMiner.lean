import CuckatooMiner.SipHash
import CuckatooMiner.Verify
import CuckatooMiner.VerifyExact
import CuckatooMiner.EndpointKernels
import CuckatooMiner.CpuTrim
import CuckatooMiner.Foundation.FirstFound
import CuckatooMiner.CpuSearch
import CuckatooMiner.CpuLean
import CuckatooMiner.Foundation.CountingPass
import CuckatooMiner.RadixOrder
import CuckatooMiner.Foundation.Elimination
import CuckatooMiner.Peel
import CuckatooMiner.PeelCore
import CuckatooMiner.D2
import CuckatooMiner.Coordinator
import CuckatooMiner.GpuVerdict
import CuckatooMiner.CoordinatorShares
import CuckatooMiner.CoordinatorOnce
import CuckatooMiner.CoordinatorNotices
import CuckatooMiner.Foundation.BitmapWindows
import CuckatooMiner.Foundation.Reservation
import CuckatooMiner.LeanRound
import CuckatooMiner.Slean
import CuckatooMiner.SleanShape
import CuckatooMiner.SleanKernels
import CuckatooMiner.SleanRound
import CuckatooMiner.Metal
import CuckatooMiner.MetalKernels
import CuckatooMiner.Foundation.CheckedElimination
import CuckatooMiner.PeelExact
import CuckatooMiner.Foundation.StridedSweep
import CuckatooMiner.GpuLean
import CuckatooMiner.SearchAgreement
import CuckatooMiner.EarlyExit
import CuckatooMiner.Stratum
import CuckatooMiner.StratumTasks
import CuckatooMiner.StratumRequests
import CuckatooMiner.StratumJobs
import CuckatooMiner.Bucketed
import CuckatooMiner.BucketedKernels
import CuckatooMiner.BucketedRound
import CuckatooMiner.TrimRun
import CuckatooMiner.TrimRunExact
import CuckatooMiner.TrimEngines
import CuckatooMiner.MetalRound
import CuckatooMiner.MetalArenas
import CuckatooMiner.MetalExact
import CuckatooMiner.MetalCounts
import CuckatooMiner.RadixIndex
import CuckatooMiner.JobValidation
import CuckatooMiner.ProofPacking
import CuckatooMiner.StratumFraming
import CuckatooMiner.SleanLayout
import CuckatooMiner.SleanSeen
import CuckatooMiner.MetalParts
import CuckatooMiner.FineRound
import CuckatooMiner.FineKernels
import CuckatooMiner.FineRoundExact
import CuckatooMiner.FineSeed
import CuckatooMiner.Foundation.Polling
import CuckatooMiner.WgpuTrim
import CuckatooMiner.WgpuRounds
import CuckatooMiner.WgpuTrimExact
import CuckatooMiner.Verdict
import CuckatooMiner.WgpuSolve
import CuckatooMiner.MetalSolve
import CuckatooMiner.CpuSolve
import CuckatooMiner.HonestSolver
import CuckatooMiner.Cli
import CuckatooMiner.Gate
import CuckatooMiner.CoordinatorCoverage
import CuckatooMiner.CoordinatorEnds
import CuckatooMiner.Foundation.Checks
import CuckatooMiner.MetalSelfTest
