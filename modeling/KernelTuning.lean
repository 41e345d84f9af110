import KernelTuning.Instruction.Json
import KernelTuning.Main
import KernelTuning.Proofs.AcceptedKnobs
import KernelTuning.Proofs.CanonicalText
import KernelTuning.Proofs.FastestRecords
import KernelTuning.Proofs.HostRuns
import KernelTuning.Proofs.PrintedProblems
import KernelTuning.Proofs.TableFiles
import KernelTuning.Proofs.WiderLevels
import KernelTuning.Proofs.TuningReport
import KernelTuning.Proofs.StructuralLimits
import KernelTuning.Proofs.TableProgress
import KernelTuning.Proofs.ConfiguredProblems
import KernelTuning.Proofs.RestartedSessions
import KernelTuning.Proofs.RoundingOrder
import KernelTuning.Proofs.SplitAdvice
import KernelTuning.Proofs.WindowPositions
import KernelTuning.Proofs.StagedTiles
import KernelTuning.Proofs.TunableDepth
import KernelTuning.Proofs.StepElements
import KernelTuning.Proofs.InstructionTiles
import KernelTuning.Proofs.CallerBuffers
import KernelTuning.Proofs.GrownShapes
