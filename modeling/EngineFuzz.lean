import EngineFuzz.Main
import EngineFuzz.Proofs.BlockLines
import EngineFuzz.Proofs.ConditionGrammar
import EngineFuzz.Proofs.ConfigFields
import EngineFuzz.Proofs.ConfigMeaning
import EngineFuzz.Proofs.ConfigRanges
import EngineFuzz.Proofs.DeclarationGrammar
import EngineFuzz.Proofs.DocumentEntry
import EngineFuzz.Proofs.DocumentPlaces
import EngineFuzz.Proofs.DocumentReading
import EngineFuzz.Proofs.DocumentTree
import EngineFuzz.Proofs.EngineArguments
import EngineFuzz.Proofs.EngineOptions
import EngineFuzz.Proofs.ExpressionLanguage
import EngineFuzz.Proofs.ExpressionTrees
import EngineFuzz.Proofs.GuardConditions
import EngineFuzz.Proofs.HarnessFile
import EngineFuzz.Proofs.HarnessHandles
import EngineFuzz.Proofs.HarnessLines
import EngineFuzz.Proofs.HarnessScan
import EngineFuzz.Proofs.HarnessText
import EngineFuzz.Proofs.InstrumentCommand
import EngineFuzz.Proofs.LineSplitters
import EngineFuzz.Proofs.MarkerBits
import EngineFuzz.Proofs.NestedHarnesses
import EngineFuzz.Proofs.PrintedDocuments
import EngineFuzz.Proofs.ProbeTrials
import EngineFuzz.Proofs.ProgramDecoding
import EngineFuzz.Proofs.ProgramFiles
import EngineFuzz.Proofs.ProgramInputs
import EngineFuzz.Proofs.ProgramWriting
import EngineFuzz.Proofs.ReadingLimits
import EngineFuzz.Proofs.RecordOrder
import EngineFuzz.Proofs.RewordedFiles
import EngineFuzz.Proofs.RunCommand
import EngineFuzz.Proofs.SamplingModes
import EngineFuzz.Proofs.SeedLine
import EngineFuzz.Proofs.SeedReplay
import EngineFuzz.Proofs.SiblingPaths
import EngineFuzz.Proofs.SynthesisLimits
import EngineFuzz.Proofs.TakenFiles
import EngineFuzz.Proofs.UniformSizes
import EngineFuzz.Script
