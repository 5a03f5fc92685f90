import StoryAsm.Files.Tree
import StoryAsm.Main
import StoryAsm.Proofs.Code.Machine
import StoryAsm.Proofs.Code.Passes
import StoryAsm.Proofs.Code.FlushMeaning
import StoryAsm.Proofs.Code.Labels
import StoryAsm.Proofs.Code.Plain
import StoryAsm.Proofs.Fusion.Processor
import StoryAsm.Proofs.Routine.Lines
import StoryAsm.Proofs.Routine.Call
import StoryAsm.Proofs.Routine.Plain
import StoryAsm.Proofs.Fusion.Soundness
import StoryAsm.Proofs.Story.Define
import StoryAsm.Proofs.Manifest.Stage
import StoryAsm.Proofs.Manifest.Acceptance
import StoryAsm.Proofs.Story.Namespace
import StoryAsm.Proofs.Story.Finish
import StoryAsm.Proofs.Story.Call
import StoryAsm.Proofs.Story.Refusal
import StoryAsm.Proofs.Story.Plain
import StoryAsm.Proofs.Story.DebugInfo
import StoryAsm.Proofs.Story.Written
import StoryAsm.Proofs.Story.Generated
import StoryAsm.Proofs.Story.Introduced
import StoryAsm.Proofs.World.Fit
import StoryAsm.Proofs.Story.Prefix
import StoryAsm.Proofs.Story.Interleaving
import StoryAsm.Proofs.World.Tree
import StoryAsm.Proofs.Manifest.Tree
import StoryAsm.Proofs.Routine.History
import StoryAsm.Proofs.Code.Front
import StoryAsm.Proofs.Routine.Prologue
import StoryAsm.Proofs.Code.Directives
import StoryAsm.Proofs.Code.Concatenation
import StoryAsm.Proofs.Code.Optimal
import StoryAsm.Proofs.Story.FileIds
import StoryAsm.Proofs.Story.Numbering
import StoryAsm.Proofs.Manifest.Contents
import StoryAsm.Proofs.Manifest.References
import StoryAsm.Proofs.Files.Build
import StoryAsm.Proofs.Table
import StoryAsm.Proofs.Story.Vocabulary
import StoryAsm.Proofs.World.Properties
import StoryAsm.Proofs.Story.DictionaryTexts
import StoryAsm.Proofs.World.Flags
import StoryAsm.Proofs.Operand.Pool
import StoryAsm.Proofs.Story.Globals
import StoryAsm.Proofs.Text.Quoted
import StoryAsm.Proofs.Story.Strings
import StoryAsm.Proofs.Routine.Selection
import StoryAsm.Proofs.Story.PropertySymbols
import StoryAsm.Proofs.Symbol.Collision
import StoryAsm.Proofs.Code.Legible
import StoryAsm.Proofs.Routine.Legible
import StoryAsm.Proofs.Code.Aliases
import StoryAsm.Proofs.Story.SequencePoints
import StoryAsm.Proofs.Story.StructuralNumbers
import StoryAsm.Proofs.Story.Literals
import StoryAsm.Proofs.Code.Resolved
import StoryAsm.Proofs.Story.Source
