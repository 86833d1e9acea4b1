import ClassTidy.Main
import ClassTidy.Proofs.Sorting.Cut
import ClassTidy.Proofs.Sorting.Scale
import ClassTidy.Proofs.Sorting.Merge
import ClassTidy.Proofs.Sorting.Adaptive
import ClassTidy.Proofs.Class.Standing
import ClassTidy.Proofs.Class.Arrangement
import ClassTidy.Proofs.Text.Words
import ClassTidy.Proofs.Attribute.Segments
import ClassTidy.Proofs.Attribute.Rearrange
import ClassTidy.Proofs.Attribute.Copies
import ClassTidy.Proofs.Attribute.Lines
import ClassTidy.Proofs.Attribute.Sort
import ClassTidy.Proofs.Attribute.Parts
import ClassTidy.Proofs.Attribute.Conservation
import ClassTidy.Proofs.Attribute.Spacing
import ClassTidy.Proofs.Attribute.Idempotence
import ClassTidy.Proofs.Class.Order
import ClassTidy.Proofs.Config.Distinct
import ClassTidy.Proofs.Class.Position
import ClassTidy.Proofs.Attribute.Ends
import ClassTidy.Proofs.Attribute.WellFormed
import ClassTidy.Proofs.Number.Value
import ClassTidy.Proofs.Class.Blocks
import ClassTidy.Proofs.Class.Preorder
import ClassTidy.Proofs.Class.Ties
import ClassTidy.Proofs.Class.Dropping
import ClassTidy.Proofs.Class.Agreement
import ClassTidy.Proofs.Attribute.Collapse
import ClassTidy.Proofs.Class.Group
import ClassTidy.Proofs.Class.Variants
import ClassTidy.Proofs.Class.Separators
import ClassTidy.Proofs.Class.Category
import ClassTidy.Proofs.Attribute.Kept
import ClassTidy.Proofs.Attribute.Presorting
import ClassTidy.Proofs.Attribute.Multiline
import ClassTidy.Proofs.Attribute.SingleSpaced
import ClassTidy.Proofs.Steps
import ClassTidy.Proofs.Config.Keys
import ClassTidy.Proofs.Yaml.Document
import ClassTidy.Proofs.Config.Layer
import ClassTidy.Proofs.Config.Paths
import ClassTidy.Proofs.Config.Stacked
import ClassTidy.Proofs.Config.Again
import ClassTidy.Proofs.Config.Loaded
import ClassTidy.Proofs.Text.Utf8
import ClassTidy.Proofs.Config.OrderFile
import ClassTidy.Proofs.Config.Settings
import ClassTidy.Proofs.CommandLine.Foreseen
import ClassTidy.Proofs.CommandLine.LongerOrder
import ClassTidy.Proofs.CommandLine.Inputs
import ClassTidy.Proofs.CommandLine.Overrides
