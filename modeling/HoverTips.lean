import HoverTips.Main
import HoverTips.Proofs.Text.Boundary
import HoverTips.Proofs.Text.Runs
import HoverTips.Proofs.Block.Window
import HoverTips.Proofs.Token.Placement
import HoverTips.Proofs.Tree.Results
import HoverTips.Proofs.Tree.Nodes
import HoverTips.Proofs.Tree.Walk
import HoverTips.Proofs.Tree.Readable
import HoverTips.Proofs.Tree.Declared
import HoverTips.Proofs.Tree.Findings
import HoverTips.Proofs.Tree.Faults
import HoverTips.Proofs.Block.WellFormed
import HoverTips.Proofs.Block.Names
import HoverTips.Proofs.Block.Validity
import HoverTips.Proofs.Digest
import HoverTips.Proofs.Markdown.Blocks
import HoverTips.Proofs.Tooltip.Ids
import HoverTips.Proofs.Tree.Tokens
import HoverTips.Proofs.Tree.Listing
import HoverTips.Proofs.Tree.Names
import HoverTips.Proofs.Tree.Members
import HoverTips.Proofs.Tree.Slices
import HoverTips.Proofs.Tree.Nesting
import HoverTips.Proofs.Block.Finishing
import HoverTips.Proofs.Batch.Unique
import HoverTips.Proofs.Batch.Calls
import HoverTips.Proofs.Batch.Histogram
import HoverTips.Proofs.Batch.Log
import HoverTips.Proofs.Tooltip.Complete
import HoverTips.Proofs.Batch.Counting
import HoverTips.Proofs.Batch.Worlds
import HoverTips.Proofs.Batch.Stopping
import HoverTips.Proofs.Batch.Interleaving
import HoverTips.Proofs.Batch.Operations
import HoverTips.Proofs.Batch.Frozen
import HoverTips.Proofs.Markdown.Tags
import HoverTips.Proofs.Tooltip.Additions
import HoverTips.Proofs.Tooltip.OncePerPage
import HoverTips.Proofs.Block.Vocabulary
import HoverTips.Proofs.Tooltip.Phrases
import HoverTips.Proofs.Token.Merging
import HoverTips.Proofs.Token.Search
import HoverTips.Proofs.Tooltip.Failures
import HoverTips.Proofs.Files.Pages
import HoverTips.Proofs.Batch.Steady
import HoverTips.Proofs.Command.Annotation
import HoverTips.Proofs.Tree.Leaves
import HoverTips.Proofs.Tree.Verdicts
import HoverTips.Proofs.Tree.Values
import HoverTips.Proofs.Tree.Spelling
import HoverTips.Proofs.Tree.Bare
import HoverTips.Proofs.Tree.Comments
import HoverTips.Proofs.Block.Checking
import HoverTips.Proofs.Tree.Widening
import HoverTips.Proofs.Text.Lines
import HoverTips.Proofs.Tree.Arrays
import HoverTips.Proofs.Tree.Lines
import HoverTips.Proofs.Tree.Returning
import HoverTips.Proofs.Tree.Titles
import HoverTips.Proofs.Tooltip.WholeWords
import HoverTips.Proofs.Markdown.Pieces
import HoverTips.Proofs.Markdown.Sides
import HoverTips.Proofs.Glossary.Layers
import HoverTips.Proofs.Tooltip.Replacing
import HoverTips.Proofs.Batch.Throttle
import HoverTips.Proofs.Block.Tooltips
import HoverTips.Proofs.Files.Finding
import HoverTips.Proofs.Digest.Apart
import HoverTips.Proofs.Tooltip.Slugs
import HoverTips.Proofs.Files.Sidecars
