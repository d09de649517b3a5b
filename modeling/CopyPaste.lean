import CopyPaste.Main
import CopyPaste.Shelf
import CopyPaste.Proofs.Coordinator.Admission
import CopyPaste.Proofs.Coordinator.Correlation
import CopyPaste.Proofs.Coordinator.Reads
import CopyPaste.Proofs.Copying.Confluence
import CopyPaste.Proofs.Copying.Lifetime
import CopyPaste.Proofs.Editor.Listing
import CopyPaste.Proofs.Handle.Naming
import CopyPaste.Proofs.Markdown.Fencing
import CopyPaste.Proofs.Markdown.FilePaths
import CopyPaste.Proofs.Markdown.Reading
import CopyPaste.Proofs.Markdown.Resolution
import CopyPaste.Proofs.Pasting.Answers
import CopyPaste.Proofs.Pasting.Cancellation
import CopyPaste.Proofs.Pasting.Fallback
import CopyPaste.Proofs.Pasting.Race
import CopyPaste.Proofs.Pasting.Replacement
import CopyPaste.Proofs.Pasting.Supply
import CopyPaste.Proofs.Payload.Stale
import CopyPaste.Proofs.Registry.Priority
import CopyPaste.Proofs.Session.Dragging
import CopyPaste.Proofs.Session.Ranges
import CopyPaste.Proofs.Session.Transplant
import CopyPaste.Proofs.Snippet
import CopyPaste.Proofs.Transfer.Interpretation
import CopyPaste.Proofs.Transfer.Lineage
import CopyPaste.Proofs.Transfer.Refinement
import CopyPaste.Proofs.Transfer.Sharing
