import Reconcile.Conflict.Collaborators
import Reconcile.Files.Tree
import Reconcile.Main
import Reconcile.Policy.Document
import Reconcile.Proofs.Checkin.Attached
import Reconcile.Proofs.Checkin.Heeding
import Reconcile.Proofs.Checkin.Independent
import Reconcile.Proofs.Checkin.NoteOrder
import Reconcile.Proofs.Checkin.Overriding
import Reconcile.Proofs.Checkin.Plainly
import Reconcile.Proofs.Checkin.Relocated
import Reconcile.Proofs.Checkin.Tally
import Reconcile.Proofs.Checkin.Wording
import Reconcile.Proofs.Checkin.WorkItems
import Reconcile.Proofs.CommandLine.Blocking
import Reconcile.Proofs.Config.Validation
import Reconcile.Proofs.Conflict.ChangeSet
import Reconcile.Proofs.Conflict.Keeping
import Reconcile.Proofs.Conflict.Ledgers
import Reconcile.Proofs.Conflict.MergeReport
import Reconcile.Proofs.Conflict.OneSided
import Reconcile.Proofs.Conflict.Recording
import Reconcile.Proofs.Conflict.Tables
import Reconcile.Proofs.Markup.Scanning
import Reconcile.Proofs.Policy.Configured
import Reconcile.Proofs.Policy.Overrides
import Reconcile.Proofs.Workspace.Lookup
import Reconcile.Proofs.Workspace.Placement
