import AsmLens.Main
import AsmLens.View.Decoration
import AsmLens.Proofs.View.Resolve
import AsmLens.Proofs.Job.Rehearsal
import AsmLens.Proofs.Session.Provenance
import AsmLens.Proofs.Session.Conversation
import AsmLens.Proofs.Job.LiveLoop
import AsmLens.Proofs.Gas.Merge
import AsmLens.Proofs.Store.Ownership
import AsmLens.Proofs.Session.Installation
import AsmLens.Proofs.View.Navigation
import AsmLens.Proofs.Compilation.Contracts
import AsmLens.Proofs.Compilation.Bookkeeping
import AsmLens.Proofs.Session.Wholeness
import AsmLens.Proofs.Job.Callback
import AsmLens.Proofs.Service.Client
import AsmLens.Proofs.CommandLine.Output
import AsmLens.Proofs.CommandLine.Offline
import AsmLens.Proofs.Source.Coordinates
import AsmLens.Proofs.Gas.Wholeness
import AsmLens.Proofs.View.Wire
import AsmLens.Proofs.Number.Doubling
import AsmLens.Proofs.Job.Backoff
import AsmLens.Proofs.Gas.Classification
import AsmLens.Proofs.View.Layers
import AsmLens.Proofs.Session.Errors
import AsmLens.Proofs.Session.Refusal
import AsmLens.Proofs.Assembly.Overrun
import AsmLens.Proofs.Syntax.Parameter
import AsmLens.Proofs.Gas.Overloads
import AsmLens.Proofs.Settings.Persistence
import AsmLens.Proofs.Settings.Loading
import AsmLens.Proofs.Gas.Coverage
import AsmLens.Proofs.Syntax.LevelOrder
import AsmLens.Proofs.Gas.Means
