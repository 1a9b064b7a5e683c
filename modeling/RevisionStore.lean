import RevisionStore.Registry
import RevisionStore.Files.Tree
import RevisionStore.Main
import RevisionStore.Proofs.Repository.Refinement
import RevisionStore.Proofs.Controller.Readings
import RevisionStore.Proofs.ChangeRequestName
import RevisionStore.Proofs.Repository.Effect
import RevisionStore.Proofs.Repository.ParentChain
import RevisionStore.Proofs.Repository.Priority
import RevisionStore.Proofs.Repository.Lifecycle
import RevisionStore.Proofs.Checkout.RoundTrip
import RevisionStore.Proofs.Controller.Locality
import RevisionStore.Proofs.Controller.Independence
import RevisionStore.Proofs.Fixture.Accepted
import RevisionStore.Proofs.Fixture.Replay
import RevisionStore.Proofs.Fixture.Reproducibility
import RevisionStore.Proofs.Fixture.Failure
import RevisionStore.Proofs.CommandLine.Listing
import RevisionStore.Proofs.Registry
import RevisionStore.Proofs.Controller.Convergence
import RevisionStore.Proofs.Repository.Roots
import RevisionStore.Proofs.Repository.ReadBack
import RevisionStore.Proofs.PathKind
import RevisionStore.Proofs.Checkout.Stopping
import RevisionStore.Proofs.Checkout.Overlay
import RevisionStore.Proofs.Controller.Agreement
import RevisionStore.Proofs.CanonicalName
import RevisionStore.Proofs.HashOrder
import RevisionStore.Proofs.TimeText
import RevisionStore.Proofs.Fixture.Encoding
