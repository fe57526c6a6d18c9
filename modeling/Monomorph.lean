import Monomorph.Command.Directory
import Monomorph.Main
import Monomorph.Proofs.Propagation
import Monomorph.Proofs.Rendering
import Monomorph.Proofs.Reordering
import Monomorph.Proofs.Schedules
import Monomorph.Proofs.Sites
import Monomorph.Proofs.Publication
import Monomorph.Proofs.Keys
import Monomorph.Proofs.Growth
import Monomorph.Proofs.Capture
import Monomorph.Proofs.Documents
import Monomorph.Proofs.Isolation
import Monomorph.Proofs.Composition
import Monomorph.Proofs.Canonical
import Monomorph.Proofs.Location
import Monomorph.Proofs.Reseeding
import Monomorph.Proofs.Nesting
import Monomorph.Proofs.Shorthand
import Monomorph.Proofs.Answers
