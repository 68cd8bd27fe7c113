import Views.Proofs.Directive
import Views.Proofs.Engine.Bare
import Views.Proofs.Engine.Barrier
import Views.Proofs.Engine.Course
import Views.Proofs.Engine.Fragments
import Views.Proofs.Engine.Layouts
import Views.Proofs.Engine.Lookups
import Views.Proofs.Engine.Notes
import Views.Proofs.Engine.Oblivious
import Views.Proofs.Engine.Residue
import Views.Proofs.Engine.Stability
import Views.Proofs.Engine.Together
import Views.Proofs.Engine.Transparency
import Views.Proofs.Engine.Uncached
import Views.Proofs.Extension
import Views.Proofs.Render.Isolation
import Views.Proofs.Source.Directory
import Views.Proofs.Source.Documents
import Views.Proofs.Source.Insertions
import Views.Proofs.Source.Listing
import Views.Proofs.Token.Delivery
import Views.Proofs.Token.Filling
import Views.Settings.Document
import Views.Text.Uppercase
import Views.Value.Reader
