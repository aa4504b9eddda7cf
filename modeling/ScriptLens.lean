import ScriptLens.Main
import ScriptLens.Proofs.Catalog.History
import ScriptLens.Proofs.Diagnostic.Coverage
import ScriptLens.Proofs.Diagnostic.Position
import ScriptLens.Proofs.Literal.Boundary
import ScriptLens.Proofs.Literal.Counting
import ScriptLens.Proofs.Literal.Union
import ScriptLens.Proofs.Outline.Forest
import ScriptLens.Proofs.Outline.Naming
import ScriptLens.Proofs.Outline.Parents
import ScriptLens.Proofs.Outline.Rendering
import ScriptLens.Proofs.Outline.Traversal
import ScriptLens.Proofs.Reference.Access
import ScriptLens.Proofs.Reference.Independence
import ScriptLens.Proofs.Session.Disposal
import ScriptLens.Proofs.Session.Freshness
import ScriptLens.Proofs.Session.Leftover
import ScriptLens.Proofs.Session.Paths
import ScriptLens.Proofs.Session.Recording
import ScriptLens.Proofs.Session.Recovery
import ScriptLens.Proofs.Session.Refinement
import ScriptLens.Proofs.Session.Replacement
import ScriptLens.Proofs.Session.Stamp
import ScriptLens.Proofs.Session.Validation
import ScriptLens.Proofs.Source.Version
import ScriptLens.Proofs.Wire.Layout
import ScriptLens.Proofs.Wire.Rearrangement
import ScriptLens.Proofs.Worker.Framing
import ScriptLens.Proofs.Worker.Idle
import ScriptLens.Proofs.Worker.Influence
import ScriptLens.Source.Summary
