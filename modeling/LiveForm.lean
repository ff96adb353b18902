import LiveForm.GuardTable
import LiveForm.Main
import LiveForm.Proofs.Baseline
import LiveForm.Proofs.Burst
import LiveForm.Proofs.CalledOff
import LiveForm.Proofs.Checked.Marks
import LiveForm.Proofs.Company
import LiveForm.Proofs.Comparison
import LiveForm.Proofs.DirtyPaths
import LiveForm.Proofs.Dispatch
import LiveForm.Proofs.Failures
import LiveForm.Proofs.FieldPath.Legible
import LiveForm.Proofs.Guarding
import LiveForm.Proofs.Json.Lens
import LiveForm.Proofs.LoadEnds
import LiveForm.Proofs.Loader
import LiveForm.Proofs.Loading
import LiveForm.Proofs.PhaseProtocol
import LiveForm.Proofs.Publication
import LiveForm.Proofs.Registration
import LiveForm.Proofs.Rest
import LiveForm.Proofs.Restart
import LiveForm.Proofs.Restriction
import LiveForm.Proofs.Script.Edits
import LiveForm.Proofs.Session
import LiveForm.Proofs.Store
import LiveForm.Proofs.Submits
import LiveForm.Proofs.Success
import LiveForm.Proofs.Tokens
import LiveForm.Proofs.Unsaved
import LiveForm.Proofs.Verdict
import LiveForm.Proofs.Wire.RoundTrip
import LiveForm.Summary
