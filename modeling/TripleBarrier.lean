import TripleBarrier.Batch.Log
import TripleBarrier.Batch.SettingsFile
import TripleBarrier.Json.Reader
import TripleBarrier.Schema.Outcome
import TripleBarrier.Proofs.Walk
import TripleBarrier.Proofs.Window
import TripleBarrier.Proofs.FirstHit
import TripleBarrier.Proofs.Refinement
import TripleBarrier.Proofs.Course
import TripleBarrier.Proofs.Audit
import TripleBarrier.Proofs.Causality
import TripleBarrier.Proofs.FloatOrder
import TripleBarrier.Proofs.Floors
import TripleBarrier.Proofs.Tightening
import TripleBarrier.Proofs.Figures
import TripleBarrier.Proofs.FloatLimits
import TripleBarrier.Proofs.GapExits
import TripleBarrier.Proofs.ShortestDigits
import TripleBarrier.Proofs.Literals
import TripleBarrier.Proofs.Reading
import TripleBarrier.Proofs.Records
import TripleBarrier.Proofs.Soundness
import TripleBarrier.Proofs.RoundTrips
import TripleBarrier.Proofs.FloatBits
import TripleBarrier.Proofs.Identity
import TripleBarrier.Proofs.Rounding
import TripleBarrier.Proofs.ExactReading
import TripleBarrier.Proofs.FloatTexts
import TripleBarrier.Proofs.ValueTexts
import TripleBarrier.Proofs.Stopping
import TripleBarrier.Proofs.Interleaving
import TripleBarrier.Proofs.Dispatch
import TripleBarrier.Proofs.Tallies
import TripleBarrier.Proofs.Reports
import TripleBarrier.Proofs.Accounting
import TripleBarrier.Proofs.FloorHistory
import TripleBarrier.Proofs.Stages
import TripleBarrier.Proofs.Saturation
import TripleBarrier.Proofs.Indifference
import TripleBarrier.Proofs.Building
import TripleBarrier.Proofs.Refusal
import TripleBarrier.Proofs.Warnings
import TripleBarrier.Proofs.EarliestEntry
import TripleBarrier.Proofs.FloorPath
import TripleBarrier.Proofs.NearestFloats
import TripleBarrier.Proofs.WrittenWords
import TripleBarrier.Proofs.PlainFiles
import TripleBarrier.Proofs.WholeNumbers
import TripleBarrier.Proofs.SavedSettings
