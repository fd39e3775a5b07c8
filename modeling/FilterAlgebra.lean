import FilterAlgebra.Envelope
import FilterAlgebra.Program
import FilterAlgebra.Main
import FilterAlgebra.Proofs.Meaning
import FilterAlgebra.Proofs.Parity
import FilterAlgebra.Proofs.FormText
import FilterAlgebra.Proofs.TreeText
import FilterAlgebra.Proofs.Complement
import FilterAlgebra.Proofs.Limit
import FilterAlgebra.Proofs.Logging
import FilterAlgebra.Proofs.Reentry
import FilterAlgebra.Proofs.Alternation
import FilterAlgebra.Proofs.DeMorgan
import FilterAlgebra.Proofs.Refusal
import FilterAlgebra.Proofs.Counting
import FilterAlgebra.Proofs.CutDocument
import FilterAlgebra.Proofs.CutText
import FilterAlgebra.Proofs.TreeDepth
import FilterAlgebra.Proofs.Repetition
import FilterAlgebra.Proofs.Joined
import FilterAlgebra.Proofs.Calendar
import FilterAlgebra.Proofs.Growth
import FilterAlgebra.Proofs.Product
import FilterAlgebra.Proofs.Validation
import FilterAlgebra.Proofs.Columns
import FilterAlgebra.Proofs.MomentText
import FilterAlgebra.Proofs.Session
import FilterAlgebra.Proofs.EnvelopeText
