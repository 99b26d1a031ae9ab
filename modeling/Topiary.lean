import Topiary.Main
import Topiary.Proofs.Drawing.Naming
import Topiary.Proofs.Drawing.Outline
import Topiary.Proofs.Drawing.Strokes
import Topiary.Proofs.Growth.Limit
import Topiary.Proofs.Service.Dialogue
import Topiary.Service.Basic
import Topiary.Session.Document
import Topiary.Session.Operation
import Topiary.Species.Fingerprint
import Topiary.Value.Json
import Topiary.Proofs.Session.Pruning
import Topiary.Proofs.Branch.Cutting
import Topiary.Proofs.Growth.Outline
import Topiary.Proofs.Numeral.Nearest
import Topiary.Proofs.Numeral.Order
import Topiary.Proofs.Session.Ranges
import Topiary.Proofs.Session.Steps
import Topiary.Proofs.Grammar.Agreement
import Topiary.Proofs.Session.Exactness
import Topiary.Proofs.Growth.Agreement
import Topiary.Proofs.Session.Faithful
import Topiary.Proofs.Branch.Closed
import Topiary.Proofs.Session.Closure
import Topiary.Proofs.Session.Order
import Topiary.Proofs.Branch.Entries
import Topiary.Proofs.Service.Lossless
import Topiary.Proofs.Session.Atomic
import Topiary.Proofs.Session.Coherence
import Topiary.Proofs.Session.Within
import Topiary.Proofs.Service.Answers
import Topiary.Proofs.Service.Choice
import Topiary.Proofs.Service.Consistency
import Topiary.Proofs.Drawing.Brackets
import Topiary.Proofs.Drawing.Heeded
import Topiary.Proofs.Growth.Matching
import Topiary.Proofs.Branch.Repeated
import Topiary.Proofs.Branch.Owners
import Topiary.Proofs.Survey.Removal
import Topiary.Proofs.Survey.Profile
import Topiary.Proofs.Service.Exports
import Topiary.Proofs.Drawing.Frames
import Topiary.Proofs.Branch.Rounds
import Topiary.Proofs.Drawing.TurningBack
import Topiary.Proofs.Drawing.Scaling
