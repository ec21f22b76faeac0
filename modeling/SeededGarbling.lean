import SeededGarbling.Bytes.Digits
import SeededGarbling.Circuit.Evaluate
import SeededGarbling.Description
import SeededGarbling.Keystream.Counting
import SeededGarbling.Keystream.Recorded
import SeededGarbling.Main
import SeededGarbling.Permutation.Recorded
import SeededGarbling.Text.Json.Values
import SeededGarbling.Proofs.Batches
import SeededGarbling.Proofs.Declared
import SeededGarbling.Proofs.Evaluator
import SeededGarbling.Proofs.Evaluation
import SeededGarbling.Proofs.Isolation
import SeededGarbling.Proofs.Openings
import SeededGarbling.Proofs.Audit
import SeededGarbling.Proofs.HonestExchange
import SeededGarbling.Proofs.Inverse
import SeededGarbling.Proofs.Addition
import SeededGarbling.Proofs.Binding
import SeededGarbling.Proofs.Alteration
import SeededGarbling.Proofs.Scratch
import SeededGarbling.Proofs.Session
import SeededGarbling.Proofs.Verdicts
import SeededGarbling.Proofs.PadUses
import SeededGarbling.Proofs.Installation
import SeededGarbling.Proofs.Lifetime
import SeededGarbling.Proofs.Substitution
import SeededGarbling.Proofs.WellFormed
import SeededGarbling.Proofs.AdderAssembly
import SeededGarbling.Proofs.Expansion
import SeededGarbling.Proofs.Playback
import SeededGarbling.Proofs.RoundEquations
import SeededGarbling.Proofs.InPlace
import SeededGarbling.Proofs.HexText
import SeededGarbling.Proofs.Spelling
import SeededGarbling.Proofs.JsonRoundTrip
import SeededGarbling.Proofs.Commands
