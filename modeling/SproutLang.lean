import SproutLang.Cursor
import SproutLang.Main
import SproutLang.Proofs.Expectation
import SproutLang.Proofs.RoundTrip
import SproutLang.Proofs.Semantics
import SproutLang.Proofs.Isolation
import SproutLang.Proofs.Coupling
import SproutLang.Proofs.Interference
import SproutLang.Proofs.Concatenation
import SproutLang.Proofs.Session
import SproutLang.Proofs.Soundness
import SproutLang.Proofs.Cursor
import SproutLang.Proofs.Source
import SproutLang.Proofs.Tap
import SproutLang.Proofs.Relocation
import SproutLang.Proofs.Limits
import SproutLang.Proofs.Renaming
import SproutLang.Proofs.Numbers
import SproutLang.Proofs.Transcript
import SproutLang.Proofs.Command
import SproutLang.Proofs.Names
import SproutLang.Proofs.Literals
import SproutLang.Proofs.Arguments
import SproutLang.Proofs.Equality
import SproutLang.Proofs.Lines
import SproutLang.Proofs.History
import SproutLang.Proofs.Progress
import SproutLang.Descent
import SproutLang.Proofs.Backtracking
