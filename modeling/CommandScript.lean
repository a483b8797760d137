import CommandScript.Main
import CommandScript.Value.Equality
import CommandScript.Value.KeyIndex
import CommandScript.Proofs.Absence
import CommandScript.Proofs.ArgumentMatching
import CommandScript.Proofs.Assignment
import CommandScript.Proofs.Boxing
import CommandScript.Proofs.Brackets
import CommandScript.Proofs.Climbing
import CommandScript.Proofs.CommandFailure
import CommandScript.Proofs.ControlFlow
import CommandScript.Proofs.CursorWalk
import CommandScript.Proofs.DataLiterals
import CommandScript.Proofs.Definitions
import CommandScript.Proofs.Equality
import CommandScript.Proofs.ErrorPlaces
import CommandScript.Proofs.ExactOperations
import CommandScript.Proofs.Idempotence
import CommandScript.Proofs.Indexing
import CommandScript.Proofs.IntegerArithmetic
import CommandScript.Proofs.InternalErrors
import CommandScript.Proofs.LargeLiterals
import CommandScript.Proofs.Lexemes
import CommandScript.Proofs.LexicalScope
import CommandScript.Proofs.LineBreaks
import CommandScript.Proofs.Listing
import CommandScript.Proofs.Lockstep
import CommandScript.Proofs.LongestSymbol
import CommandScript.Proofs.NumberGrammar
import CommandScript.Proofs.Permanence
import CommandScript.Proofs.Progress
import CommandScript.Proofs.Punctuation
import CommandScript.Proofs.RecordKeys
import CommandScript.Proofs.RegistryTables
import CommandScript.Proofs.RoundTrip
import CommandScript.Proofs.Signatures
import CommandScript.Proofs.Soundness
import CommandScript.Proofs.Spacing
import CommandScript.Proofs.Splitting
import CommandScript.Proofs.TellFallback
import CommandScript.Proofs.TellTarget
