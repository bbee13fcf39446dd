import FindSelect.Query.Json
import FindSelect.Settings
import FindSelect.Proofs.Comparisons
import FindSelect.Proofs.FirstFault
import FindSelect.Proofs.Sql.Lexer
import FindSelect.Proofs.NumberText
import FindSelect.Proofs.Sql.Syntax
import FindSelect.Proofs.Sql.Spelling
import FindSelect.Proofs.Sql.Rendering
import FindSelect.Proofs.Sql.Meaning
import FindSelect.Proofs.Sql.Statement
import FindSelect.Proofs.Masking
import FindSelect.Proofs.Sql.Confinement
import FindSelect.Proofs.Sql.Disjunction
import FindSelect.Proofs.Decimal.Nearest
import FindSelect.Proofs.Literal.Results
import FindSelect.Proofs.Literal.Tokens
import FindSelect.Proofs.Literal.Tree
import FindSelect.Proofs.Literal.Derivation
import FindSelect.Proofs.Literal.Reading
import FindSelect.Proofs.Literal.Acceptance
import FindSelect.Proofs.Shell.Printing
import FindSelect.Proofs.Shell.Reading
import FindSelect.Proofs.Shell.RoundTrip
import FindSelect.Proofs.Shell.WellFormed
import FindSelect.Proofs.Shell.Meaning
import FindSelect.Proofs.Literal.Unambiguity
import FindSelect.Proofs.Literal.Nesting
import FindSelect.Proofs.Shell.Arguments
import FindSelect.Proofs.Shell.Call
import FindSelect.Proofs.Sql.Expressible
import FindSelect.Proofs.Shell.Documents
import FindSelect.Proofs.Sql.Tests
import FindSelect.Proofs.Literal.Reach
import FindSelect.Proofs.Literal.Position
import FindSelect.Proofs.Shell.Method
import FindSelect.Proofs.Literal.Viability
import FindSelect.Proofs.Literal.Locality
import FindSelect.Proofs.Literal.Overflow
import FindSelect.Proofs.Literal.Found
import FindSelect.Proofs.Literal.Refusal
import FindSelect.Proofs.Registry
import FindSelect.Proofs.Shell.Members
import FindSelect.Proofs.Literal.Assembly
import FindSelect.Proofs.Shell.Find
import FindSelect.Proofs.Sql.Singleton
import FindSelect.Proofs.Translation.Wrapping
import FindSelect.Proofs.Translation.Integers
import FindSelect.Proofs.Shell.Rearrangement
import FindSelect.Proofs.Insertions
import FindSelect.Proofs.Decimal.RoundTrip
import FindSelect.Proofs.Json
