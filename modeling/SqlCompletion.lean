import SqlCompletion.Alias.Splice
import SqlCompletion.Main
import SqlCompletion.Proofs.Json.RoundTrip
import SqlCompletion.Proofs.TextMap
import SqlCompletion.Proofs.Json.Record
import SqlCompletion.Proofs.Alias.Collision
import SqlCompletion.Proofs.Alias.Freshness
import SqlCompletion.Proofs.Alias.Interleaving
import SqlCompletion.Proofs.Alias.Rewriting
import SqlCompletion.Proofs.Context.Word
import SqlCompletion.Proofs.Suggestion.Capture
import SqlCompletion.Proofs.Usage.Attribution
import SqlCompletion.Proofs.Usage.Format
import SqlCompletion.Proofs.Usage.Ledger
import SqlCompletion.Proofs.Token.Lossless
import SqlCompletion.Proofs.Context.Locality
import SqlCompletion.Proofs.Suggestion.CaseFolding
import SqlCompletion.Proofs.Usage.Showing
import SqlCompletion.Proofs.TableReference.Trivia
import SqlCompletion.Proofs.TableReference.Grammar
import SqlCompletion.Proofs.Suggestion.Dotted
import SqlCompletion.Proofs.FileSystem
import SqlCompletion.Proofs.Store.Directory
import SqlCompletion.Proofs.Store.Lawful
import SqlCompletion.Proofs.Usage.Failures
import SqlCompletion.Proofs.Json.Limits
import SqlCompletion.Proofs.Schema.Format
import SqlCompletion.Proofs.Schema.Insertion
import SqlCompletion.Proofs.Metadata.Loads
import SqlCompletion.Proofs.TableReference.Sites
import SqlCompletion.Proofs.TableReference.Statement
import SqlCompletion.Proofs.Token.Quoting
import SqlCompletion.Proofs.Token.Division
import SqlCompletion.Proofs.Clause
import SqlCompletion.Proofs.Context.AfterDot
import SqlCompletion.Proofs.Context.QuotedName
import SqlCompletion.Proofs.Context.WordRange
import SqlCompletion.Proofs.Usage.SortKey
import SqlCompletion.Proofs.Usage.Ranking
import SqlCompletion.Proofs.Suggestion.Narrowing
import SqlCompletion.Proofs.Suggestion.Expression
import SqlCompletion.Proofs.Schema.Tree
import SqlCompletion.Proofs.Schema.Writing
import SqlCompletion.Proofs.Editor.Reading
import SqlCompletion.Proofs.Alias.Ladder
