import JsonQuery.Query
import JsonQuery.Search.Pattern
import JsonQuery.Settings.Decode
import JsonQuery.Proofs.SliceBounds
import JsonQuery.Proofs.Views
import JsonQuery.Proofs.Children
import JsonQuery.Proofs.Locations
import JsonQuery.Proofs.Overwrite
import JsonQuery.Proofs.Writes
import JsonQuery.Proofs.Calls
import JsonQuery.Proofs.Reads
import JsonQuery.Proofs.Targets
import JsonQuery.Proofs.Concrete
import JsonQuery.Proofs.Without
import JsonQuery.Proofs.Removal
import JsonQuery.Proofs.Deepest
import JsonQuery.Proofs.Lens
import JsonQuery.Proofs.Agreement
import JsonQuery.Proofs.CutShort
import JsonQuery.Proofs.Concatenation
import JsonQuery.Proofs.Truth
import JsonQuery.Proofs.Literals
import JsonQuery.Proofs.Brackets
import JsonQuery.Proofs.Parsed
import JsonQuery.Proofs.RoundTrip
import JsonQuery.Proofs.Finding
import JsonQuery.Proofs.Failures
import JsonQuery.Proofs.FlatKeys
import JsonQuery.Proofs.Assembling
import JsonQuery.Proofs.Grouping
import JsonQuery.Proofs.Rebuilding
import JsonQuery.Proofs.Padding
import JsonQuery.Proofs.EarlyEnd
import JsonQuery.Proofs.DepthLimit
import JsonQuery.Proofs.Totality
import JsonQuery.Proofs.Commuting
import JsonQuery.Proofs.Joining
import JsonQuery.Proofs.Addressing
import JsonQuery.Proofs.Scanning
import JsonQuery.Proofs.Lexing
import JsonQuery.Proofs.Decimals
import JsonQuery.Proofs.Rereading
import JsonQuery.Proofs.Accepted
import JsonQuery.Proofs.Enclosing
import JsonQuery.Proofs.Passing
import JsonQuery.Proofs.Spelling
import JsonQuery.Proofs.Recovering
import JsonQuery.Proofs.Fields
import JsonQuery.Proofs.Constructs
import JsonQuery.Proofs.Progression
import JsonQuery.Proofs.Conflicts
import JsonQuery.Proofs.Lenient
import JsonQuery.Proofs.Counting
import JsonQuery.Proofs.NothingLeft
import JsonQuery.Proofs.Overwritten
import JsonQuery.Proofs.ReadBack
import JsonQuery.Proofs.Shadowing
import JsonQuery.Proofs.Merging
import JsonQuery.Proofs.Trimming
import JsonQuery.Proofs.Delimiting
import JsonQuery.Proofs.Embedded
import JsonQuery.Proofs.Escapes
import JsonQuery.Proofs.Comparing
import JsonQuery.Proofs.Unquoting
import JsonQuery.Proofs.Selecting
import JsonQuery.Proofs.Casing
import JsonQuery.Proofs.Summing
import JsonQuery.Proofs.Equality
import JsonQuery.Proofs.Patterns
import JsonQuery.Proofs.RoundAlike
import JsonQuery.Proofs.Sorting
import JsonQuery.Proofs.Slicing
import JsonQuery.Proofs.Descendants
import JsonQuery.Proofs.Levels
import JsonQuery.Proofs.Nulls
import JsonQuery.Proofs.Gaps
import JsonQuery.Proofs.Parts
import JsonQuery.Proofs.Pointers
