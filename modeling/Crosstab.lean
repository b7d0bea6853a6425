import Crosstab.Json.Pivot
import Crosstab.Json.Query
import Crosstab.Json.Store
import Crosstab.Pivot.Rehearsal
import Crosstab.Sql.Compile
import Crosstab.Store
import Crosstab.Workbench
import Crosstab.Proofs.Delimited.Quoting
import Crosstab.Proofs.Json.RoundTrip
import Crosstab.Proofs.Json.Sessions
import Crosstab.Proofs.Pivot.Compiling
import Crosstab.Proofs.Pivot.Concatenation
import Crosstab.Proofs.Pivot.OpenSets
import Crosstab.Proofs.Pivot.Reserved
import Crosstab.Proofs.Pivot.SingleRow
import Crosstab.Proofs.Pivot.Values
import Crosstab.Proofs.Query.Interchange
import Crosstab.Proofs.Query.Renaming
import Crosstab.Proofs.Query.WellFormed
import Crosstab.Proofs.Session.Expansion
import Crosstab.Proofs.Session.Failure
import Crosstab.Proofs.Session.Opening
import Crosstab.Proofs.Sql.Faults
import Crosstab.Proofs.Sql.Kinds
import Crosstab.Proofs.Sql.Quoting
import Crosstab.Proofs.Sql.Respelling
import Crosstab.Proofs.Store.Conversion
import Crosstab.Proofs.Store.Names
import Crosstab.Proofs.Store.Scan
