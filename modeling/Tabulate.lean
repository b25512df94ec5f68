import Tabulate.Main
import Tabulate.Proofs.Frame.Pivot
import Tabulate.Proofs.Pipeline.Summary
import Tabulate.Proofs.Pipeline.Composition
import Tabulate.Proofs.Value.Order
import Tabulate.Proofs.Delimited.Quoted
import Tabulate.Proofs.Number.Whole
import Tabulate.Proofs.Text.Utf8
import Tabulate.Proofs.Json.Grammar
import Tabulate.Proofs.Json.RoundTrip
import Tabulate.Proofs.Json.Injectivity
import Tabulate.Proofs.Markup.Escaping
import Tabulate.Proofs.Markup.Tags
import Tabulate.Proofs.Markup.Document
import Tabulate.Proofs.Pipeline.Ordering
import Tabulate.Proofs.Pipeline.Expansion
import Tabulate.Proofs.Frame.Derived
import Tabulate.Proofs.Query.Arrival
import Tabulate.Proofs.Query.Reading
import Tabulate.Proofs.Groq.Agreement
import Tabulate.Proofs.Number.Digits
import Tabulate.Proofs.Number.Shortest
import Tabulate.Proofs.Number.FloatText
import Tabulate.Proofs.Token.Spelling
import Tabulate.Proofs.Jsonata.Writing
import Tabulate.Proofs.Token.Reading
import Tabulate.Proofs.Jsonata.Recovery
import Tabulate.Proofs.Pipeline.Writing
import Tabulate.Proofs.Pipeline.Conditions
import Tabulate.Proofs.Groq.Recovery
import Tabulate.Proofs.Value.Attribute
import Tabulate.Proofs.Value.GroupKey
import Tabulate.Proofs.Markup.Leniency
import Tabulate.Proofs.Frame.Typing
import Tabulate.Proofs.Query.Validation
import Tabulate.Proofs.Delimited.LineEnds
import Tabulate.Proofs.Calendar.Days
import Tabulate.Proofs.Calendar.Reading
import Tabulate.Proofs.Frame.Instants
import Tabulate.Proofs.Token.Adjacent
import Tabulate.Proofs.Positions
import Tabulate.Proofs.Number.Large
import Tabulate.Proofs.Groq.Slices
import Tabulate.Proofs.Jsonata.Indexing
import Tabulate.Proofs.Jsonata.FieldPath
import Tabulate.Proofs.Query.Selectors
import Tabulate.Proofs.Delimited.Rectangular
import Tabulate.Proofs.Markup.Conservation
import Tabulate.Proofs.Pipeline.Columns
import Tabulate.Proofs.Query.Failures
import Tabulate.Proofs.Query.Checks
import Tabulate.Proofs.Pipeline.Extension
import Tabulate.Proofs.Pipeline.Splitting
import Tabulate.Proofs.Jsonata.Comparisons
import Tabulate.Proofs.Value.Composition
import Tabulate.Proofs.Token.Tiling
import Tabulate.Proofs.Delimited.Quoting
import Tabulate.Proofs.Groq.BarePaths
import Tabulate.Proofs.Json.LineColumns
