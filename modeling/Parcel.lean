import Parcel.Main
import Parcel.Workspace
import Parcel.Proofs.Precedence
import Parcel.Proofs.Spelling
import Parcel.Proofs.FileOrder
import Parcel.Proofs.BodyIndependence
import Parcel.Proofs.CallDepth
import Parcel.Proofs.FrozenSessions
import Parcel.Proofs.LoweringOrder
import Parcel.Proofs.CountedLoops
import Parcel.Proofs.Flattening
import Parcel.Proofs.Operators
import Parcel.Proofs.Formatting
import Parcel.Proofs.Conversions
import Parcel.Proofs.Numerals
import Parcel.Proofs.Scoping
import Parcel.Proofs.Widths
import Parcel.Proofs.EditDistance
import Parcel.Proofs.Suggestions
import Parcel.Proofs.SpanNesting
import Parcel.Proofs.ParserProgress
import Parcel.Proofs.Registry
