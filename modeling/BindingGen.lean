import BindingGen.Descriptor.Edit
import BindingGen.Descriptor.Writing
import BindingGen.Files.Tree
import BindingGen.Main
import BindingGen.Proofs.Symbol.Scan
import BindingGen.Proofs.Symbol.Table
import BindingGen.Proofs.Symbol.Source
import BindingGen.Proofs.CallShape
import BindingGen.Proofs.CallBounds
import BindingGen.Proofs.Listing
import BindingGen.Proofs.Unit
import BindingGen.Proofs.ArgOrder
import BindingGen.Proofs.Constructor
import BindingGen.Proofs.Reference
import BindingGen.Proofs.Nesting
import BindingGen.Proofs.Validation
import BindingGen.Proofs.Acceptance
import BindingGen.Proofs.Comment
import BindingGen.Proofs.Confinement
import BindingGen.Proofs.Definition
import BindingGen.Proofs.MapKeys
import BindingGen.Proofs.Ownership
import BindingGen.Proofs.Files.Tree
import BindingGen.Proofs.Files.Machine
import BindingGen.Proofs.Store.Delivery
import BindingGen.Proofs.Store.AllOrNothing
import BindingGen.Proofs.Store.OlderFiles
import BindingGen.Proofs.Store.Lost
import BindingGen.Proofs.CommandLine.Request
import BindingGen.Proofs.CommandLine.Runs
import BindingGen.Proofs.Reordering
import BindingGen.Proofs.Interning
import BindingGen.Proofs.Metadata
import BindingGen.Proofs.Decimal.Rounding
import BindingGen.Proofs.Decimal.Numeral
import BindingGen.Proofs.Json.Text
import BindingGen.Proofs.Json.Value
import BindingGen.Proofs.Literal
import BindingGen.Proofs.Json.Record
import BindingGen.Proofs.Json.Yields
import BindingGen.Proofs.Descriptor.RoundTrip
import BindingGen.Proofs.Descriptor.Violation
import BindingGen.Proofs.ClassParts
import BindingGen.Proofs.Symbol.Collection
import BindingGen.Proofs.BlockComment
import BindingGen.Proofs.Layout
import BindingGen.Proofs.RawLines
import BindingGen.Proofs.LostDefault
import BindingGen.Proofs.Symbol.Run
import BindingGen.Proofs.IntegerLiteral
import BindingGen.Proofs.Signature
