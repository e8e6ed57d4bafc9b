import CanonicalIdl.Accounts.Key
import CanonicalIdl.Accounts.Plan
import CanonicalIdl.Accounts.Supplied
import CanonicalIdl.Application
import CanonicalIdl.CommandLine.Arguments
import CanonicalIdl.CommandLine.Run
import CanonicalIdl.Config
import CanonicalIdl.Declared.Basic
import CanonicalIdl.Declared.Reading
import CanonicalIdl.Declared.TypeExpr
import CanonicalIdl.Declared.Writing
import CanonicalIdl.Definitions
import CanonicalIdl.Digest.Sha256
import CanonicalIdl.Discriminator
import CanonicalIdl.Failure
import CanonicalIdl.Interface.Basic
import CanonicalIdl.Interface.Parts
import CanonicalIdl.Interface.PartsWriting
import CanonicalIdl.Json.Document
import CanonicalIdl.Json.Double
import CanonicalIdl.Json.Extra
import CanonicalIdl.Json.Fault
import CanonicalIdl.Json.Printer
import CanonicalIdl.Json.Reader
import CanonicalIdl.Json.Scanner
import CanonicalIdl.Json.Shortest
import CanonicalIdl.Json.Value
import CanonicalIdl.KnownAddress
import CanonicalIdl.Main
import CanonicalIdl.Naming
import CanonicalIdl.Normalization.Anchor
import CanonicalIdl.Normalization.Conversion
import CanonicalIdl.Normalization.Outcome
import CanonicalIdl.Normalization.Shank
import CanonicalIdl.Primitive
import CanonicalIdl.Resolution.Builtin
import CanonicalIdl.Resolution.CallerRules
import CanonicalIdl.Resolution.Chain
import CanonicalIdl.Resolution.PrimitiveWords
import CanonicalIdl.Resolution.Script
import CanonicalIdl.Text.Alphanumeric
import CanonicalIdl.Text.Blank
import CanonicalIdl.Text.CaseClass
import CanonicalIdl.Text.CaseMapping
import CanonicalIdl.Text.CodeRange
import CanonicalIdl.Text.Numeral
import CanonicalIdl.Text.Printable
import CanonicalIdl.Text.Quoted
import CanonicalIdl.Text.WordCase
import CanonicalIdl.TypeTree
import CanonicalIdl.Workspace.Access
import CanonicalIdl.Workspace.Adapt
import CanonicalIdl.Workspace.Files
import CanonicalIdl.Proofs.Resolution.Brackets
import CanonicalIdl.Proofs.Resolution.Forms
import CanonicalIdl.Proofs.Resolution.Rendering
import CanonicalIdl.Proofs.Resolution.Levels
import CanonicalIdl.Proofs.Resolution.RoundTrip
import CanonicalIdl.Proofs.Resolution.Grammar
import CanonicalIdl.Proofs.Accounts.OrderedPrefix
import CanonicalIdl.Proofs.Resolution.Weight
import CanonicalIdl.Proofs.Resolution.FixedPoint
import CanonicalIdl.Proofs.Accounts.KeptPlaces
import CanonicalIdl.Proofs.Normalization.LastWriter
import CanonicalIdl.Proofs.Resolution.Memory
import CanonicalIdl.Proofs.Resolution.Registrations
import CanonicalIdl.Proofs.Normalization.Spelling
import CanonicalIdl.Proofs.Declared.CanonicalItems
import CanonicalIdl.Proofs.Declared.ReadInterfaces
import CanonicalIdl.Proofs.Interface.Exactness
import CanonicalIdl.Proofs.Json.Rescanning
import CanonicalIdl.Proofs.Json.Scanned
import CanonicalIdl.Proofs.Normalization.Conversions
import CanonicalIdl.Proofs.Normalization.Occurrences
import CanonicalIdl.Proofs.Normalization.Lifting
import CanonicalIdl.Proofs.Normalization.Results
import CanonicalIdl.Proofs.Workspace.Readapting
import CanonicalIdl.Proofs.Accounts.LeftOut
import CanonicalIdl.Proofs.Accounts.Leaves
import CanonicalIdl.Proofs.Declared.WrittenInterfaces
import CanonicalIdl.Proofs.Interface.Acceptance
import CanonicalIdl.Proofs.Interface.DistinctKeys
import CanonicalIdl.Proofs.Interface.OtherDoubles
import CanonicalIdl.Proofs.Interface.Rejection
import CanonicalIdl.Proofs.Interface.Rereading
import CanonicalIdl.Proofs.Normalization.Plain
import CanonicalIdl.Proofs.Normalization.Settled
import CanonicalIdl.Proofs.Json.Rounding
import CanonicalIdl.Proofs.Json.ShortestForm
import CanonicalIdl.Proofs.Json.Numbers
import CanonicalIdl.Proofs.Json.WrittenDoubles
import CanonicalIdl.Proofs.Json.MappedDoubles
import CanonicalIdl.Proofs.Json.Nesting
import CanonicalIdl.Proofs.Workspace.ReadingBack
import CanonicalIdl.Proofs.Workspace.Runs
import CanonicalIdl.Proofs.Workspace.AllOrNothing
import CanonicalIdl.Proofs.Resolution.Grafting
import CanonicalIdl.Proofs.Resolution.Refusals
import CanonicalIdl.Proofs.Resolution.AliasExpansion
import CanonicalIdl.Proofs.Resolution.FloatsAsBytes
import CanonicalIdl.Proofs.Normalization.FloatsAsBytes
import CanonicalIdl.Proofs.Normalization.PlainTypes
import CanonicalIdl.Proofs.Normalization.PlainPath
import CanonicalIdl.Proofs.Resolution.Sessions
import CanonicalIdl.Proofs.Resolution.Undisturbed
import CanonicalIdl.Proofs.Resolution.Precedence
import CanonicalIdl.Proofs.Accounts.Decoding
import CanonicalIdl.Proofs.Naming.Conventions
import CanonicalIdl.Proofs.Normalization.AppliedTypes
import CanonicalIdl.Proofs.Resolution.Unclosed
import CanonicalIdl.Proofs.Resolution.Fragments
import CanonicalIdl.Proofs.Naming.SnakeCase
import CanonicalIdl.Proofs.Accounts.KeyNames
import CanonicalIdl.Proofs.Normalization.TakenNames
import CanonicalIdl.Proofs.Normalization.DistinctNames
import CanonicalIdl.Proofs.Workspace.InstructionPlans
import CanonicalIdl.Proofs.Accounts.DefaultAddresses
import CanonicalIdl.Proofs.Resolution.CountedBrackets
import CanonicalIdl.Proofs.Normalization.Histories
