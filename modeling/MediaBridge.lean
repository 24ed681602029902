import MediaBridge.Conversion.Description
import MediaBridge.Conversion.Item
import MediaBridge.Conversion.Metadata
import MediaBridge.Conversion.Rating
import MediaBridge.Fault
import MediaBridge.Item.Basic
import MediaBridge.Logging.Level
import MediaBridge.Logging.Traced
import MediaBridge.Metadata.Basic
import MediaBridge.Metadata.Builder
import MediaBridge.Metadata.KeyKind
import MediaBridge.Metadata.Legacy
import MediaBridge.Metadata.Script
import MediaBridge.Number.Basic
import MediaBridge.Number.Double
import MediaBridge.Number.Numeral
import MediaBridge.Number.Shortest
import MediaBridge.OrderedMap
import MediaBridge.Rating.Basic
import MediaBridge.Rating.Build
import MediaBridge.Rating.Legacy
import MediaBridge.Rating.Style
import MediaBridge.Session.Basic
import MediaBridge.Session.Conversion
import MediaBridge.Session.Settings
import MediaBridge.Settings.Basic
import MediaBridge.Settings.Json
import MediaBridge.Settings.Load
import MediaBridge.Settings.Variable
import MediaBridge.Text.Blank
import MediaBridge.Text.Digit
import MediaBridge.Text.LetterCase
import MediaBridge.Text.Printable
import MediaBridge.Text.Quoted
import MediaBridge.Text.Search
import MediaBridge.Uri.Address
import MediaBridge.Uri.Authority
import MediaBridge.Uri.Basic
import MediaBridge.Uri.Parse
import MediaBridge.Value.Basic
import MediaBridge.Value.Collection
import MediaBridge.Value.Equal
import MediaBridge.Value.Key
import MediaBridge.Value.Literal
import MediaBridge.Value.Numeric
import MediaBridge.Value.Plain
import MediaBridge.Value.Receiver
import MediaBridge.Value.Word
import MediaBridge.Vocabulary
import MediaBridge.Proofs.Uri.Cut
import MediaBridge.Proofs.Uri.Reparse
import MediaBridge.Proofs.Number.Place
import MediaBridge.Proofs.Rating.Constructible
import MediaBridge.Proofs.Rating.RoundTrip
import MediaBridge.Proofs.Metadata.Built
import MediaBridge.Proofs.Metadata.ToLegacy
import MediaBridge.Proofs.Metadata.RoundTrip
import MediaBridge.Proofs.Item.Fields
import MediaBridge.Proofs.Item.RoundTrip
import MediaBridge.Proofs.Item.LegacyRoundTrip
import MediaBridge.Proofs.Metadata.Lockstep
import MediaBridge.Proofs.Rating.Range
import MediaBridge.Proofs.Metadata.Reporting
import MediaBridge.Proofs.Metadata.Reachable
import MediaBridge.Proofs.Rating.FromLegacy
import MediaBridge.Proofs.Metadata.ToMetadata
import MediaBridge.Proofs.Metadata.LegacyReachable
import MediaBridge.Proofs.Metadata.Partition
import MediaBridge.Proofs.Metadata.Normalize
import MediaBridge.Proofs.OrderedMap.Update
import MediaBridge.Proofs.Session.Store
import MediaBridge.Proofs.Metadata.BuilderClass
import MediaBridge.Proofs.Uri.Decompose
import MediaBridge.Proofs.Metadata.Extension
import MediaBridge.Proofs.Item.Lists
import MediaBridge.Proofs.Session.Methods
import MediaBridge.Proofs.OrderedMap.Merge
import MediaBridge.Proofs.Metadata.Refusal
import MediaBridge.Proofs.Item.Builder
