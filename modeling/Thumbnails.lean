import Thumbnails.Cache.Dispatch
import Thumbnails.Cache.Handlers
import Thumbnails.Cache.Loader
import Thumbnails.Cache.Result
import Thumbnails.Cache.Session
import Thumbnails.Cache.State
import Thumbnails.Config.Basic
import Thumbnails.Config.Draft
import Thumbnails.Config.JsonText
import Thumbnails.Config.Source
import Thumbnails.Config.TomlText
import Thumbnails.Decoder
import Thumbnails.Digest.Sha256
import Thumbnails.Error.Basic
import Thumbnails.Error.Codec
import Thumbnails.Error.Io
import Thumbnails.Files.Atomic
import Thumbnails.Files.Content
import Thumbnails.Files.Edit
import Thumbnails.Files.FileSystem
import Thumbnails.Files.Operations
import Thumbnails.Files.Walk
import Thumbnails.Generator
import Thumbnails.Image.Basic
import Thumbnails.Image.Library
import Thumbnails.Image.Ratio
import Thumbnails.Image.Scale
import Thumbnails.Json.Lexeme
import Thumbnails.Json.Skip
import Thumbnails.Json.Structure
import Thumbnails.Key.Basic
import Thumbnails.Key.FileName
import Thumbnails.Number.Rounding
import Thumbnails.Path.Basic
import Thumbnails.Path.Normal
import Thumbnails.Persist
import Thumbnails.Store.Basic
import Thumbnails.Store.Chain
import Thumbnails.Store.KeyIndex
import Thumbnails.Store.Record
import Thumbnails.Store.Table
import Thumbnails.Text.Blank
import Thumbnails.Text.Hex
import Thumbnails.Text.Quoted
import Thumbnails.Text.Utf8
import Thumbnails.Toml.Digits
import Thumbnails.Toml.Document
import Thumbnails.Toml.Lexeme
import Thumbnails.Toml.Moment
import Thumbnails.Toml.Scalar
import Thumbnails.Toml.Value
import Thumbnails.Proofs.Key.Order
import Thumbnails.Proofs.Store.KeyIndex
import Thumbnails.Proofs.Store.Chain
import Thumbnails.Proofs.Store.Slots
import Thumbnails.Proofs.Store.Representation
import Thumbnails.Proofs.Store.Refinement
import Thumbnails.Proofs.Store.Naming
import Thumbnails.Proofs.Cache.Effect
import Thumbnails.Proofs.Cache.Tidy
import Thumbnails.Proofs.Cache.Consistency
import Thumbnails.Proofs.Cache.Delivery
import Thumbnails.Proofs.Cache.Lifecycle
import Thumbnails.Proofs.Cache.Interleaving
import Thumbnails.Proofs.Cache.InFlight
import Thumbnails.Proofs.Cache.Simulation
import Thumbnails.Proofs.Cache.MoveEffect
import Thumbnails.Proofs.Cache.Wakeup
import Thumbnails.Proofs.Cache.Stranding
import Thumbnails.Proofs.Cache.Expiry
import Thumbnails.Proofs.Cache.LruCache
import Thumbnails.Proofs.Cache.Recency
import Thumbnails.Proofs.Cache.Queue
import Thumbnails.Proofs.Files.Place
import Thumbnails.Proofs.Files.Handle
import Thumbnails.Proofs.Files.Writers
import Thumbnails.Proofs.Text.Encoding
import Thumbnails.Proofs.Key.FileName
import Thumbnails.Proofs.Image.Plain
import Thumbnails.Proofs.Key.Separation
import Thumbnails.Proofs.Files.Retention
import Thumbnails.Proofs.Cache.Turns
import Thumbnails.Proofs.Cache.DiskBacking
import Thumbnails.Proofs.Cache.Transitions
import Thumbnails.Proofs.Cache.Naming
import Thumbnails.Proofs.Cache.Recreation
import Thumbnails.Proofs.Cache.Shutdown
import Thumbnails.Proofs.Cache.Completion
import Thumbnails.Proofs.Cache.Loading
import Thumbnails.Proofs.Text.Decoding
import Thumbnails.Proofs.Json.Lexeme
import Thumbnails.Proofs.Json.Structure
import Thumbnails.Proofs.Json.Grammar
import Thumbnails.Proofs.Json.Layout
import Thumbnails.Proofs.Config.RoundTrip
import Thumbnails.Proofs.Config.Overrides
import Thumbnails.Proofs.Path.Meaning
import Thumbnails.Proofs.Text.Lossy
import Thumbnails.Proofs.Path.Stem
import Thumbnails.Proofs.Key.Collision
import Thumbnails.Proofs.Files.Saving
import Thumbnails.Proofs.Cache.Ensuring
import Thumbnails.Proofs.Key.Placement
import Thumbnails.Proofs.Key.Lexicographic
import Thumbnails.Proofs.Store.KeyIdentity
import Thumbnails.Proofs.Number.Rounding
import Thumbnails.Proofs.Image.Scale
import Thumbnails.Proofs.Text.Blank
import Thumbnails.Proofs.Config.Source
