import Jukebox.Binary64.Basic
import Jukebox.Binary64.Shortest
import Jukebox.Catalog.Basic
import Jukebox.Catalog.Codec
import Jukebox.Catalog.Library
import Jukebox.Catalog.Load
import Jukebox.Catalog.Search
import Jukebox.Catalog.View
import Jukebox.Catalog.Walk
import Jukebox.Cursor.Basic
import Jukebox.Cursor.Codec
import Jukebox.Cursor.Store
import Jukebox.Error
import Jukebox.Event
import Jukebox.Flags
import Jukebox.History
import Jukebox.Http
import Jukebox.Json.Basic
import Jukebox.Json.Decoder
import Jukebox.Json.Literal
import Jukebox.Json.Numeral
import Jukebox.Json.Printer
import Jukebox.Json.Source
import Jukebox.Json.Token
import Jukebox.Main
import Jukebox.Path
import Jukebox.Path.Codec
import Jukebox.Players
import Jukebox.Playlist.Basic
import Jukebox.Playlist.Codec
import Jukebox.Playlist.Item
import Jukebox.Playlist.Store
import Jukebox.Proofs.Catalog.Basic
import Jukebox.Proofs.Catalog.Library
import Jukebox.Proofs.Catalog.Stops
import Jukebox.Proofs.Catalog.Walk
import Jukebox.Proofs.Map
import Jukebox.Proofs.Path
import Jukebox.Proofs.Players
import Jukebox.Proofs.Playlist.Basic
import Jukebox.Proofs.Playlist.Expansion
import Jukebox.Proofs.Playlist.Removal
import Jukebox.Proofs.Playlist.Run
import Jukebox.Proofs.Playlist.Validity
import Jukebox.Proofs.Result
import Jukebox.Proofs.Session
import Jukebox.Proofs.System
import Jukebox.Protocol.Command
import Jukebox.Protocol.Failure
import Jukebox.Protocol.Fields
import Jukebox.Protocol.Message
import Jukebox.Searcher
import Jukebox.Service.Archive
import Jukebox.Service.Basic
import Jukebox.Service.Directory
import Jukebox.Service.Files
import Jukebox.Session
import Jukebox.Settings.Address
import Jukebox.Settings.Arguments
import Jukebox.Settings.Basic
import Jukebox.Settings.File
import Jukebox.Socket.Frame
import Jukebox.Socket.Writer
import Jukebox.Subscribers
import Jukebox.System
import Jukebox.Text.Blank
import Jukebox.Text.CaseTable
import Jukebox.Text.InvisibleTable
import Jukebox.Text.Lowercase
import Jukebox.Text.Numeral
import Jukebox.Text.Quoted
import Jukebox.Text.Reader
import Jukebox.Time.Date
import Jukebox.Time.Instant
import Jukebox.Toml.Basic
import Jukebox.Toml.Document
import Jukebox.Toml.Scalar
import Jukebox.Uuid
import Jukebox.Proofs.Catalog.Forest
import Jukebox.Proofs.Catalog.Landing
import Jukebox.Proofs.Cursor.Run
import Jukebox.Proofs.Json.Order
import Jukebox.Proofs.Protocol.Grammar
import Jukebox.Proofs.Protocol.Slots
import Jukebox.Proofs.Routing
import Jukebox.Proofs.Text.Numeral
import Jukebox.Proofs.Uuid
import Jukebox.Proofs.Json.Codec
import Jukebox.Proofs.Service.Codec
import Jukebox.Proofs.Playlist.Store
import Jukebox.Proofs.Service.Files
import Jukebox.Proofs.Service.Frame
import Jukebox.Proofs.Service.Restore
import Jukebox.Proofs.Archive
import Jukebox.Proofs.Dial
import Jukebox.Proofs.Playlist.Row
import Jukebox.Proofs.Isolation
import Jukebox.Proofs.Catalog.Tracks
import Jukebox.Proofs.Cursor.Row
import Jukebox.Proofs.Search
import Jukebox.Proofs.Playlist.Reach
import Jukebox.Proofs.Playlist.Projection
import Jukebox.Proofs.Catalog.View
import Jukebox.Proofs.Service.Log
import Jukebox.Proofs.Marks
import Jukebox.Proofs.Catalog.Search
import Jukebox.Proofs.Playlist.Pruning
import Jukebox.Proofs.Playlist.Order
import Jukebox.Proofs.Playlist.Discard
import Jukebox.Proofs.Protocol.Optional
import Jukebox.Proofs.Address
import Jukebox.Proofs.Cursor.Placement
import Jukebox.Proofs.Service.Follow
import Jukebox.Proofs.Protocol.Index
import Jukebox.Proofs.Subscribers
import Jukebox.Proofs.Catalog.Chain
import Jukebox.Proofs.Catalog.Ending
import Jukebox.Proofs.Playlist.Queue
import Jukebox.Proofs.Traversal
import Jukebox.Proofs.Socket.Stream
import Jukebox.Proofs.Socket.Writer
import Jukebox.Proofs.Playlist.Choice
import Jukebox.Proofs.Lookup
import Jukebox.Proofs.Path.Codec
import Jukebox.Proofs.Protocol.Message
