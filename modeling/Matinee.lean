import Matinee.Text.Blank
import Matinee.Text.Pieces
import Matinee.Text.Contains
import Matinee.Text.Utf8
import Matinee.Text.Offset
import Matinee.Text.Runs
import Matinee.Text.Alphanumeric
import Matinee.Text.LowerCase
import Matinee.Number.Whole
import Matinee.Number.Real
import Matinee.Number.Binary
import Matinee.Number.Shortest
import Matinee.Number.Fixed
import Matinee.Number.TotalOrder
import Matinee.Instant.Calendar
import Matinee.Instant.Basic
import Matinee.Instant.Rfc3339
import Matinee.Json.Basic
import Matinee.Json.Number
import Matinee.Json.Scan
import Matinee.Json.Tree
import Matinee.Json.Decode
import Matinee.Http.Form
import Matinee.Http.MediaType
import Matinee.Http.Charset
import Matinee.Http.Message
import Matinee.Failure
import Matinee.Keys
import Matinee.Cache
import Matinee.Movie.Basic
import Matinee.Movie.Json
import Matinee.Dataset.Line
import Matinee.Dataset.Row
import Matinee.Dataset.Source
import Matinee.Catalog
import Matinee.Rating.Scale
import Matinee.Rating.Links
import Matinee.Rating.Table
import Matinee.Rating.Ratings
import Matinee.Search.Ranking
import Matinee.Search.Matching
import Matinee.Search.Engine
import Matinee.LiveSearch.Basic
import Matinee.LiveSearch.Clocked
import Matinee.Store.Basic
import Matinee.Store.Key
import Matinee.Store.Address
import Matinee.Store.Remote
import Matinee.WatchList
import Matinee.Profile
import Matinee.RemoteCatalog.Genre
import Matinee.RemoteCatalog.Page
import Matinee.RemoteCatalog.Client
import Matinee.Recommender
import Matinee.Settings.Environment
import Matinee.Settings.EnvFile
import Matinee.Settings.Basic
import Matinee.Api.RequestId
import Matinee.Api.Response
import Matinee.Api.Route
import Matinee.Api.Input
import Matinee.Api.Service
import Matinee.Api.Handle
import Matinee.Proofs.Text.Utf8
import Matinee.Proofs.Text.Blank
import Matinee.Proofs.Text.Pieces
import Matinee.Proofs.Number.Digits
import Matinee.Proofs.Number.Finite
import Matinee.Proofs.Number.Rounding
import Matinee.Proofs.Number.Shortest
import Matinee.Proofs.Dataset.Line
import Matinee.Proofs.LiveSearch.Latest
import Matinee.Proofs.LiveSearch.Stale
import Matinee.Proofs.Search.BestMatch
import Matinee.Proofs.Search.Lookups
import Matinee.Proofs.Rating.Links
import Matinee.Proofs.Rating.Table
import Matinee.Proofs.Rating.Visits
import Matinee.Proofs.Rating.Served
import Matinee.Proofs.Rating.Batch
import Matinee.Proofs.Json.Scan
import Matinee.Proofs.Json.Numeral
import Matinee.Proofs.Json.Finite
import Matinee.Proofs.Json.Real
import Matinee.Proofs.Json.RoundTrip
import Matinee.Proofs.Json.Record
import Matinee.Proofs.Json.Written
import Matinee.Proofs.Movie.RoundTrip
import Matinee.Proofs.Movie.Clean
import Matinee.Proofs.Movie.Settled
import Matinee.Proofs.Store.Runs
import Matinee.Proofs.Store.Serial
import Matinee.Proofs.WatchList.Sequential
import Matinee.Proofs.WatchList.Concurrent
import Matinee.Proofs.Cache.Turns
import Matinee.Proofs.Search.Ranking
import Matinee.Proofs.Cache.Queue
import Matinee.Proofs.Instant.Calendar
import Matinee.Proofs.Instant.RoundTrip
import Matinee.Proofs.WatchList.AccountDate
import Matinee.Proofs.WatchList.Outages
import Matinee.Proofs.LiveSearch.Timers
import Matinee.Proofs.Store.Apart
import Matinee.Proofs.WatchList.Namespaces
import Matinee.Proofs.Text.LowerCase
import Matinee.Proofs.Search.Literal
import Matinee.Proofs.Search.Limit
import Matinee.Proofs.Api.Run
import Matinee.Proofs.Api.Steady
import Matinee.Proofs.LiveSearch.AtRest
import Matinee.Proofs.Api.LiveLimit
import Matinee.Proofs.Profile.Tally
import Matinee.Proofs.Profile.Genres
import Matinee.Proofs.Profile.Repeats
import Matinee.Proofs.Search.Words
import Matinee.Proofs.Dataset.Edits
import Matinee.Proofs.Upstream.Feed
import Matinee.Proofs.Api.Feeds
import Matinee.Proofs.WatchList.StoreFailures
import Matinee.Proofs.Store.Promises
import Matinee.Proofs.WatchList.RecordedDate
import Matinee.Proofs.Dataset.Quoting
import Matinee.Proofs.Search.Year
