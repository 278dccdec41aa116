import MusicImport.Main
import MusicImport.Settings.File
import MusicImport.Text.Lossy
import MusicImport.Decimal.Fixed
import MusicImport.Digest.Sha256
import MusicImport.Grouping.Plan
import MusicImport.Wire.Config
import MusicImport.Wire.Scoring
import MusicImport.Wire.Report
import MusicImport.Wire.Event
import MusicImport.Wire.Failure
import MusicImport.Session.Import
import MusicImport.Catalog.Store
import MusicImport.Proofs.Session.Delivering
import MusicImport.Proofs.Session.Restoring
import MusicImport.Proofs.Session.Retrying
import MusicImport.Proofs.Session.Owing
import MusicImport.Proofs.Journal.Interrupted
import MusicImport.Proofs.Grouping.Keys
import MusicImport.Proofs.Session.Sharing
import MusicImport.Proofs.Journal.Sessions
import MusicImport.Proofs.Session.Failing
import MusicImport.Proofs.Session.Ending
import MusicImport.Proofs.Session.Booking
import MusicImport.Proofs.Session.Resuming
import MusicImport.Proofs.Session.Departing
import MusicImport.Proofs.Session.Halting
import MusicImport.Proofs.Session.Sparing
import MusicImport.Proofs.Scoring.Similarity
import MusicImport.Proofs.Session.Accepting
import MusicImport.Proofs.Consensus
import MusicImport.Proofs.Session.Recording
import MusicImport.Proofs.Scoring.Cheapest
import MusicImport.Proofs.Library.SafeNames
import MusicImport.Proofs.Session.Naming
import MusicImport.Proofs.Scoring.Bounds
import MusicImport.Proofs.Scoring.Contributions
import MusicImport.Proofs.Scoring.Fractions
import MusicImport.Proofs.Scoring.Perfect
import MusicImport.Proofs.Scoring.Ranking
import MusicImport.Proofs.Files.Spelling
import MusicImport.Proofs.Library.Taking
import MusicImport.Proofs.Library.Written
import MusicImport.Proofs.Session.Transferring
import MusicImport.Proofs.Session.Offering
import MusicImport.Proofs.Session.Absorbing
import MusicImport.Proofs.Session.Replacing
import MusicImport.Proofs.Session.Tagging
import MusicImport.Proofs.Library.CleanNames
import MusicImport.Proofs.Library.Depth
import MusicImport.Proofs.Library.Filling
import MusicImport.Proofs.Session.Announcing
import MusicImport.Proofs.Library.Recognised
import MusicImport.Proofs.Catalog.Queries
import MusicImport.Proofs.Session.Splitting
import MusicImport.Proofs.Task.Lifecycle
import MusicImport.Proofs.Grouping.Markers
import MusicImport.Proofs.Grouping.Contests
import MusicImport.Proofs.Identity
import MusicImport.Proofs.Session.Collecting
import MusicImport.Proofs.Tags.Overriding
