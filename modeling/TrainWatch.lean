import TrainWatch.Library.IMap
import TrainWatch.Library.Transition
import TrainWatch.Library.BlindWrites
import TrainWatch.Library.Interleaving
import TrainWatch.Library.Redelivery
import TrainWatch.Library.Sweep
import TrainWatch.Java.Lang
import TrainWatch.Java.Time
import TrainWatch.RefData.Schedule
import TrainWatch.Movement.Model
import TrainWatch.Movement.Repositories
import TrainWatch.Movement.Producer
import TrainWatch.Movement.Processor
import TrainWatch.Movement.Pipeline
import TrainWatch.Verified.Steps
import TrainWatch.Verified.Provenance
import TrainWatch.Verified.Liveness
import TrainWatch.Verified.PoisonRecords
import TrainWatch.Movement.Threads
import TrainWatch.Verified.Termination
import TrainWatch.Verified.Reactivation
import TrainWatch.Verified.CleanupRaces
import TrainWatch.Verified.Streaming
import TrainWatch.Verified.Batches
import TrainWatch.Movement.Departures
import TrainWatch.Search.HzTrainWatchSearch
import TrainWatch.RefData.CreateSchedules
import TrainWatch.RefData.ScheduleImport
import TrainWatch.Verified.SearchSafety
import TrainWatch.Library.Dict
import TrainWatch.Library.Json
import TrainWatch.Library.Puts
import TrainWatch.Java.Texts
import TrainWatch.RefData.LoadSchedules
import TrainWatch.Verified.ScheduleDelivery
import TrainWatch.Verified.ScheduleLookup
import TrainWatch.RefData.CreateLocations
import TrainWatch.RefData.LocationImport
import TrainWatch.Verified.LocationIndexes
import TrainWatch.Verified.ImportOrder
import TrainWatch.Library.Selection
import TrainWatch.Verified.DelayWindows
import TrainWatch.Verified.DepartureSearches
import TrainWatch.Verified.Stations
import TrainWatch.Verified.Eviction
import TrainWatch.Verified.MovementEviction
import TrainWatch.Verified.SignedDelays
import TrainWatch.Verified.Zones
import TrainWatch.Java.Calendar
import TrainWatch.RefData.FeedDates
import TrainWatch.Verified.ScheduleWindows
import TrainWatch.Verified.LocationJoin
import TrainWatch.Library.JsonText
import TrainWatch.Verified.FeedClassification
import TrainWatch.Verified.ImportOutcome
import TrainWatch.Java.Ascii
import TrainWatch.Library.Framing
import TrainWatch.Stomp.Frames
import TrainWatch.Stomp.Receiver
import TrainWatch.Verified.Wire
import TrainWatch.Library.Deferral
import TrainWatch.Stomp.Server
import TrainWatch.Verified.Broker
import TrainWatch.Verified.Admission
import TrainWatch.Stomp.Client
import TrainWatch.Verified.Inbox
import TrainWatch.Stomp.IntraVMClient
import TrainWatch.Verified.PlainClients
import TrainWatch.Verified.Delivery
import TrainWatch.Verified.Receipts
import TrainWatch.Movement.TrustFeed
import TrainWatch.Verified.Feed
import TrainWatch.Movement.HzCleanup
import TrainWatch.Verified.Cleanup
import TrainWatch.Verified.Shown
import TrainWatch.RefData.CreateRefData
import TrainWatch.Verified.ReferenceData
import TrainWatch.Stomp.Network
import TrainWatch.Verified.Network
import TrainWatch.Stomp.NetworkClient
import TrainWatch.Verified.Subscribers
