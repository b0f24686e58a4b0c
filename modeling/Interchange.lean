import Interchange.Direction
import Interchange.Id
import Interchange.InvalidValue
import Interchange.Json.Basic
import Interchange.Json.Double
import Interchange.Json.Format
import Interchange.Json.Printer
import Interchange.Json.Reader
import Interchange.Log
import Interchange.Main
import Interchange.Network
import Interchange.Order
import Interchange.Rule.Basic
import Interchange.Rule.Book
import Interchange.Rule.Format
import Interchange.Rule.Gazetteer
import Interchange.Rule.Index
import Interchange.Rule.Issue
import Interchange.Rule.Location
import Interchange.Search
import Interchange.Search.Format
import Interchange.Service
import Interchange.Service.Message
import Interchange.Snapshot
import Interchange.Startup
import Interchange.Startup.Address
import Interchange.Startup.Config
import Interchange.Stop
import Interchange.Stop.Tables
import Interchange.Table
import Interchange.Text.Blank
import Interchange.Text.Decimal
import Interchange.Text.Hexadecimal
import Interchange.Text.Percent
import Interchange.Text.Split
import Interchange.Text.Utf8
import Interchange.Time
import Interchange.Time.Clock
import Interchange.Timetable
import Interchange.Timetable.Fault
import Interchange.Timetable.Pattern
import Interchange.Timetable.Trip
import Interchange.Proofs.Json.Decoding
import Interchange.Proofs.Location
import Interchange.Proofs.RuleBook.Placement
import Interchange.Proofs.RuleBook.Contents
import Interchange.Proofs.RuleBook.Accounting
import Interchange.Proofs.Search.Selection
import Interchange.Proofs.Search.Decision
import Interchange.Proofs.Search.RecordOrder
import Interchange.Proofs.Mirror
import Interchange.Proofs.Search.Mirror
import Interchange.Proofs.Search.Influence
import Interchange.Proofs.Search.FirstInReach
import Interchange.Proofs.Search.RoundTrip
import Interchange.Proofs.Search.Postponement
import Interchange.Proofs.Search.GivingUp
import Interchange.Proofs.Network.Building
import Interchange.Proofs.RuleBook.Issues
import Interchange.Proofs.RuleBook.Correspondence
import Interchange.Proofs.Network.Lookup
import Interchange.Proofs.Network.Rearrangement
import Interchange.Proofs.Network.Records
import Interchange.Proofs.Network.Validity
import Interchange.Proofs.Text.Decimal
import Interchange.Proofs.Json.Reading
import Interchange.Proofs.Json.RoundTrip
import Interchange.Proofs.Network.TripRules
import Interchange.Proofs.Network.Provenance
import Interchange.Proofs.Time.Reading
import Interchange.Proofs.Network.ClockTimes
import Interchange.Proofs.Search.Exact
import Interchange.Proofs.Search.Start
import Interchange.Proofs.Time.Writing
import Interchange.Proofs.Snapshot
import Interchange.Proofs.Network.Consistency
import Interchange.Proofs.Timetable.Overtaking
import Interchange.Proofs.Service.Outcomes
import Interchange.Proofs.Search.Patience
import Interchange.Proofs.Search.Resolution
import Interchange.Proofs.Search.Uniform
import Interchange.Proofs.Time.Grammar
import Interchange.Proofs.RuleBook.Amendment
import Interchange.Proofs.Search.Amendment
import Interchange.Proofs.Search.Tightening
import Interchange.Proofs.RuleBook.Stations
import Interchange.Proofs.RuleBook.Diagnostics
import Interchange.Proofs.RuleBook.Growth
import Interchange.Proofs.RuleBook.Repetition
import Interchange.Proofs.Search.RouteRules
import Interchange.Proofs.Timetable.TripTimes
import Interchange.Proofs.RuleIndex
import Interchange.Proofs.StopTables
import Interchange.Proofs.Gazetteer
