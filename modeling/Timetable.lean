import Timetable.Api.Fault
import Timetable.Api.Input
import Timetable.Api.MediaType
import Timetable.Api.Route
import Timetable.Api.Server
import Timetable.Application
import Timetable.Clock
import Timetable.Command
import Timetable.Conflict
import Timetable.Course
import Timetable.Decimal.Shortest
import Timetable.Demand
import Timetable.Duration
import Timetable.IdSet
import Timetable.Journal.Entry
import Timetable.Journal.Filter
import Timetable.Json.Decode
import Timetable.Json.Fault
import Timetable.Json.Interchange
import Timetable.Json.Reader
import Timetable.Json.Skip
import Timetable.Json.Token
import Timetable.Json.Value
import Timetable.Main
import Timetable.Meeting
import Timetable.Placement
import Timetable.Plan
import Timetable.Planner.Basic
import Timetable.Planner.Notices
import Timetable.Program
import Timetable.Record
import Timetable.Report
import Timetable.Section
import Timetable.Selection
import Timetable.Service
import Timetable.Settings.Basic
import Timetable.Settings.Literal
import Timetable.Settings.Toml
import Timetable.Settings.Variables
import Timetable.Store.Call
import Timetable.Store.Memory
import Timetable.Store.Remote
import Timetable.Store.Seed
import Timetable.Text.Blank
import Timetable.Text.Case
import Timetable.Text.Escaped
import Timetable.Text.Quoted
import Timetable.Text.Utf8
import Timetable.Url.Basic
import Timetable.Url.Form
import Timetable.Url.Host
import Timetable.Url.Percent
import Timetable.Url.Punycode
import Timetable.View
import Timetable.Week
import Timetable.Proofs.Planner.Operations
import Timetable.Proofs.Planner.Session
import Timetable.Proofs.Planner.Numbering
import Timetable.Proofs.Planner.Adoption
import Timetable.Proofs.Planner.Lifecycle
import Timetable.Proofs.Planner.InFlight
import Timetable.Proofs.Planner.LastRequest
import Timetable.Proofs.Service.Convergence
import Timetable.Proofs.Planner.Gate
import Timetable.Proofs.Service.Lockstep
import Timetable.Proofs.Service.Reloading
import Timetable.Proofs.Plan.Ingestion
import Timetable.Proofs.Plan.Selection
import Timetable.Proofs.Service.Overlap
import Timetable.Proofs.Planner.Failure
import Timetable.Proofs.Store.Building
import Timetable.Proofs.Store.Change
import Timetable.Proofs.Store.WellFormed
import Timetable.Proofs.Store.Agreement
import Timetable.Proofs.Conflict.Detection
import Timetable.Proofs.Placement.Preference
import Timetable.Proofs.Plan.Persistence
import Timetable.Proofs.Json.Interchange
import Timetable.Proofs.Meeting.Reading
import Timetable.Proofs.Plan.Content
import Timetable.Proofs.Plan.NormalForm
import Timetable.Proofs.Store.Flagging
import Timetable.Proofs.Store.Frame
import Timetable.Proofs.Store.Seats
import Timetable.Proofs.Placement.Order
import Timetable.Proofs.Placement.Settled
import Timetable.Proofs.Store.Rebuilding
import Timetable.Proofs.View
import Timetable.Proofs.Meeting.Writing
import Timetable.Proofs.Demand
import Timetable.Proofs.Grid
import Timetable.Proofs.Json.Excerpt
import Timetable.Proofs.NumberOrder
