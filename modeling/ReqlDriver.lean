import ReqlDriver.CommandLine.Rehearsal
import ReqlDriver.Datum.Native
import ReqlDriver.Main
import ReqlDriver.Protocol.Handshake
import ReqlDriver.Protocol.Query
import ReqlDriver.Protocol.Response
import ReqlDriver.Query.Method
import ReqlDriver.Query.Outline
import ReqlDriver.Query.Wire
import ReqlDriver.Settings.Reader
import ReqlDriver.Proofs.Query.WireForm
import ReqlDriver.Proofs.Query.Hygiene
import ReqlDriver.Proofs.Connection.Delivery
import ReqlDriver.Proofs.Connection.Ledger
import ReqlDriver.Proofs.Datum.RoundTrip
import ReqlDriver.Proofs.Connection.Finality
import ReqlDriver.Proofs.Protocol.Framing
import ReqlDriver.Proofs.Json.Parts
import ReqlDriver.Proofs.Datum.NormalForm
import ReqlDriver.Proofs.Json.Brief
import ReqlDriver.Proofs.Query.Literal
import ReqlDriver.Proofs.Query.Rendering
import ReqlDriver.Proofs.Protocol.Payload
import ReqlDriver.Proofs.Connection.Table
import ReqlDriver.Proofs.Connection.Verdict
import ReqlDriver.Proofs.Connection.Closed
import ReqlDriver.Proofs.Connection.Collision
import ReqlDriver.Proofs.Protocol.Greeting
import ReqlDriver.Proofs.Connection.Shutdown
import ReqlDriver.Proofs.Connection.Interruption
import ReqlDriver.Proofs.Connection.Undisturbed
import ReqlDriver.Proofs.Protocol.Answer
import ReqlDriver.Proofs.Datum.Drift
import ReqlDriver.Proofs.Datum.Native
import ReqlDriver.Proofs.Datum.Timestamp
import ReqlDriver.Proofs.Query.Grammar
import ReqlDriver.Proofs.CommandLine.Precedence
