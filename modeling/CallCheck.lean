import CallCheck.Call.Data
import CallCheck.Call.Error
import CallCheck.Call.Limits
import CallCheck.Call.Provider
import CallCheck.Call.Resolve
import CallCheck.Call.Target
import CallCheck.Expr.Context
import CallCheck.Expr.Error
import CallCheck.Expr.Eval
import CallCheck.Expr.Lexeme
import CallCheck.Expr.Parse
import CallCheck.Expr.Token
import CallCheck.Expr.Tree
import CallCheck.Expr.Value
import CallCheck.Files
import CallCheck.Greeter.Declaration
import CallCheck.Greeter.Peer
import CallCheck.Greeter.Service
import CallCheck.Greeter.Stats
import CallCheck.Json.Basic
import CallCheck.Json.Literal
import CallCheck.Json.Read
import CallCheck.Json.Write
import CallCheck.Main
import CallCheck.Message.Json
import CallCheck.Message.Value
import CallCheck.Message.Wire
import CallCheck.Numeric.Binary
import CallCheck.Numeric.Layout
import CallCheck.Numeric.Numeral
import CallCheck.Numeric.Shortest
import CallCheck.Numeric.Width
import CallCheck.Probe.Collection
import CallCheck.Probe.Entry
import CallCheck.Probe.EnvFile
import CallCheck.Probe.Failure
import CallCheck.Probe.Harness
import CallCheck.Probe.Metadata
import CallCheck.Probe.Options
import CallCheck.Probe.Program
import CallCheck.Probe.Run
import CallCheck.Probe.Settings
import CallCheck.Probe.Usage
import CallCheck.Proofs.Except
import CallCheck.Proofs.Expr.Cutting
import CallCheck.Proofs.Expr.Effects
import CallCheck.Proofs.Expr.Extraction
import CallCheck.Proofs.Expr.Grammar
import CallCheck.Proofs.Expr.Handles
import CallCheck.Proofs.Expr.Height
import CallCheck.Proofs.Expr.JsonPath
import CallCheck.Proofs.Expr.Lexemes
import CallCheck.Proofs.Expr.Misplaced
import CallCheck.Proofs.Expr.Noninterference
import CallCheck.Proofs.Expr.Parsing
import CallCheck.Proofs.Expr.Printing
import CallCheck.Proofs.Expr.Scanning
import CallCheck.Proofs.Expr.Stopping
import CallCheck.Proofs.Greeter.Answers
import CallCheck.Proofs.Greeter.Report
import CallCheck.Proofs.Json.Filling
import CallCheck.Proofs.Json.Members
import CallCheck.Proofs.Json.Numbers
import CallCheck.Proofs.Json.Strings
import CallCheck.Proofs.Json.Writing
import CallCheck.Proofs.Message.Encoding
import CallCheck.Proofs.Message.Forms
import CallCheck.Proofs.Message.Plain
import CallCheck.Proofs.Message.Rendering
import CallCheck.Proofs.Message.Typed
import CallCheck.Proofs.Numeric.Rounding
import CallCheck.Proofs.Probe.Bookkeeping
import CallCheck.Proofs.Probe.Evaluations
import CallCheck.Proofs.Probe.Interrupt
import CallCheck.Proofs.Probe.Isolation
import CallCheck.Proofs.Probe.Judging
import CallCheck.Proofs.Probe.Payload
import CallCheck.Proofs.Probe.Phases
import CallCheck.Proofs.Probe.Requirements
import CallCheck.Proofs.Reflection.Agreement
import CallCheck.Proofs.Reflection.Asking
import CallCheck.Proofs.Reflection.Closure
import CallCheck.Proofs.Reflection.Order
import CallCheck.Proofs.Reflection.Requests
import CallCheck.Proofs.Reflection.Sorting
import CallCheck.Proofs.Schema.Faults
import CallCheck.Proofs.Schema.Linking
import CallCheck.Proofs.Schema.Names
import CallCheck.Proofs.Schema.Sound
import CallCheck.Proofs.Schema.Spellings
import CallCheck.Proofs.Schema.Visible
import CallCheck.Proofs.Session.Connectivity
import CallCheck.Proofs.Session.Opening
import CallCheck.Proofs.Text.Base64
import CallCheck.Proofs.Text.Calendar
import CallCheck.Proofs.Text.Filling
import CallCheck.Proofs.Text.Slots
import CallCheck.Proofs.Text.Utf8
import CallCheck.Proofs.Wire.Records
import CallCheck.Proofs.Worker.Answer
import CallCheck.Proofs.Worker.Asking
import CallCheck.Proofs.Worker.Calls
import CallCheck.Proofs.Worker.Conversing
import CallCheck.Proofs.Worker.Conveying
import CallCheck.Proofs.Worker.Exchange
import CallCheck.Proofs.Worker.Listening
import CallCheck.Proofs.Worker.Lives
import CallCheck.Proofs.Worker.Outcomes
import CallCheck.Proofs.Worker.Progress
import CallCheck.Proofs.Worker.Reading
import CallCheck.Proofs.Worker.Replies
import CallCheck.Proofs.Worker.Script
import CallCheck.Proofs.Worker.Sending
import CallCheck.Proofs.Worker.Sides
import CallCheck.Proofs.Worker.Stopping
import CallCheck.Reflection.Client
import CallCheck.Reflection.Closure
import CallCheck.Reflection.Order
import CallCheck.Reflection.Query
import CallCheck.Schema.Binary
import CallCheck.Schema.Declaration
import CallCheck.Schema.Link
import CallCheck.Schema.Pool
import CallCheck.Schema.Source.Compile
import CallCheck.Schema.Source.Read
import CallCheck.Schema.Source.Token
import CallCheck.Session.Address
import CallCheck.Session.Basic
import CallCheck.Session.Connection
import CallCheck.Session.Connectivity
import CallCheck.Session.Network
import CallCheck.Session.Pem
import CallCheck.Session.ServerName
import CallCheck.Session.Transport
import CallCheck.Text.Alphabetic
import CallCheck.Text.Base64
import CallCheck.Text.Basic
import CallCheck.Text.Calendar
import CallCheck.Text.Quoted
import CallCheck.Text.Template
import CallCheck.Text.Unprintable
import CallCheck.Text.Utf8
import CallCheck.Text.Uuid
import CallCheck.Wire.Fields
import CallCheck.Wire.Record
import CallCheck.Wire.Varint
import CallCheck.Worker.Bidi
import CallCheck.Worker.Calling
import CallCheck.Worker.ClientStream
import CallCheck.Worker.LifeCycle
import CallCheck.Worker.Pipe
import CallCheck.Worker.Receiving
import CallCheck.Worker.Sending
import CallCheck.Worker.ServerStream
import CallCheck.Worker.Serving
import CallCheck.Worker.Step
import CallCheck.Worker.Unary
