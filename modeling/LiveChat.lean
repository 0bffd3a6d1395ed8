import LiveChat.Fault
import LiveChat.Duration
import LiveChat.Entropy
import LiveChat.Table
import LiveChat.Text.Decimal
import LiveChat.Text.Blank
import LiveChat.Json.Parser
import LiveChat.Json.Binary64
import LiveChat.Json.Reader
import LiveChat.Json.Document
import LiveChat.Address
import LiveChat.Wire.Record
import LiveChat.Wire.ClientFrame
import LiveChat.Wire.ServerFrame
import LiveChat.Channel.Switchboard
import LiveChat.Presence.Roster
import LiveChat.Feed
import LiveChat.Chat.Typists
import LiveChat.Chat.TypingSignal
import LiveChat.Chat.Conversation
import LiveChat.Client.Basic
import LiveChat.Simulation.Basic
import LiveChat.Console.Command
import LiveChat.Console.Arguments
import LiveChat.Console.Screen
import LiveChat.Console.Session
import LiveChat.Main
import LiveChat.Proofs.Chat.Timeline
import LiveChat.Proofs.Chat.Operation
import LiveChat.Proofs.Chat.Journal
import LiveChat.Proofs.Chat.Arrival
import LiveChat.Proofs.Table
import LiveChat.Proofs.Channel.Switchboard
import LiveChat.Proofs.Chat.Sound
import LiveChat.Proofs.Client.Sound
import LiveChat.Proofs.Audit.Check
import LiveChat.Proofs.Client.Checks
import LiveChat.Proofs.Json.RoundTrip
import LiveChat.Proofs.Wire.RoundTrip
import LiveChat.Proofs.Chat.Settlement
import LiveChat.Proofs.Client.Send
import LiveChat.Proofs.Simulation.Process
import LiveChat.Proofs.Simulation.Calls
import LiveChat.Proofs.Chat.Confirmation
import LiveChat.Proofs.Client.Run
import LiveChat.Proofs.Channel.Transport
import LiveChat.Proofs.Client.Trace
import LiveChat.Proofs.Client.Transport
import LiveChat.Proofs.Simulation.Paging
import LiveChat.Proofs.Chat.Edits
import LiveChat.Proofs.Client.Subscription
import LiveChat.Proofs.Client.Loads
import LiveChat.Proofs.Chat.Reception
import LiveChat.Proofs.Simulation.Session
import LiveChat.Proofs.Simulation.Stay
import LiveChat.Proofs.Simulation.Order
import LiveChat.Proofs.Simulation.Drain
import LiveChat.Proofs.Simulation.Transport
import LiveChat.Proofs.Simulation.Reach
import LiveChat.Proofs.Client.Frame
import LiveChat.Proofs.Client.Effects
import LiveChat.Proofs.Chat.Telling
import LiveChat.Proofs.Client.Telling
import LiveChat.Proofs.Chat.Origin
import LiveChat.Proofs.Client.Origin
import LiveChat.Proofs.Channel.Run
import LiveChat.Proofs.Channel.Lifecycle
import LiveChat.Proofs.Channel.Independence
import LiveChat.Proofs.Json.Document
import LiveChat.Proofs.Wire.ServerFrame
import LiveChat.Proofs.Client.Accepted
import LiveChat.Proofs.Chat.Signal
import LiveChat.Proofs.Client.Typing
import LiveChat.Proofs.Channel.Timing
import LiveChat.Proofs.Chat.Placeholder
import LiveChat.Proofs.Chat.Balance
import LiveChat.Proofs.History
import LiveChat.Proofs.Json.Order
import LiveChat.Proofs.Wire.Order
import LiveChat.Proofs.Chat.Typists
import LiveChat.Proofs.Presence.IdleWatch
import LiveChat.Proofs.Feed
import LiveChat.Proofs.Presence.Records
import LiveChat.Proofs.Audit.Violations
import LiveChat.Proofs.Client.Tick
import LiveChat.Proofs.Text
import LiveChat.Proofs.Address
import LiveChat.Proofs.Console.Command
import LiveChat.Proofs.Console.Screen
