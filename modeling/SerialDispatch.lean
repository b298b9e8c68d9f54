import SerialDispatch.Channel
import SerialDispatch.Codec.Log
import SerialDispatch.Codec.Request
import SerialDispatch.Codec.Result
import SerialDispatch.Dispatcher.Run
import SerialDispatch.Main
import SerialDispatch.Proofs.Channel.Accounts
import SerialDispatch.Proofs.Channel.Batches
import SerialDispatch.Proofs.Channel.Closing
import SerialDispatch.Proofs.Channel.Folding
import SerialDispatch.Proofs.Channel.Succession
import SerialDispatch.Proofs.Codec.Encoding
import SerialDispatch.Proofs.Codec.RoundTrip
import SerialDispatch.Proofs.Delivery.Lookahead
import SerialDispatch.Proofs.Dispatcher.Blocks
import SerialDispatch.Proofs.Dispatcher.Coalescing
import SerialDispatch.Proofs.Dispatcher.Isolation
import SerialDispatch.Proofs.Dispatcher.LateCancels
import SerialDispatch.Proofs.Dispatcher.Logbook
import SerialDispatch.Proofs.Dispatcher.Recovery
import SerialDispatch.Proofs.Dispatcher.Rejection
import SerialDispatch.Proofs.Dispatcher.Stopping
import SerialDispatch.Proofs.Dispatcher.Truncation
import SerialDispatch.Proofs.Failures
import SerialDispatch.Proofs.KeyStores
import SerialDispatch.Proofs.Queue.Jobs
import SerialDispatch.Proofs.Redaction
import SerialDispatch.Proofs.Registrations
import SerialDispatch.Proofs.Simulation.Keyrings
import SerialDispatch.Proofs.Simulation.Printed
import SerialDispatch.Proofs.Tokens
import SerialDispatch.Queue.Session
import SerialDispatch.Simulation.Output
