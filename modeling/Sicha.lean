import Sicha.Base
import Sicha.Buf
import Sicha.Buf.Refine
import Sicha.Buf.Take
import Sicha.Lib.StopFold
import Sicha.Lib.Dialogue
import Sicha.Lib.Relay
import Sicha.Lib.Assures
import Sicha.Lib.Loop
import Sicha.Lib.LastWins
import Sicha.Lib.Fallible
import Sicha.Lib.HeaderLines
import Sicha.Lib.Split
import Sicha.Lib.Tour
import Sicha.Lib.Utf8
import Sicha.Lib.Mixer
import Sicha.Sse
import Sicha.Sse.Partition
import Sicha.Sse.Events
import Sicha.Sse.Follow
import Sicha.Sse.Twin
import Sicha.Sse.Caps
import Sicha.Sse.Batch
import Sicha.Sse.Encode
import Sicha.Sse.Oversize
import Sicha.Json
import Sicha.Classify
import Sicha.Classify.Delay
import Sicha.Request.Text
import Sicha.Request.Backend
import Sicha.Request.Headers
import Sicha.Request.ChatBody
import Sicha.Request.Reads
import Sicha.Request.Members
import Sicha.Request.Utf8
import Sicha.Request.Url
import Sicha.Request.Twin
import Sicha.Result
import Sicha.World
import Sicha.Response
import Sicha.Response.Rule
import Sicha.Response.Assembly
import Sicha.Response.Accept
import Sicha.Response.Agree
import Sicha.Response.Raw
import Sicha.Response.Caps
import Sicha.Response.Usage
import Sicha.Lib.Threads
import Sicha.Lib.Monitor
import Sicha.Cancel.Token
import Sicha.Transport.Script
import Sicha.Transport.Queue
import Sicha.Transport.Curl
import Sicha.Transport.Deadlines
import Sicha.Transport.HeaderBlocks
import Sicha.Transport.Pool
import Sicha.Transport.Timeline
import Sicha.Cancel.Wait
import Sicha.Transport.Perform
import Sicha.Transport.Obeys
import Sicha.Transport.Delivers
import Sicha.Transport.Calls
import Sicha.Transport.Budget
import Sicha.Client.Create
import Sicha.Client.Attempt
import Sicha.Client.Step
import Sicha.Client.Turn
import Sicha.Client.Release
import Sicha.Client.Chat
import Sicha.Client.Acts
import Sicha.Client.Trip
import Sicha.Client.Record
import Sicha.Client.Run
import Sicha.Client.Commit
import Sicha.Client.Caller
import Sicha.Client.Shape
import Sicha.Client.Telemetry
import Sicha.Client.Within
import Sicha.Client.Cancel
import Sicha.Client.Exhausted
import Sicha.Client.Refused
import Sicha.Client.Cleanup
import Sicha.Client.Invalid
import Sicha.Client.Wire
import Sicha.Client.Pace
import Sicha.Client.Jitter
import Sicha.Client.Stream
import Sicha.Client.Excerpt
import Sicha.Client.RetryAfter
import Sicha.Client.Override
import Sicha.Client.Turns
import Sicha.Client.Caps
import Sicha.Response.Twin
import Sicha.Client.Twin
import Sicha.Client.Lockstep
import Sicha.Client.Chunks
import Sicha.Client.Keys
import Sicha.Client.Reuse
import Sicha.Client.Complete
import Sicha.Client.BuiltIn
import Sicha.Client.Besides
import Sicha.Client.Journal
import Sicha.Client.Span
import Sicha.Transport.Warm
import Sicha.Transport.Lease
import Sicha.Client.Memory
import Sicha.Transport.Memory
