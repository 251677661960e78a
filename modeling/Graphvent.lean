import Graphvent.Lockable.Basic
import Graphvent.Lockable.Process
import Graphvent.Lockable.Invariant
import Graphvent.Lockable.Network
import Graphvent.Lockable.Wave
import Graphvent.Lockable.Tree
import Graphvent.Lockable.Replies
import Graphvent.Go.Binary
import Graphvent.Go.Runtime
import Graphvent.Signal.Frame
import Graphvent.Context.Registry
import Graphvent.Context.NewContext
import Graphvent.Serialize.Value
import Graphvent.Serialize.RoundTrip
import Graphvent.Serialize.Parse
import Graphvent.Node.Database
import Graphvent.Node.States
import Graphvent.Node.Listeners
import Graphvent.Node.Load
import Graphvent.Context.Send
import Graphvent.Serialize.WithContext
import Graphvent.Lockable.Held
import Graphvent.Signal.Proxy
