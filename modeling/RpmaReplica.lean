import RpmaReplica.Lib.Wire
import RpmaReplica.Lib.Exec
import RpmaReplica.Lib.Machine
import RpmaReplica.Lib.Ledger
import RpmaReplica.Lib.Outbox
import RpmaReplica.Lib.Names
import RpmaReplica.Lib.Link
import RpmaReplica.Types
import RpmaReplica.Formats
import RpmaReplica.Outside
import RpmaReplica.MemoryManager
import RpmaReplica.FileSystem
import RpmaReplica.ConnectionHandler
import RpmaReplica.Notification
import RpmaReplica.Ownership
import RpmaReplica.Operations
import RpmaReplica.RPMAHandler
import RpmaReplica.Paths
import RpmaReplica.Serving
import RpmaReplica.Replicas
import RpmaReplica.Session
import RpmaReplica.Life
import RpmaReplica.Receives
import RpmaReplica.Replies
import RpmaReplica.Server
import RpmaReplica.ClientHandler
import RpmaReplica.Calling
import RpmaReplica.InitReplica
import RpmaReplica.Agreement
import RpmaReplica.Descriptors
import RpmaReplica.Client
import RpmaReplica.Sending
import RpmaReplica.Outstanding
import RpmaReplica.Finishing
import RpmaReplica.Protocol
import RpmaReplica.Reactor
import RpmaReplica.Registering
import RpmaReplica.Dispatcher
import RpmaReplica.Host
import RpmaReplica.Storage
import RpmaReplica.Mirror
import RpmaReplica.ClientMain
import RpmaReplica.Copying
