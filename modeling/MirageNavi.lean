import MirageNavi.Stun.Listener
import MirageNavi.Tls.RateLimited
import MirageNavi.Store.Json
import MirageNavi.Store.Config
import MirageNavi.Derper.Setup
import MirageNavi.Derper.Step
import MirageNavi.Derper.Epochs
import MirageNavi.Derper.Restart
import MirageNavi.Derper.Keys
import MirageNavi.Derper.Signals
import MirageNavi.Derper.Lifetime
import MirageNavi.Http.Handlers
import MirageNavi.Http.Versions
import MirageNavi.Tls.Limiter
import MirageNavi.Dns.Records
import MirageNavi.Windows.Service
import MirageNavi.Windows.Start
import MirageNavi.Client.Timeout
import MirageNavi.Client.Watcher
import MirageNavi.Client.ExitNode
