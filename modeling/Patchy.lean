import Patchy.Builder.Labels
import Patchy.Builder.Success
import Patchy.Concurrent.Linearization
import Patchy.Concurrent.Outcome
import Patchy.Concurrent.Progress
import Patchy.Concurrent.Protection
import Patchy.Ffi.Install
import Patchy.Ffi.Journal
import Patchy.Ffi.LastError
import Patchy.Ffi.Refinement
import Patchy.Session.Protection
import Patchy.Session.Search
import Patchy.System.Outcome
import Patchy.System.Sessions
