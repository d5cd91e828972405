import FissionCli.Types
import FissionCli.Store
import FissionCli.Archive
import FissionCli.Update
import FissionCli.PkgUpdate
import FissionCli.Get
import FissionCli.WrittenPackage
import FissionCli.Concurrent
import FissionCli.Snapshot
import FissionCli.Delete
import FissionCli.FlagParser
import FissionCli.Create
import FissionCli.Session
