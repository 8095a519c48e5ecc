import Waymark.Config.Encode
import Waymark.Main
import Waymark.Shutdown.Session
import Waymark.Text.Hex
import Waymark.Version.Mask
import Waymark.Proofs.Graph.Versions
import Waymark.Proofs.App.Recording
import Waymark.Proofs.Percent
import Waymark.Proofs.Specifier.Clean
import Waymark.Proofs.Specifier.RequestPath
import Waymark.Proofs.Script.ServedUrl
import Waymark.Proofs.Build.Levels
import Waymark.Proofs.App.Verdict
import Waymark.Proofs.Build.Steady
import Waymark.Proofs.Build.Turns
import Waymark.Proofs.Build.Walk
import Waymark.Proofs.App.Served
import Waymark.Proofs.Graph.Affected
import Waymark.Proofs.Script.Mapped
import Waymark.Proofs.Disk.Paths
import Waymark.Proofs.App.Watched
import Waymark.Proofs.Build.Followed
import Waymark.Proofs.Disk.Emptying
import Waymark.Proofs.Build.Emptied
import Waymark.Proofs.Bundle.Trace
import Waymark.Proofs.Bundle.Run
import Waymark.Proofs.Bundle.Once
import Waymark.Proofs.Url.Domain
import Waymark.Proofs.Url.Host
import Waymark.Proofs.Url.Written
import Waymark.Proofs.Url.Read
import Waymark.Proofs.Url.Join
import Waymark.Proofs.Bundle.Names
import Waymark.Proofs.Bundle.Leads
import Waymark.Proofs.Url.Query
import Waymark.Proofs.Build.Imported
import Waymark.Proofs.Disk.Writing
import Waymark.Proofs.Specifier.SavePath
import Waymark.Proofs.Build.Saved
import Waymark.Proofs.Bundle.Shared
import Waymark.Proofs.Bundle.Replaced
import Waymark.Proofs.Route.Filled
import Waymark.Proofs.Route.Conventions
import Waymark.Proofs.Route.Globs
import Waymark.Proofs.Disk.Trees
import Waymark.Proofs.Route.Base
import Waymark.Proofs.Route.Scanned
import Waymark.Proofs.Graph.Restored
import Waymark.Proofs.Route.Order
import Waymark.Proofs.App.Opened
import Waymark.Proofs.Disk.Apart
import Waymark.Proofs.Build.Tidied
import Waymark.Proofs.Script.Lines
import Waymark.Proofs.Bundle.Program
import Waymark.Proofs.App.Kept
import Waymark.Proofs.Bundle.Kept
import Waymark.Proofs.Build.Rounds
import Waymark.Proofs.Build.Snapshotted
import Waymark.Proofs.Specifier.Inside
import Waymark.Proofs.Graph.Clock
import Waymark.Proofs.App.Reloaded
import Waymark.Proofs.App.Renamed
import Waymark.Proofs.Disk.Listing
import Waymark.Proofs.App.Routed
import Waymark.Proofs.App.Edges
import Waymark.Proofs.Route.PutBack
import Waymark.Proofs.Route.CatchAlls
import Waymark.Proofs.Route.Chosen
import Waymark.Proofs.Build.Remounted
import Waymark.Proofs.Text.Order
import Waymark.Proofs.App.Modified
import Waymark.Proofs.Bundle.Unfinished
import Waymark.Proofs.Script.TypeRuns
import Waymark.Proofs.Script.Found
import Waymark.Proofs.Script.Statements
import Waymark.Proofs.Script.TakenOut
import Waymark.Proofs.Script.KeptLines
import Waymark.Proofs.Build.Unwatched
import Waymark.Proofs.Stylesheet.Bundled
import Waymark.Proofs.Stylesheet.Cascade
import Waymark.Proofs.Stylesheet.Literals
import Waymark.Proofs.ImportMap
import Waymark.Proofs.Url.Joined
import Waymark.Proofs.Script.Unversioned
import Waymark.Proofs.Stylesheet.Exported
import Waymark.Proofs.Stylesheet.Minified
import Waymark.Proofs.Script.Confined
import Waymark.Proofs.Script.ExportLines
import Waymark.Proofs.Script.ExportNames
import Waymark.Proofs.Bundle.Registered
import Waymark.Proofs.Url.Plain
import Waymark.Proofs.Build.Linked
import Waymark.Proofs.Listen
import Waymark.Proofs.Shutdown
