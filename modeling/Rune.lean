import Rune.Models.Rollout.Convergence
import Rune.Models.Rollout.WarmFleet
import Rune.Models.Rollout.Stall
import Rune.Models.Rollout.Retention
import Rune.Models.OrderedLog.Delivery
import Rune.Models.Gpu.Overcommit
import Rune.Models.Cast.Ownership
import Rune.Models.Cast.Atomic
import Rune.Models.Cast.Uninstall
import Rune.Models.Cast.Generations
import Rune.Models.Volumes.Recast
import Rune.Models.Volumes.Reclaim
import Rune.Models.Volumes.Provision
import Rune.Models.Volumes.Echo
import Rune.Models.Volumes.Defaults
import Rune.Models.Services.Currency
import Rune.Models.Services.Deletion
import Rune.Models.Services.Teardown
import Rune.Models.Stateful.ScaleDown
import Rune.Models.Stateful.Exclusive
import Rune.Models.Dataplane.Replay
import Rune.Models.Store.Order
import Rune.Models.Store.Listing
import Rune.Models.Dataplane.PolicyTrack
import Rune.Models.Scaling.LastWins
import Rune.Models.Scaling.Finished
import Rune.Models.Endpoints.Withdraw
import Rune.Models.Workqueue.Progress
import Rune.Models.Vip.Leak
import Rune.Models.Vip.Capacity
import Rune.Models.Forwarder.Spool
import Rune.Models.Health.Backoff
import Rune.Models.Health.Monitors
import Rune.Models.Session.Revocation
import Rune.Models.Authz.Authorizer
import Rune.Models.Acme.Reissue
import Rune.Models.Ingress.Server
import Rune.Models.Services.Proto
import Rune.Models.Snapshots.Controller
import Rune.Models.Disks.Names
import Rune.Models.Mounts.Table
import Rune.Models.Observe.Windowed
import Rune.Models.LogStore.Sweep
