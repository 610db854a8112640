import OperationFrontLine.Pool.Deadlock
import OperationFrontLine.Pool.Safety
import OperationFrontLine.Pool.Balance
import OperationFrontLine.Ban.Invariant
import OperationFrontLine.Wire.RoundTrip
import OperationFrontLine.Wire.Routed
import OperationFrontLine.Wire.Hollow
import OperationFrontLine.Wire.Quoting
import OperationFrontLine.Wire.Routes
import OperationFrontLine.Wire.Blank
import OperationFrontLine.Rank.Protocol
import OperationFrontLine.Rank.Publish
import OperationFrontLine.Rank.Season
import OperationFrontLine.Rank.Shop
import OperationFrontLine.Rank.Kills
import OperationFrontLine.Identity.Inverse
import OperationFrontLine.GroupManager.Partition
import OperationFrontLine.Mailbox.Delivery
import OperationFrontLine.Mailbox.Lifetime
import OperationFrontLine.Kits.Return
import OperationFrontLine.Zones.Destroyed
import OperationFrontLine.Tickets.Conservation
import OperationFrontLine.Routing.Addressed
import OperationFrontLine.Vehicles.Slots
import OperationFrontLine.Menus.Cycling
import OperationFrontLine.Menus.Navigation
import OperationFrontLine.Menus.ClassNames
import OperationFrontLine.Zones.Drain
import OperationFrontLine.Zones.Votes
import OperationFrontLine.Zones.Mirrored
import OperationFrontLine.Frames.TaskQueue
import OperationFrontLine.Mailbox.Fifo
import OperationFrontLine.Mailbox.Grow
import OperationFrontLine.Mailbox.Registry
import OperationFrontLine.Scripts.HardKeys
import OperationFrontLine.Wire.Grammar
import OperationFrontLine.Zones.Sizing
import OperationFrontLine.Builds.Steady
import OperationFrontLine.Dates.Setters
import OperationFrontLine.Dates.Moves
