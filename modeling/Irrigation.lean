import Irrigation.Main
import Irrigation.Proofs.Hardware.Deeds
import Irrigation.Proofs.Hardware.Ledger
import Irrigation.Proofs.Hardware.Transfer
import Irrigation.Proofs.Hardware.Moves
import Irrigation.Proofs.Hardware.Release
import Irrigation.Proofs.Worker.Marks
import Irrigation.Proofs.World.Interleaving
import Irrigation.Proofs.World.Turns
import Irrigation.Proofs.World.Job
import Irrigation.Proofs.Hardware.Housing
import Irrigation.Proofs.Worker.Burning
import Irrigation.Proofs.World.Outputs
import Irrigation.Proofs.Worker.Iteration
import Irrigation.Proofs.World.Record
import Irrigation.Proofs.World.Switching
import Irrigation.Proofs.World.Laps
import Irrigation.Proofs.World.Story
import Irrigation.Proofs.World.Telling
import Irrigation.Proofs.Worker.Hurry
import Irrigation.Proofs.Worker.Memory
import Irrigation.Proofs.World.Origins
import Irrigation.Proofs.World.Stopping
import Irrigation.Proofs.World.Calls
import Irrigation.Proofs.Hardware.Claims
import Irrigation.Proofs.Hardware.Phases
import Irrigation.Proofs.Hardware.Rebinding
import Irrigation.Proofs.Hardware.Restoring
import Irrigation.Proofs.Hardware.Handover
import Irrigation.Proofs.Hardware.Conduct
import Irrigation.Proofs.Workshop.Ownership
import Irrigation.Proofs.Workshop.Moving
import Irrigation.Proofs.Project.Codec
import Irrigation.Proofs.Project.Loading
import Irrigation.Proofs.Project.RoundTrip
import Irrigation.Proofs.Project.AllOrNothing
import Irrigation.Proofs.Project.Unbound
import Irrigation.Proofs.Project.Reloading
import Irrigation.Proofs.Worker.Fading
import Irrigation.Proofs.World.SelfEnding
import Irrigation.Proofs.World.OneWorker
import Irrigation.Proofs.World.PressureRelief
import Irrigation.Proofs.Project.Fixing
import Irrigation.Proofs.Project.History
import Irrigation.Proofs.Json.Ordered
import Irrigation.Proofs.Json.Records
import Irrigation.Proofs.Project.Migration
import Irrigation.Proofs.Project.Upgrading
import Irrigation.Proofs.World.OnBoard
import Irrigation.Proofs.Exchange.Readings
import Irrigation.Proofs.Exchange.Trades
import Irrigation.Proofs.Exchange.Holding
import Irrigation.Proofs.Exchange.Standing
import Irrigation.Proofs.Exchange.Seating
import Irrigation.Proofs.Exchange.Rounds
import Irrigation.Proofs.Exchange.Lines
import Irrigation.Proofs.Exchange.Replacing
import Irrigation.Proofs.Console.Encoding
import Irrigation.Proofs.Project.Stability
import Irrigation.Proofs.Service.Clamping
import Irrigation.Proofs.Service.Following
import Irrigation.Proofs.Service.Execution
import Irrigation.Proofs.Hardware.Remembering
import Irrigation.Proofs.Hardware.Bookkeeping
import Irrigation.Proofs.Results
import Irrigation.Proofs.Text.Spelling
import Irrigation.Proofs.Usage.Given
import Irrigation.Proofs.Console.Reading
import Irrigation.Proofs.Json.Showing
import Irrigation.Proofs.Json.Numerals
import Irrigation.Proofs.Json.Cutting
import Irrigation.Proofs.Json.Building
import Irrigation.Proofs.Json.Layout
import Irrigation.Proofs.Project.Formats
import Irrigation.Proofs.Hardware.Labels
import Irrigation.Proofs.Text.Breaks
import Irrigation.Proofs.Hardware.Handling
import Irrigation.Proofs.Text.Rendering
import Irrigation.Proofs.Worker.Notices
import Irrigation.Proofs.Json.Citing
import Irrigation.Proofs.Project.Quoting
import Irrigation.Proofs.Console.Flows
import Irrigation.Proofs.Service.Notices
import Irrigation.Proofs.Program.Sessions
