import Kjdmud.Vm.SaveVariable.RoundTrip
import Kjdmud.Vm.SaveVariable.Totality
import Kjdmud.Scheduler.CallOut.Correctness
import Kjdmud.Object.DestructFrame
import Kjdmud.Object.Containment.Runs
import Kjdmud.Net.Socket.Ownership
import Kjdmud.Net.Socket.MudDelivery
import Kjdmud.Net.Socket.Poll.Streams
import Kjdmud.Object.Shadow.Integrity
import Kjdmud.Compiler.CodeGen
import Kjdmud.Compiler.Lowering
import Kjdmud.Lib.StateExcept
import Kjdmud.Efun.Copy.Aliasing
import Kjdmud.Efun.LiveLoops.Law
import Kjdmud.Compiler.IndexedUpdates.Once
import Kjdmud.Compiler.Literals
import Kjdmud.Compiler.SpreadArguments
import Kjdmud.Compiler.Execution.Control
import Kjdmud.Net.WebSocket.Progress
import Kjdmud.Net.Packetization
import Kjdmud.Net.WebSocket.RoundTrip
import Kjdmud.Object.Compile.Flattened
import Kjdmud.Vm.Mappings.Reads
import Kjdmud.Efun.SaveObject.Totality
import Kjdmud.Persist.StateSerializer.Atomicity
import Kjdmud.Vm.Sscanf.Soundness
import Kjdmud.Net.Output
import Kjdmud.Scheduler.Heartbeat.Consistency
import Kjdmud.Efun.ValidPath.Soundness
import Kjdmud.Efun.FileEfuns.Law
import Kjdmud.Efun.Buffers
import Kjdmud.Efun.Explode
import Kjdmud.Efun.Json.RoundTrip
import Kjdmud.Efun.Utf8
import Kjdmud.Efun.Writers.Termination
import Kjdmud.Efun.ParserPackage.Law
import Kjdmud.Efun.ParserPackage.Relations.Outcome
import Kjdmud.Efun.ParserPackage.LoadObjects.Law
import Kjdmud.Object.Snoop.Integrity
import Kjdmud.Object.Actions.Reach
import Kjdmud.Net.Interactive.Integrity
import Kjdmud.Object.LoadedTable.Coherence
import Kjdmud.Security.UidModel.Provenance
import Kjdmud.Efun.ParserPackage.TokenCodes
import Kjdmud.Efun.StringDifference
import Kjdmud.Vm.ExactOperands
import Kjdmud.Object.Light
import Kjdmud.Object.Masking.Transparency
import Kjdmud.Efun.Regex.Splitting
import Kjdmud.Efun.Sprintf.Columns
