import Apx.CompilerCorrect
import Apx.VmTermination
import Apx.PackRanges
import Apx.NodeBuildErrors
import Apx.ConnectorChanges
import Apx.ReceiverIsolation
import Apx.NodeIdentity
import Apx.FinalizeTerminates
import Apx.PrintParse
import Apx.CompiledRun
import Apx.ProgramFormat
import Apx.EffectiveElement
import Apx.LimitEncoding
import Apx.CompiledSize
import Apx.FilePlacement
import Apx.QueueRoundTrip
import Apx.HeaderCodecs
import Apx.FileLookup
import Apx.Reassembly
import Apx.MapHistory
import Apx.DisconnectRuns
import Apx.SendBuffer
import Apx.InitValueShape
import Apx.InputStream
import Apx.PublishCommand
import Apx.PortWriteCallbacks
import Apx.PortWrite
import Apx.ResourceName
import Apx.PortAttributeGrammar
import Apx.RoundTrip
import Apx.RecordArrayRoundTrip
import Apx.UnpackRanges
import Apx.ConnectorChangeEntry
import Apx.DeclaredNode
import Apx.ParserHistory
import Apx.ParserIndependence
import Apx.RoutingRuns
import Apx.BuiltSignatures
import Apx.DeclaredServer
import Apx.ValueTransfer
