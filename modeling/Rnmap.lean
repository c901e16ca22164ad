import Rnmap.OnesComplement
import Rnmap.Bytes
import Rnmap.Text
import Rnmap.Addr
import Rnmap.Result
import Rnmap.Checksum
import Rnmap.Ipv4Header
import Rnmap.SynPacket
import Rnmap.ConnectScan
import Rnmap.IcmpPing
import Rnmap.SynScan
import Rnmap.Runs
import Rnmap.HostLoop
import Rnmap.ScanAgreement
import Rnmap.SynIsolation
import Rnmap.SortedSet
import Rnmap.ClassRegex
import Rnmap.Ports
import Rnmap.Service
import Rnmap.BannerEvidence
import Rnmap.Report
import Rnmap.XmlOutput
import Rnmap.NormalOutput
import Rnmap.AddrParse
import Rnmap.Xml
import Rnmap.XmlDocument
import Rnmap.JsonOutput
import Rnmap.RenderAgreement
import Rnmap.Hostnames
import Rnmap.CliArgs
import Rnmap.SynAnswer
import Rnmap.Greetings
import Rnmap.ServerHeader
import Rnmap.ProductVersion
import Rnmap.Retries
import Rnmap.ShortHeader
import Rnmap.TcpPing
import Rnmap.TopPorts
import Rnmap.AddrSyntax
import Rnmap.Ipv4Net
import Rnmap.Ranges
import Rnmap.HostLookup
import Rnmap.LiteralNames
import Rnmap.OutputFiles
import Rnmap.ReadBack
import Rnmap.EmptyParts
import Rnmap.JsonDocument
import Rnmap.Contacts
import Rnmap.CleanStreams
import Rnmap.CallParts
import Rnmap.LostProbes
import Rnmap.OpenPorts
import Rnmap.OutputFormats
import Rnmap.StrategyReports
