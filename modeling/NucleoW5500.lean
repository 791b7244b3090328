import NucleoW5500.ReceiverSafety
import NucleoW5500.Resync
import NucleoW5500.Delivery
import NucleoW5500.FileTransfer
import NucleoW5500.Disclosure
import NucleoW5500.CloseWait
import NucleoW5500.Isolation
import NucleoW5500.SmallFile
import NucleoW5500.FragmentParsing
import NucleoW5500.Leaks
import NucleoW5500.StaleTransfer
import NucleoW5500.Queue
import NucleoW5500.ChecksumGate
import NucleoW5500.Datagrams
import NucleoW5500.Requests
import NucleoW5500.Timing
import NucleoW5500.Token
import NucleoW5500.Verifier
import NucleoW5500.Discarding
import NucleoW5500.Commands
import NucleoW5500.Console
import NucleoW5500.Scan
import NucleoW5500.Uart
import NucleoW5500.FreeList
import NucleoW5500.Cursor
import NucleoW5500.Linked
import NucleoW5500.SockUdp
import NucleoW5500.DhcpSession
