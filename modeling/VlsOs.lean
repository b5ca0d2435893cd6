import VlsOs.Schemes.Run
import VlsOs.Schemes.Ring
import VlsOs.Schemes.Table
import VlsOs.Schemes.Blocks
import VlsOs.Schemes.Trace
import VlsOs.Schemes.OnesComplement
import VlsOs.Schemes.History
import VlsOs.Schemes.Stack
import VlsOs.Schemes.Nibbles
import VlsOs.Schemes.Numerals
import VlsOs.Schemes.Bubble
import VlsOs.Libc.String
import VlsOs.Libc.Itoa
import VlsOs.Kernel.Memory
import VlsOs.Kernel.Ipc
import VlsOs.Kernel.Pipe
import VlsOs.Kernel.Queue
import VlsOs.Kernel.QueueFaults
import VlsOs.Kernel.Process
import VlsOs.Kernel.Scheduler
import VlsOs.Kernel.ProcessTable
import VlsOs.Kernel.ProcessCount
import VlsOs.Kernel.ProcessSlots
import VlsOs.Kernel.RoundRobin
import VlsOs.Kernel.TimeSlice
import VlsOs.Kernel.Interrupts
import VlsOs.Kernel.Pit
import VlsOs.Kernel.Filesystem
import VlsOs.Kernel.Fat
import VlsOs.Kernel.FileRead
import VlsOs.Kernel.FileRun
import VlsOs.Kernel.FileSeek
import VlsOs.Kernel.SeekEnds
import VlsOs.Kernel.FileErrors
import VlsOs.Kernel.DamagedChain
import VlsOs.Kernel.Directory
import VlsOs.Kernel.FailedInit
import VlsOs.Kernel.Disk
import VlsOs.Kernel.TaskFile
import VlsOs.Kernel.ClusterIo
import VlsOs.Kernel.ClusterAlloc
import VlsOs.Kernel.Vga
import VlsOs.Kernel.Terminal
import VlsOs.Utils.Syscall
import VlsOs.Utils.Descriptors
import VlsOs.Utils.OpenFiles
import VlsOs.Utils.ReadCount
import VlsOs.Utils.Handler
import VlsOs.Utils.Search
import VlsOs.Net.Wire
import VlsOs.Net.Receive
import VlsOs.Net.Inside
import VlsOs.Net.Send
import VlsOs.Net.Encapsulation
import VlsOs.Net.Checksum
import VlsOs.Net.InternetChecksum
import VlsOs.Net.ArpCache
import VlsOs.Net.ArpNetwork
import VlsOs.Net.Dns
import VlsOs.Net.DnsResponse
import VlsOs.Net.DnsEcho
import VlsOs.Net.DnsNames
import VlsOs.Net.DnsBounds
import VlsOs.Net.Dhcp
import VlsOs.Net.DhcpScan
import VlsOs.Net.HttpClient
import VlsOs.Net.HttpResponse
import VlsOs.Net.HttpBounds
import VlsOs.Net.Socket
import VlsOs.Net.SocketTable
import VlsOs.Net.ClosedSocket
import VlsOs.Net.SocketBuffers
import VlsOs.Net.SendLengths
import VlsOs.Net.Driver
import VlsOs.Net.Services
import VlsOs.Net.ServiceSockets
import VlsOs.Net.ServiceRuns
import VlsOs.Net.AddressText
import VlsOs.Net.AddressForm
import VlsOs.Net.HttpGet
import VlsOs.Net.Commands
import VlsOs.Net.DisplayBuffers
import VlsOs.Net.Urls
import VlsOs.Shell.Console
import VlsOs.Shell.Display
import VlsOs.Shell.Tokens
import VlsOs.Shell.Input
import VlsOs.Ui.Content
import VlsOs.Ui.Lines
import VlsOs.Ui.Header
import VlsOs.Kernel.QueueTable
import VlsOs.Net.HttpServer
import VlsOs.Net.Tcp
import VlsOs.Net.Answers
import VlsOs.Net.System
import VlsOs.Net.Delivery
import VlsOs.Shell.Cat
import VlsOs.Shell.Keyboard
import VlsOs.Kernel.Drives
import VlsOs.Shell.Commands
import VlsOs.Shell.TextInterface
import VlsOs.Shell.Os
import VlsOs.Net.Switches
import VlsOs.Shell.Session
import VlsOs.Kernel.Glyphs
import VlsOs.Shell.Desk
import VlsOs.Kernel.AtaDrive
import VlsOs.Kernel.Exceptions
