import Libbaalue.Serialize.RoundTrip
import Libbaalue.Fiber.Element
import Libbaalue.Foundations.CallMachine
import Libbaalue.Foundations.StopAndWait
import Libbaalue.Fiber.ScheduleProps
import Libbaalue.Net.Datagram
import Libbaalue.Fiber.Server
import Libbaalue.Fiber.Client
import Libbaalue.Fiber.Session
import Libbaalue.Fiber.SessionInvariant
import Libbaalue.Fiber.Agreement
import Libbaalue.Device.Mgmt
import Libbaalue.Foundations.AnonymousAck
import Libbaalue.Device.Session
import Libbaalue.Foundations.FileSystem
import Libbaalue.Helper.PidFile
import Libbaalue.Fiber.Scheduler
import Libbaalue.Helper.PidFileProcesses
import Libbaalue.Fiber.Barrier
import Libbaalue.Fiber.AppliedProps
import Libbaalue.Foundations.CallProgram
import Libbaalue.Foundations.Descriptors
import Libbaalue.Net.Socket
import Libbaalue.Net.Uds
import Libbaalue.Net.Inet
import Libbaalue.Net.Leaks
import Libbaalue.Net.FirstAddress
import Libbaalue.Net.Daytime
import Libbaalue.Net.UdsPath
import Libbaalue.Foundations.UnixSockets
import Libbaalue.Net.StreamMeeting
import Libbaalue.Can.Filter
import Libbaalue.Fiber.Config
import Libbaalue.Foundations.Tokens
import Libbaalue.Can.Strtoul
import Libbaalue.Serialize.Bijection
import Libbaalue.Device.Thread
import Libbaalue.Reactions
import Libbaalue.Fiber.ClientResult
import Libbaalue.Foundations.Memoryless
import Libbaalue.Fiber.Timespec
import Libbaalue.Fiber.TimeGrid
import Libbaalue.Fiber.Loop
import Libbaalue.Foundations.Buffer
import Libbaalue.Foundations.CallReturn
import Libbaalue.Foundations.Lines
import Libbaalue.Helper.ReadLine
import Libbaalue.Helper.ReadLineCalls
import Libbaalue.Can.FilterMemory
import Libbaalue.Can.FilterTokens
import Libbaalue.ShMem.Handle
import Libbaalue.User.Lookup
import Libbaalue.Serialize.Compose
import Libbaalue.Fiber.DecodeFrame
import Libbaalue.Process.TimeSlice
import Libbaalue.Foundations.StringBuffer
import Libbaalue.Log.ErrorCommon
import Libbaalue.Net.FullName
import Libbaalue.Net.Alarm
import Libbaalue.Can.Socket
import Libbaalue.Helper.PidFileRetry
import Libbaalue.Foundations.DescriptorTable
import Libbaalue.Helper.Daemon
import Libbaalue.Foundations.Views
import Libbaalue.Fiber.Clients
import Libbaalue.Fiber.ServedClients
import Libbaalue.Device.Clients
import Libbaalue.Foundations.KeyedUpdates
import Libbaalue.Fiber.SchedTable
import Libbaalue.Foundations.Processes
import Libbaalue.Foundations.PathNames
import Libbaalue.Net.UdsProcesses
import Libbaalue.Foundations.SerialJobs
import Libbaalue.Fiber.Timing
import Libbaalue.Net.DaytimeClients
import Libbaalue.Can.Cyclic
import Libbaalue.Foundations.LossyQueue
import Libbaalue.Can.Inbox
import Libbaalue.Can.Bus
import Libbaalue.Fiber.Application
import Libbaalue.Device.Programs
import Libbaalue.Fiber.UdsApplication
import Libbaalue.Can.ErrorFrames
import Libbaalue.Fiber.Endpoints
