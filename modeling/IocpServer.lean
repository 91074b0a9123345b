import IocpServer.Config.Startup
import IocpServer.Game.Accounts
import IocpServer.Job.Progress
import IocpServer.Job.Timers
import IocpServer.NetWork.AcceptSlots
import IocpServer.NetWork.Receive
import IocpServer.NetWork.ReceiveLoop
import IocpServer.NetWork.SendCursor
import IocpServer.NetWork.SendRefinement
import IocpServer.NetWork.SendWindow
import IocpServer.Server.ChatAccounting
import IocpServer.Server.ChatOrder
import IocpServer.Server.HeartbeatRefinement
import IocpServer.Server.LogicQueue
import IocpServer.Server.PacketEncoding
import IocpServer.Server.ReceiveRefinement
import IocpServer.Server.Refusal
import IocpServer.Server.Teardown
import IocpServer.Server.Waking
import IocpServer.Server.Whisper
import IocpServer.TestClient.Agreement
import IocpServer.TestClient.Arrival
import IocpServer.TestClient.Delivery
import IocpServer.TestClient.Drained
import IocpServer.TestClient.Ended
import IocpServer.TestClient.LoadTest
import IocpServer.TestClient.LockOrder
import IocpServer.TestClient.Manual
import IocpServer.Tool.PacketGenerator
