import TeamTalk.DbProxy.GroupInfos
import TeamTalk.FileServer.Begins
import TeamTalk.MsgServer.Acts
import TeamTalk.MsgServer.DBServConn
import TeamTalk.MsgServer.Registry
import TeamTalk.MsgServer.UserMaps
import TeamTalk.Theorems.ApnsFrames
import TeamTalk.Theorems.AttachData
import TeamTalk.Theorems.Base64Copies
import TeamTalk.Theorems.BaseSocket
import TeamTalk.Theorems.BestServer
import TeamTalk.Theorems.Blocks
import TeamTalk.Theorems.ByteQueue
import TeamTalk.Theorems.CacheConns
import TeamTalk.Theorems.CacheThreads
import TeamTalk.Theorems.ClientUploads
import TeamTalk.Theorems.Codecs
import TeamTalk.Theorems.Config
import TeamTalk.Theorems.Confinement
import TeamTalk.Theorems.ContactSync
import TeamTalk.Theorems.Counters
import TeamTalk.Theorems.Deadlock
import TeamTalk.Theorems.Delivery
import TeamTalk.Theorems.Directories
import TeamTalk.Theorems.Dispatch
import TeamTalk.Theorems.Downloads
import TeamTalk.Theorems.Feedback
import TeamTalk.Theorems.Framing
import TeamTalk.Theorems.Gate
import TeamTalk.Theorems.GroupChange
import TeamTalk.Theorems.GroupSync
import TeamTalk.Theorems.HeaderCapture
import TeamTalk.Theorems.HeaderLoads
import TeamTalk.Theorems.Headers
import TeamTalk.Theorems.HttpSends
import TeamTalk.Theorems.Identity
import TeamTalk.Theorems.ImConnSends
import TeamTalk.Theorems.Infos
import TeamTalk.Theorems.Insiders
import TeamTalk.Theorems.Kicks
import TeamTalk.Theorems.Links
import TeamTalk.Theorems.Loads
import TeamTalk.Theorems.LoginConns
import TeamTalk.Theorems.LoginLimits
import TeamTalk.Theorems.LoginStatus
import TeamTalk.Theorems.Marks
import TeamTalk.Theorems.MasterConns
import TeamTalk.Theorems.Members
import TeamTalk.Theorems.Memfind
import TeamTalk.Theorems.OfflineFiles
import TeamTalk.Theorems.OneCommand
import TeamTalk.Theorems.Outages
import TeamTalk.Theorems.Paging
import TeamTalk.Theorems.PcLogin
import TeamTalk.Theorems.Pools
import TeamTalk.Theorems.PullState
import TeamTalk.Theorems.PushFlash
import TeamTalk.Theorems.PushReader
import TeamTalk.Theorems.Reads
import TeamTalk.Theorems.RecentSessions
import TeamTalk.Theorems.Registry
import TeamTalk.Theorems.Responses
import TeamTalk.Theorems.Retrieval
import TeamTalk.Theorems.RingBuffer
import TeamTalk.Theorems.SendList
import TeamTalk.Theorems.Sending
import TeamTalk.Theorems.ServInfo
import TeamTalk.Theorems.Sessions
import TeamTalk.Theorems.Statements
import TeamTalk.Theorems.StrExplode
import TeamTalk.Theorems.StreamReads
import TeamTalk.Theorems.SyncRestart
import TeamTalk.Theorems.Teardown
import TeamTalk.Theorems.ThreadPool
import TeamTalk.Theorems.Timers
import TeamTalk.Theorems.Tokens
import TeamTalk.Theorems.UnreadCounts
import TeamTalk.Theorems.Updates
import TeamTalk.Theorems.UploadScan
import TeamTalk.Theorems.Uploads
import TeamTalk.Theorems.UrlCoding
import TeamTalk.Theorems.UserTable
import TeamTalk.Theorems.Voices
import TeamTalk.Theorems.WholeUploads
import TeamTalk.Theorems.Workers
