import Sncpp.Co
import Sncpp.CoLock
import Sncpp.FilterList
import Sncpp.Store
import Sncpp.CoTriple
import Sncpp.StoreLast
import Sncpp.StoreDrain
import Sncpp.CoDesk
import Sncpp.StoreSq
import Sncpp.CoSolo
import Sncpp.StoreKid
import Sncpp.StoreLogout
import Sncpp.Backpack
import Sncpp.BackpackMerge
import Sncpp.BackpackAdd
import Sncpp.BackpackUse
import Sncpp.BackpackRep
import Sncpp.AgentPool
import Sncpp.CoPlain
import Sncpp.AgentPoolRun
import Sncpp.CoRely
import Sncpp.CoWatch
import Sncpp.AgentPoolMove
import Sncpp.Centre
import Sncpp.Gate
import Sncpp.GateMaps
import Sncpp.GateReplay
import Sncpp.GateStale
import Sncpp.Mail
import Sncpp.MailCount
import Sncpp.MailRecount
import Sncpp.Player
import Sncpp.MailService
import Sncpp.MailKeep
import Sncpp.MailClaim
import Sncpp.MailShare
import Sncpp.MailShareLoad
import Sncpp.MailShareRun
import Sncpp.MailBody
import Sncpp.CoOwn
import Sncpp.Trade
import Sncpp.TradeKeep
import Sncpp.TradeSale
import Sncpp.Steps
import Sncpp.Aoi
import Sncpp.MapAoi
import Sncpp.MapView
import Sncpp.MapMirror
import Sncpp.Line
import Sncpp.QueueAoi
import Sncpp.QueueBind
import Sncpp.QueueView
import Sncpp.Battle
import Sncpp.BattleLife
import Sncpp.BattleFd
import Sncpp.BattleFrame
import Sncpp.Heap
import Sncpp.AStar
import Sncpp.AStarRun
import Sncpp.AStarEnds
import Sncpp.AStarPath
import Sncpp.KeyMap
import Sncpp.Railways
import Sncpp.WordFilter
import Sncpp.WordFilterMask
import Sncpp.WordFilterTrie
import Sncpp.WordFilterFind
import Sncpp.WordFilterWords
import Sncpp.Conhash
import Sncpp.Account
import Sncpp.AccountOne
import Sncpp.AccountKid
import Sncpp.AccountMove
import Sncpp.ClosureQueue
import Sncpp.Zset
import Sncpp.Scheduler
import Sncpp.SchedulerRun
import Sncpp.TimerMgr
import Sncpp.TimerMgrRun
import Sncpp.AllianceMgr
import Sncpp.RedisLock
import Sncpp.ChatCtrl
import Sncpp.ChatFriends
import Sncpp.ChatRoom
import Sncpp.ChatTalk
import Sncpp.TerrBuild
import Sncpp.TerrBuildRun
import Sncpp.Index
import Sncpp.PlayerCity
import Sncpp.PlayerCityRun
import Sncpp.StoreStop
import Sncpp.MemCache
import Sncpp.BackpackCmd
import Sncpp.Replay
import Sncpp.BackpackNotify
import Sncpp.MailEvict
import Sncpp.MailExpire
import Sncpp.MailOneKey
import Sncpp.Sweep
import Sncpp.AliveGb
import Sncpp.ServerStop
import Sncpp.PlayerDataTimer
import Sncpp.LoginMaster
import Sncpp.OwnRef
import Sncpp.QueueIndex
import Sncpp.FriendAid
import Sncpp.Dfs
import Sncpp.ZoneConnect
import Sncpp.DropLimit
import Sncpp.EventCtrlRun
import Sncpp.CondMgr
import Sncpp.CondMgrRun
import Sncpp.MapAttr
import Sncpp.MapAttrRun
import Sncpp.WordFilterAgree
import Sncpp.Buff
import Sncpp.BuffRun
import Sncpp.Flood
import Sncpp.TerrAct
import Sncpp.TerrActRun
import Sncpp.WordFilterAdd
import Sncpp.WordFilterSound
import Sncpp.WordFilterUndo
import Sncpp.WordFilterInverse
import Sncpp.ShareMailMgr
import Sncpp.CompTransaction
import Sncpp.MultiProc
import Sncpp.TokenBucket
import Sncpp.ConsistentHash
import Sncpp.TimeSpan
import Sncpp.MultiSpan
import Sncpp.RankList
import Sncpp.MapGrids
import Sncpp.ChatHistory
import Sncpp.Annouce
import Sncpp.Slaves
import Sncpp.MonsterMgr
import Sncpp.Links
import Sncpp.LruCache
import Sncpp.LinkList
import Sncpp.TimerList
import Sncpp.TimerListRun
import Sncpp.MinHeap
import Sncpp.RelevanceTable
import Sncpp.FilterQueue
import Sncpp.GridLine
import Sncpp.Ranks
import Sncpp.TableMonitor
import Sncpp.TableReal
import Sncpp.TableMonitorRun
import Sncpp.Gsub
import Sncpp.EncodeURL
import Sncpp.FindPathRun
import Sncpp.MsgQueue
import Sncpp.Dispatch
import Sncpp.TimingWheel
import Sncpp.Netpack
import Sncpp.Handle
