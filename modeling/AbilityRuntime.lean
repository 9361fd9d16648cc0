import AbilityRuntime.DataObs.Inner
import AbilityRuntime.DataObs.WireLimit
import AbilityRuntime.Startup.Manager
import AbilityRuntime.Startup.DispatchProgress
import AbilityRuntime.UriPerm.Storage
import AbilityRuntime.JsEnv.SourceMapFind
import AbilityRuntime.JsEnv.SourceMapText
import AbilityRuntime.AbilityMgr.MissionPersistence
import AbilityRuntime.AbilityMgr.WaitingQueue
import AbilityRuntime.AbilityMgr.MissionLimits
import AbilityRuntime.AppMgr.CacheProcessManager
import AbilityRuntime.AbilityMgr.ConnectLifecycle
import AbilityRuntime.AbilityMgr.ServiceKeys
import AbilityRuntime.AbilityMgr.StartQueue
import AbilityRuntime.AbilityMgr.ConnectionHistory
import AbilityRuntime.AppMgr.ForegroundStates
import AbilityRuntime.AppMgr.RenderProcesses
import AbilityRuntime.AppMgr.SpecifiedStarts
import AbilityRuntime.AppMgr.AppStateNotices
import AbilityRuntime.AbilityMgr.CallerResults
import AbilityRuntime.AbilityMgr.PendingWantManager
import AbilityRuntime.Common.TaskHandlerWrap
import AbilityRuntime.QuickFix.ApplyTimeouts
import AbilityRuntime.AbilityMgr.FreeInstallCleanup
import AbilityRuntime.AbilityMgr.DataAbilityManager
import AbilityRuntime.AbilityMgr.SpecifiedQueue
import AbilityRuntime.AbilityMgr.SpecifiedReuse
import AbilityRuntime.AbilityMgr.SessionSettling
import AbilityRuntime.AbilityMgr.SessionTermination
import AbilityRuntime.AbilityMgr.ReservedLinks
import AbilityRuntime.AbilityMgr.RecoverInfos
import AbilityRuntime.AppMgr.AppDebugManager
import AbilityRuntime.AbilityMgr.StartAbilitySandboxSavefile
import AbilityRuntime.AbilityMgr.ExtensionRecordManager
import AbilityRuntime.Ability.ConnectionManager
import AbilityRuntime.AppKit.AppfreezeInner
import AbilityRuntime.AbilityMgr.UriUtils
import AbilityRuntime.AppKit.Watchdog
import AbilityRuntime.AbilityMgr.PreloadUIExtensions
