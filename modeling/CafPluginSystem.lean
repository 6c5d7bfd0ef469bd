import CafPluginSystem.Redis.LoadAfterSave
import CafPluginSystem.Sql.Signature
import CafPluginSystem.Sql.ExactlyOnce
import CafPluginSystem.Sql.Barrier
import CafPluginSystem.Document.Queue
import CafPluginSystem.Shutdown.StopOrder
import CafPluginSystem.Script.Host
import CafPluginSystem.Plugin.Access
import CafPluginSystem.Plugin.Cycles
import CafPluginSystem.Bridge.PythonClient
import CafPluginSystem.Pomelo.Gate
import CafPluginSystem.Pomelo.Fragments
import CafPluginSystem.Pomelo.Delivery
import CafPluginSystem.Pomelo.Retained
import CafPluginSystem.Redis.Increments
import CafPluginSystem.Mongo.Increments
import CafPluginSystem.Checkpoint.Crashes
import CafPluginSystem.Ops.Staging
import CafPluginSystem.EntityStore.Batches
import CafPluginSystem.Plugin.ResolveDependencies
