import EventsCounter.MonitorAlerts
import EventsCounter.Pipeline
import EventsCounter.MonitorInterval
import EventsCounter.PublishSchedule
import EventsCounter.KafkaClients
import EventsCounter.TimerConfig
import EventsCounter.Lib.InSitu
import EventsCounter.CounterMessageText
import EventsCounter.Cluster
import EventsCounter.CounterMessages
import EventsCounter.EventAttribution
import EventsCounter.CounterThreads
import EventsCounter.CounterShutdown
import EventsCounter.MonitorBudget
import EventsCounter.MonitorWindow
import EventsCounter.ClusterBound
import EventsCounter.Fleet
import EventsCounter.MonitorAlertText
import EventsCounter.Wire
import EventsCounter.PublishFreshness
import EventsCounter.Leadership
import EventsCounter.Startup
import EventsCounter.ConfigOutputs
import EventsCounter.Program
import EventsCounter.ProgramProgress
