import Awiki.AcpDelivery
import Awiki.AcpPausedTasks
import Awiki.BaselineFence
import Awiki.BindingEvolution
import Awiki.BootstrapPositions
import Awiki.DecimalArithmetic
import Awiki.GroupPositions
import Awiki.HistoryPages
import Awiki.InboundBacklog
import Awiki.JoinManagementRuns
import Awiki.JoinNotifications
import Awiki.LaneHandoff
import Awiki.MarkReadSummaries
import Awiki.MessageMerge
import Awiki.ProcessingSlots
import Awiki.ReadOutboxRuns
import Awiki.ReadWatermarks
import Awiki.ReceiveCursorChain
import Awiki.SummaryRefinement
import Awiki.SyncCoordinator
import Awiki.SyncDispatcher
import Awiki.TaskRecordPages
import Awiki.ThreadBindings
