import AccountService.ActiveJobs
import AccountService.CapacityAccounting
import AccountService.CapacityGate
import AccountService.CapacityLimit
import AccountService.CapacityRetry
import AccountService.CatchUp
import AccountService.Deliveries
import AccountService.EventAttribution
import AccountService.Finality
import AccountService.GapFreeScan
import AccountService.HandleText
import AccountService.HealthTimer
import AccountService.HealthVerdict
import AccountService.LeastNonce
import AccountService.MsaIdLookup
import AccountService.NonceReservation
import AccountService.Notifications
import AccountService.PoisonBlock
import AccountService.Provenance
import AccountService.QueuePause
import AccountService.RedisWatch
import AccountService.Removal
import AccountService.RequestQueue
import AccountService.ScanLock
import AccountService.ScanProgress
import AccountService.Submission
import AccountService.ValidityWindow
import AccountService.WatchListConservation
import AccountService.WatchTexts
import AccountService.WebhookCallback
import AccountService.WebhookServer
import AccountService.Whole
