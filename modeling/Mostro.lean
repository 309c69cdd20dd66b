import Mostro.BondResolutions
import Mostro.CapturedEscrows
import Mostro.CashuEscrow
import Mostro.CashuTokenSoundness
import Mostro.CircuitBreaker
import Mostro.CooperativeCancel
import Mostro.DebtClaims
import Mostro.DevFeeOnce
import Mostro.EscrowReferences
import Mostro.EventReplay
import Mostro.FailedPublications
import Mostro.ForfeitWindow
import Mostro.GuardianDueness
import Mostro.HeldMarker
import Mostro.InvoiceSwaps
import Mostro.MigrationReconciliation
import Mostro.NostrFallback
import Mostro.OrderbookRetention
import Mostro.OrderbookStamps
import Mostro.PayoutInvoices
import Mostro.PayoutRetries
import Mostro.PriceFreshness
import Mostro.QueueOrder
import Mostro.RatingQueue
import Mostro.RepublishedOrders
import Mostro.RetakePrices
import Mostro.RobustPrices
import Mostro.SettledEscrow
import Mostro.SlashRecords
import Mostro.StoredOffers
import Mostro.TimeoutRecovery
import Mostro.TradeIndices
import Mostro.VisibleDisputes
