import ParcelDelivery.System
import ParcelDelivery.Table
import ParcelDelivery.Process
import ParcelDelivery.AuthStore
import ParcelDelivery.AuthService
import ParcelDelivery.AuthRuns
import ParcelDelivery.LinkedChain
import ParcelDelivery.TokenFamily
import ParcelDelivery.AuthContracts
import ParcelDelivery.AuthPool
import ParcelDelivery.RefreshRace
import ParcelDelivery.RevocationRace
import ParcelDelivery.DecimalArith
import ParcelDelivery.ParcelStore
import ParcelDelivery.PricingJob
import ParcelDelivery.JobLock
import ParcelDelivery.PricingCount
import ParcelDelivery.PricingRace
import ParcelDelivery.PricingRuns
import ParcelDelivery.Uuid
import ParcelDelivery.ParcelDb
import ParcelDelivery.ParcelService
import ParcelDelivery.JsonText
import ParcelDelivery.ExpiringStore
import ParcelDelivery.ParcelSchemas
import ParcelDelivery.CallerIdentity
import ParcelDelivery.ParcelRuns
import ParcelDelivery.ParcelApi
import ParcelDelivery.CacheIsolation
import ParcelDelivery.ParcelVisibility
import ParcelDelivery.DecimalValue
import ParcelDelivery.DecimalRounding
import ParcelDelivery.DecimalDigits
import ParcelDelivery.ParcelAdmission
import ParcelDelivery.ParcelOwnership
import ParcelDelivery.CachedResponses
import ParcelDelivery.Faults
import ParcelDelivery.WriteAtomicity
import ParcelDelivery.RegisterRace
import ParcelDelivery.Credentials
import ParcelDelivery.PriceRange
import ParcelDelivery.PricingStarvation
import ParcelDelivery.JobTimers
import ParcelDelivery.DecimalText
import ParcelDelivery.RateCache
import ParcelDelivery.BrowserSessions
import ParcelDelivery.Paging
import ParcelDelivery.ParcelPages
import ParcelDelivery.ExactPricing
import ParcelDelivery.RequestGuards
import ParcelDelivery.AccessTokens
import ParcelDelivery.RecalcCounter
import ParcelDelivery.SessionIds
import ParcelDelivery.FixedWindow
import ParcelDelivery.RateLimit
import ParcelDelivery.ParcelTypeApi
import ParcelDelivery.Service
import ParcelDelivery.ServiceProjections
import ParcelDelivery.ShownParcels
import ParcelDelivery.ServiceGuarantees
