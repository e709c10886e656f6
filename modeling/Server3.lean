import Server3.PoolRefinement
import Server3.Progress
import Server3.Residency
import Server3.WorkingSet
import Server3.Freshness
import Server3.Retention
import Server3.Failures
import Server3.PathSpelling
import Server3.SequentialRefinement
import Server3.FileLimit
import Server3.Evictions
import Server3.FallthroughUpstream
import Server3.Isolation
import Server3.Classification
import Server3.Oversize
import Server3.StorageLimits
import Server3.MaxAge
import Server3.RouteOrder
import Server3.HostPort
import Server3.EvictionNeed
import Server3.ExactBodies
import Server3.ReadFailure
import Server3.Termination
import Server3.Overshoot
import Server3.LruDiscipline
import Server3.Transparency
import Server3.Births
import Server3.ReadOrder
import Server3.ServiceTransparency
import Server3.ServiceResponses
import Server3.ServiceProgress
import Server3.PoolProgress
import Server3.FileLifetime
import Server3.RefreshSpacing
import Server3.IterationOrder
import Server3.MetricsBalance
import Server3.KeyIndependence
import Server3.FairService
import Server3.FetchBudget
