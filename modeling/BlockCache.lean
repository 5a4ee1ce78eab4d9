import BlockCache.Cancellation
import BlockCache.Lock.Session
import BlockCache.Host.Session
import BlockCache.Proofs.Authority
import BlockCache.Proofs.BlockMaps
import BlockCache.Proofs.ChainWalks
import BlockCache.Proofs.Commuting
import BlockCache.Proofs.Content
import BlockCache.Proofs.Counters
import BlockCache.Proofs.Exhaustion
import BlockCache.Proofs.FailedReads
import BlockCache.Proofs.Faults
import BlockCache.Proofs.HitLaw
import BlockCache.Proofs.Host.Breakdown
import BlockCache.Proofs.Interference
import BlockCache.Proofs.LockSafety
import BlockCache.Proofs.NewCaches
import BlockCache.Proofs.Packing
import BlockCache.Proofs.Refusals
import BlockCache.Proofs.Representation
import BlockCache.Proofs.Residence
import BlockCache.Proofs.RingLists
import BlockCache.Proofs.RingOrder
import BlockCache.Proofs.Selection
import BlockCache.Proofs.Trace
import BlockCache.Proofs.Transparency
import BlockCache.Proofs.Visits
import BlockCache.Proofs.Wakeups
