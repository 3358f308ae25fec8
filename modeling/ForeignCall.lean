import ForeignCall.Profile.Session
import ForeignCall.Proofs.Admission
import ForeignCall.Proofs.Assertions
import ForeignCall.Proofs.Cache.History
import ForeignCall.Proofs.Cache.Locks
import ForeignCall.Proofs.Cache.Threads
import ForeignCall.Proofs.Census
import ForeignCall.Proofs.Codec
import ForeignCall.Proofs.Density
import ForeignCall.Proofs.Growth
import ForeignCall.Proofs.Ladder
import ForeignCall.Proofs.Loads
import ForeignCall.Proofs.Marshalling
import ForeignCall.Proofs.Naming
import ForeignCall.Proofs.Nesting
import ForeignCall.Proofs.Profile.Disposal
import ForeignCall.Proofs.Profile.Labels
import ForeignCall.Proofs.Profile.Matching
import ForeignCall.Proofs.Profile.Observed
import ForeignCall.Proofs.Profile.Spans
import ForeignCall.Proofs.Profile.Symbols
import ForeignCall.Proofs.Reading
import ForeignCall.Proofs.Sharing
import ForeignCall.Proofs.Tracing
