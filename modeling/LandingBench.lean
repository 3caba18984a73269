import LandingBench.Addresses
import LandingBench.Arrival
import LandingBench.Config
import LandingBench.Payload
import LandingBench.Rejections
import LandingBench.Statistics
import LandingBench.Tag
import LandingBench.Winners
import LandingBench.Wakeups
import LandingBench.System.Attribution
import LandingBench.System.Observer
import LandingBench.System.Race
import LandingBench.System.Results
import LandingBench.System.RoundIds
import LandingBench.System.Rounds
import LandingBench.System.Rows
import LandingBench.System.Shutdown
import LandingBench.System.Waits
import LandingBench.System.Wire
import LandingBench.System.Verdict
import LandingBench.System.Pipeline
import LandingBench.System.Cutoff
import LandingBench.System.Turns
import LandingBench.System.Signatures
import LandingBench.System.Measured
import LandingBench.System.Pacing
import LandingBench.System.Deadline
import LandingBench.System.Exact
import LandingBench.Startup
import LandingBench.Subscription
import LandingBench.Render
import LandingBench.System.Strangers
