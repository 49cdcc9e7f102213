import Bundling.Main
import Bundling.Proofs.AfterRelease
import Bundling.Proofs.AgeChecks
import Bundling.Proofs.Agreement
import Bundling.Proofs.Backlog
import Bundling.Proofs.BundleLife
import Bundling.Proofs.BundleReading
import Bundling.Proofs.Cancellation
import Bundling.Proofs.CountThreshold
import Bundling.Proofs.Custody
import Bundling.Proofs.Emissions
import Bundling.Proofs.Exclusion
import Bundling.Proofs.Expiry
import Bundling.Proofs.FullRelease
import Bundling.Proofs.JobParameters
import Bundling.Proofs.LastBundle
import Bundling.Proofs.ParameterArguments
import Bundling.Proofs.Precedence
import Bundling.Proofs.ResultCount
import Bundling.Proofs.SizeBound
import Bundling.Proofs.Startup
import Bundling.Proofs.SubmitFailure
import Bundling.Proofs.Tasks
import Bundling.Proofs.Variables
import Bundling.Tally.Data
