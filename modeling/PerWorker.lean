import PerWorker.Main
import PerWorker.Config.Json
import PerWorker.Scenario.Rehearsal
import PerWorker.Shutdown.Timeline
import PerWorker.Specimen
import PerWorker.Proofs.Lifecycle.Linearization
import PerWorker.Proofs.Lifecycle.Overtaking
import PerWorker.Proofs.Lifecycle.Discards
import PerWorker.Proofs.Lifecycle.Snapshots
import PerWorker.Proofs.Lifecycle.Directory
import PerWorker.Proofs.Lifecycle.Mishaps
import PerWorker.Proofs.Lifecycle.Isolation
import PerWorker.Proofs.Lifecycle.Emptying
import PerWorker.Proofs.Lifecycle.Chronicle
import PerWorker.Proofs.Lifecycle.Endings
import PerWorker.Proofs.Lifecycle.Occupancy
import PerWorker.Proofs.Pipeline.Summary
import PerWorker.Proofs.Session.Exits
import PerWorker.Proofs.Enricher.Conduct
import PerWorker.Proofs.Enricher.Texts
import PerWorker.Proofs.Shutdown.Wakeups
import PerWorker.Proofs.Pipeline.Reuse
