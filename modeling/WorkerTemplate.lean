import WorkerTemplate.Chain.Story
import WorkerTemplate.Concurrent.Audit
import WorkerTemplate.Concurrent.Coherence
import WorkerTemplate.Concurrent.Finality
import WorkerTemplate.Concurrent.Increments
import WorkerTemplate.Concurrent.Locks
import WorkerTemplate.Concurrent.Refusing
import WorkerTemplate.Concurrent.Service
import WorkerTemplate.Concurrent.Solo
import WorkerTemplate.Concurrent.Spending
import WorkerTemplate.Concurrent.Telling
import WorkerTemplate.Concurrent.Trail
import WorkerTemplate.Lifecycle.Conservation
import WorkerTemplate.Lifecycle.Isolation
import WorkerTemplate.Lifecycle.Startup
import WorkerTemplate.Middleware.Allowlist
import WorkerTemplate.Pagination
import WorkerTemplate.Scripts.Generation
import WorkerTemplate.Sequential.Rooms
import WorkerTemplate.Sequential.StatusHistory
import WorkerTemplate.Sequential.Numbering
import WorkerTemplate.Sequential.Representation
import WorkerTemplate.Tasks.Example
