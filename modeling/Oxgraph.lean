import Oxgraph.Proofs.Db.Database.Handles
import Oxgraph.Proofs.Db.Corruption
import Oxgraph.Proofs.Snapshot.Patch
import Oxgraph.Proofs.Bcsr.Weights
import Oxgraph.Proofs.Postgres.SyncLog
import Oxgraph.Proofs.Postgres.Sync
import Oxgraph.Proofs.Postgres.Converse
import Oxgraph.Proofs.Db.Query.Plan
import Oxgraph.Proofs.Db.Traversal.Induced
import Oxgraph.Proofs.Db.Database.Neighbors
import Oxgraph.Proofs.Db.Database.Rerun
import Oxgraph.Proofs.Algo.Ball
import Oxgraph.Proofs.Algo.LongestPath
import Oxgraph.Proofs.Algo.Scc
import Oxgraph.Proofs.Algo.PageRank.Conserves
import Oxgraph.Proofs.Db.Projection.Directed
import Oxgraph.Proofs.Daemon.Request
import Oxgraph.Proofs.Db.Database.Fingerprint
import Oxgraph.Proofs.Property.Aligned
import Oxgraph.Proofs.Property.Weights
import Oxgraph.Proofs.Property.Accepted
import Oxgraph.Proofs.Db.Database.Runs
import Oxgraph.Proofs.Db.Index
