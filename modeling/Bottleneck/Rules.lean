/-!
The rule tables: which series make up a pool's usage, which histogram holds request latencies, and
from where on a figure is an issue. Every table is tried from the front, so an added entry never
takes precedence over one that was there before.
-/

namespace Bottleneck

/-- Usage above this percentage is an issue. -/
def warnUsagePercent : Float := 80.0

/-- Usage at or above this percentage is a severe issue. -/
def highUsagePercent : Float := 90.0

/-- A p95 above this multiple of the p50 is a latency tail. -/
def tailRatio : Float := 3.0

/-- Patterns for the two series of one kind of pool: how much is in use, and of how much. -/
structure PoolPattern where
  current : String
  max : String
deriving DecidableEq, Repr

/-- The pair as a report names it. -/
def PoolPattern.label (p : PoolPattern) : String := p.current ++ "/" ++ p.max

structure Rules where
  threadPool : List PoolPattern
  connectionPool : List PoolPattern
  latencyHistograms : List String
deriving DecidableEq, Repr

namespace Rules

/-- The tables that are always there. Dotted names come before those with underscores. -/
def builtIn : Rules where
  threadPool :=
    [⟨"tomcat.threads.busy", "tomcat.threads.max"⟩,
      ⟨"tomcat_threads_busy", "tomcat_threads_max"⟩,
      ⟨"thread_pool_active", "thread_pool_max"⟩,
      ⟨"threads_active", "threads_max"⟩]
  connectionPool :=
    [⟨"hikaricp.connections.active", "hikaricp.connections.max"⟩,
      ⟨"hikaricp_connections_active", "hikaricp_connections_max"⟩,
      ⟨"db_connections_active", "db_connections_max"⟩,
      ⟨"connection_pool_active", "connection_pool_max"⟩,
      ⟨"datasource_active", "datasource_max"⟩]
  latencyHistograms :=
    ["http_request_duration_seconds_bucket",
      "http_server_request_duration_seconds_bucket",
      "http_client_request_duration_seconds_bucket",
      "request_duration_seconds_bucket"]

/-- Each table of the extension follows the table it extends. -/
def extend (rules extension : Rules) : Rules where
  threadPool := rules.threadPool ++ extension.threadPool
  connectionPool := rules.connectionPool ++ extension.connectionPool
  latencyHistograms := rules.latencyHistograms ++ extension.latencyHistograms

end Rules

end Bottleneck
