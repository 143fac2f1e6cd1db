import CGateway.Environment

/-! # The backpressure client

`backpressure_client.c` reads the Router's load from its metrics page, at most once per check
interval. The page itself (`http_get`) is passed in. -/

namespace CGateway

open Bytes CString

/-- `backpressure_status_t`. -/
inductive BackpressureStatus where
  | inactive
  | warning
  | active
  deriving DecidableEq, Repr

/-- `backpressure_client_config_t`; the timeout is read by nobody. -/
structure BackpressureConfig where
  routerMetricsUrl : List UInt8
  checkIntervalSeconds : ℤ

/-- `backpressure_client_parse_config`, from its defaults. -/
def backpressureParseConfig (getenv : Getenv) : BackpressureConfig where
  routerMetricsUrl :=
    (getenv "GATEWAY_ROUTER_METRICS_URL").getD (ascii "http://localhost:8080/_metrics")
  checkIntervalSeconds := envPositive getenv "GATEWAY_BACKPRESSURE_CHECK_INTERVAL_SECONDS" 5

/-- The file-scope variables of the client. -/
structure BackpressureClient where
  cachedStatus : BackpressureStatus
  lastCheck : ℤ
  config : BackpressureConfig
  initialized : Bool

/-- The variables at start-up. -/
def BackpressureClient.atStart : BackpressureClient := ⟨.inactive, 0, ⟨[], 0⟩, false⟩

/-- `backpressure_client_init`. -/
def backpressureInit (config : BackpressureConfig) : BackpressureClient := ⟨.inactive, 0, config, true⟩

/-- `parse_backpressure_from_metrics`: the number behind the first blank behind the first occurrence of
the metric's name. -/
def parseBackpressureFromMetrics (metricsText : List UInt8) : BackpressureStatus :=
  match splitFirst (ascii "router_intake_backpressure_active") metricsText with
  | none => .inactive
  | some (_, behind) =>
      match behind.dropWhile (· != 32) with
      | [] => .inactive
      | value =>
          if atoi (skipBlanks value) = 1 then .active
          else if contains (ascii "router_jetstream_pending_messages") metricsText ||
              contains (ascii "router_intake_processing_latency_p95") metricsText then .warning
          else .inactive

/-- The body of a page, as `fetch_router_metrics` finds it in the 8 KiB it reads. -/
def metricsBody (page : List UInt8) : List UInt8 :=
  let response := cstr (page.take 8191)
  match splitFirst (ascii "\r\n\r\n") response with
  | some (_, body) => body
  | none =>
      match splitFirst (ascii "\n\n") response with
      | some (_, body) => body
      | none => response

/-- `fetch_router_metrics`: without an answer the cached status stays. -/
def fetchRouterMetrics (httpGet : List UInt8 → Option (List UInt8)) (client : BackpressureClient) :
    BackpressureStatus :=
  if client.config.routerMetricsUrl = [] then .inactive
  else
    match httpGet client.config.routerMetricsUrl with
    | none => client.cachedStatus
    | some page => parseBackpressureFromMetrics (metricsBody page)

/-- `backpressure_client_check_router_status`. -/
def backpressureCheckRouterStatus (now : ℤ) (httpGet : List UInt8 → Option (List UInt8))
    (client : BackpressureClient) : BackpressureStatus × BackpressureClient :=
  if !client.initialized then (.inactive, client)
  else if now - client.lastCheck < client.config.checkIntervalSeconds ∧ 0 < client.lastCheck then
    (client.cachedStatus, client)
  else
    let status := fetchRouterMetrics httpGet client
    (status, { client with cachedStatus := status, lastCheck := now })

end CGateway
