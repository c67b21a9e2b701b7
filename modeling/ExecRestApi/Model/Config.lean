/-
Configuration (`config.py`).

`parse_args` is the standard library's: its result, the namespace of flags, is an
argument, `none` where it exits.  Nothing here computes with the one float there is: it
is kept as its text.
-/
import ExecRestApi.Lib.Double
import ExecRestApi.Model.Errors

namespace ExecRestApi

open Py

/-- `_LOG_LEVELS` -/
def logLevels : List String := ["debug", "error", "info", "warn"]

/-- `Config` -/
structure Config where
  upstreamHttp : String
  upstreamWs : String
  listen : String
  upstreamTimeoutSeconds : String
  defaultPageSize : Int
  maxPageSize : Int
  sseBufferBytes : Int
  sseReplayWindow : Int
  sseHeartbeatSeconds : Int
  readySyncLag : Int
  logLevel : String
  logFormat : Option String
  metricsEnabled : Bool

/-- The flags, as `argparse` leaves them. -/
structure Namespace where
  upstreamHttp : Option String := none
  upstreamWs : Option String := none
  listen : Option String := none
  upstreamTimeout : Option String := none
  defaultPageSize : Option Int := none
  maxPageSize : Option Int := none
  sseBufferBytes : Option Int := none
  sseReplayWindow : Option Int := none
  sseHeartbeatSeconds : Option Int := none
  readySyncLag : Option Int := none
  logFormat : Option String := none
  logLevel : Option String := none
  metrics : Option String := none

/-- The environment. -/
abbrev Env := List (String × String)

/-- `_env_get` -/
def envGet (env : Env) (envName : String) : Option String :=
  Dict.lookupIn ("EXEC_REST_API_" ++ envName) env

/-- `_opt_str_field` -/
def optStrField (flag : Option String) (env : Env) (envName : String)
    (default : Option String) : Option String :=
  flag <|> envGet env envName <|> default

/-- `_str_field` -/
def strField (flag : Option String) (env : Env) (envName default : String) : String :=
  (flag <|> envGet env envName).getD default

/-- `_int_field` and `_float_field`: a flag, or the environment read by `parse`. -/
def numField {α : Type} (parse : String → Option α) (flag : Option α) (env : Env)
    (envName : String) (default : α) : Except Exc α :=
  match flag with
  | some v => .ok v
  | none =>
      match envGet env envName with
      | some raw =>
          match parse raw with
          | some v => .ok v
          | none => .error .valueError
      | none => .ok default

/-- `_derive_ws_from_http` -/
def deriveWsFromHttp (httpUrl : String) : Except Exc String :=
  match "https://".toList.isPrefixOf httpUrl.toList, "http://".toList.isPrefixOf httpUrl.toList with
  | true, _ => .ok ("wss://" ++ String.ofList (httpUrl.toList.drop 8))
  | false, true => .ok ("ws://" ++ String.ofList (httpUrl.toList.drop 7))
  | false, false =>
      .error (.configError ⟨"upstream-http URL must be http(s)://, got ", some (.str httpUrl)⟩)

/-- `parse_config` -/
def parseConfig (ns : Option Namespace) (env : Env) : Except Exc Config := do
  let some ns := ns | .error (.configError ⟨"Invalid arguments", none⟩)
  let required := Exc.configError
    ⟨"--upstream-http (or EXEC_REST_API_UPSTREAM_HTTP) is required", none⟩
  let some upstreamHttp := optStrField ns.upstreamHttp env "UPSTREAM_HTTP" none
    | .error required
  if upstreamHttp = "" then .error required
  let upstreamWs ← match optStrField ns.upstreamWs env "UPSTREAM_WS" none with
    | some url => pure url
    | none => deriveWsFromHttp upstreamHttp
  let logLevel := strField ns.logLevel env "LOG_LEVEL" "info"
  if logLevel ∉ logLevels then
    .error (.configError ⟨"--log-level must be one of ['debug', 'error', 'info', 'warn'], got ",
      some (.str logLevel)⟩)
  let upstreamTimeoutSeconds ←
    numField (Option.guard fun raw => (float? raw.toList).isSome) ns.upstreamTimeout env
      "UPSTREAM_TIMEOUT" "30.0"
  let defaultPageSize ← numField int? ns.defaultPageSize env "DEFAULT_PAGE_SIZE" 1000
  let maxPageSize ← numField int? ns.maxPageSize env "MAX_PAGE_SIZE" 10000
  let sseBufferBytes ← numField int? ns.sseBufferBytes env "SSE_BUFFER_BYTES" 65536
  let sseReplayWindow ← numField int? ns.sseReplayWindow env "SSE_REPLAY_WINDOW" 1024
  let sseHeartbeatSeconds ← numField int? ns.sseHeartbeatSeconds env "SSE_HEARTBEAT_SECONDS" 30
  let readySyncLag ← numField int? ns.readySyncLag env "READY_SYNC_LAG" 10
  pure {
    upstreamHttp, upstreamWs, listen := strField ns.listen env "LISTEN" "127.0.0.1:8080",
    upstreamTimeoutSeconds, defaultPageSize, maxPageSize, sseBufferBytes, sseReplayWindow,
    sseHeartbeatSeconds, readySyncLag, logLevel,
    logFormat := optStrField ns.logFormat env "LOG_FORMAT" none,
    metricsEnabled := strField ns.metrics env "METRICS" "on" == "on" }

end ExecRestApi
