import Thumbnailer.Service.Caches
import Thumbnailer.Service.Configs
import Thumbnailer.Service.Generating
import Thumbnailer.Service.Rendering
import Thumbnailer.Service.Scheduling

/-!
# Answering requests

A request names its operation in `"op"`; `answer` runs it and gives the answer value, or the
error value that ended it.
-/

namespace Thumbnailer
namespace Service

/-- Runs the operation a request names. -/
def handle (j : Value) : Reply Value := do
  match ← j.text "op" with
  | "lru" => runLru j
  | "cache_key" => runCacheKey j
  | "compressed_cache" => runCompressed j
  | "cache_stats_math" => runCacheStatsMath j
  | "adaptive_cache" => runPageCache j
  | "pool" => runPool j
  | "dpi" => runDpi j
  | "viewer_dpi" => runViewerDpi j
  | "render_quality" => runRenderQuality j
  | "names" => runNames j
  | "pixels_at" => runPixelsAt j
  | "synthetic_render" => runSyntheticRender j
  | "render" => runRender j
  | "render_error" => runRenderError j
  | "request_error" => runRequestError j
  | "image_folder" => runImageFolder j
  | "request" => runRequest j
  | "queue" => runQueue j
  | "scheduler" => runScheduler j
  | "viewport" => runViewport j
  | "page_states" => runPageStates j
  | "transition_matrix" => pure runTransitionMatrix
  | "stats_math" => runStatsMath j
  | "token" => runToken j
  | "event_bus" => runEventBus j
  | "cache_config" => runCacheConfig j
  | "generator_config" => runGeneratorConfig j
  | "config_file" => runConfigFile j
  | "generator" => runGenerator j
  | op => bad ("unknown op " ++ op)

/-- The answer to a request: the operation's result, or the error that ended it. -/
def answer (j : Value) : Value :=
  match handle j with
  | .ok v => v
  | .error e => e

end Service
end Thumbnailer
