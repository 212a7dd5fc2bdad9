import RenderLoop.Finding.Basic
import RenderLoop.Options.Context

/-!
# Reporting a finding

Every check hands its findings through `Context.report`, which leaves out the
decisions behind them unless they are asked for and lowers the confidence
where there is doubt.
-/

namespace RenderLoop

/-- The finding as a run reports it. -/
def Context.report (ctx : Context) (f : Finding) (doubts : List Doubt) :
    Finding :=
  { f with debug := if ctx.options.debug then f.debug else none }.capConfidence
    (doubts.map Doubt.text)

end RenderLoop
