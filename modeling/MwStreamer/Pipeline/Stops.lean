import MwStreamer.Pipeline.LiveReturns
import MwStreamer.Pipeline.OfflineRuns
import MwStreamer.Pipeline.RemuxStops

/-!
# Stops that come while a pipeline starts

The `Start` of a component takes a cancellation back.  `LivePipeline` looks once more before it commits to running,
`OfflinePipeline` and `RemuxPipeline` ask again after they have started their source, and a stop of `RemuxPipeline`
drains the output of the session.  `KeepsStops` says for each of them what a stop that was recorded comes to.
-/

namespace MwStreamer

namespace LivePipeline

variable {s : LivePipeline} {history : List Event}

/-- What came first of two events. -/
theorem Committed.first {run before after : List Event} (h : Committed run)
    (hrun : run = before ++ .recorded :: after) : .committed ∈ before := by
  obtain ⟨early, late, heq, hunstopped, -⟩ := h
  rcases List.append_eq_append_iff.mp (heq.symm.trans hrun) with ⟨between, hbefore, hlate⟩ | ⟨between, hearly, hafter⟩
  · cases between with
    | nil => cases hlate
    | cons e between =>
      obtain ⟨rfl, -⟩ := List.cons.inj hlate
      rw [hbefore]
      exact List.mem_append_right _ List.mem_cons_self
  · cases between with
    | nil => cases hafter
    | cons e between =>
      obtain ⟨rfl, -⟩ := List.cons.inj hafter
      exact absurd (by rw [hearly]; exact List.mem_append_right _ List.mem_cons_self) hunstopped

end LivePipeline

namespace OfflinePipeline

variable {s : OfflinePipeline} {history : List Event}

end OfflinePipeline

namespace RemuxPipeline

variable {s : RemuxPipeline} {history : List Event}

end RemuxPipeline

end MwStreamer
